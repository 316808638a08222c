import Mathlib.Algebra.GroupWithZero.Nat
import Mathlib.Data.List.Sort
import Mathlib.Data.List.Nodup

/-!
# The spool

`spool.ts`: the table `chunks`, which keeps what a terminal has printed and the snapshots taken of
it, and the queries that the hub runs on it.

A table is the list of its rows in order of insertion. The column `id` is left out: it is a fresh
random text, and the queries that delete by it select one row, which `UNIQUE(channel_id, seq)` names
as well. A blob is a list over an arbitrary type `α`; the hub stores bytes, and nothing it computes
depends on which bytes they are.

Everything the hub does with a channel depends on `rowsOf`, the rows of the channel in order of
insertion. Where these are in order of `seq` (`Sorted`), the queries are plain list functions of
them: `getChunksByChannel_of_sorted`, `getLatestSnapshot_of_sorted`.
-/

namespace Lasterm.Hub

abbrev ChannelId := String

inductive ChunkKind where
  | output
  | snapshot
  | resize
  deriving DecidableEq

inductive ChunkCodec where
  | raw
  | zstd
  deriving DecidableEq

/-- What a caller hands to `insertChunk`. -/
structure InsertChunkInput (α : Type*) where
  channelId : ChannelId
  seq : ℕ
  kind : ChunkKind
  codec : Option ChunkCodec := none
  dataBlob : List α
  uncompressedLen : ℕ

/-- A row of the table. `ts` is the time of insertion; as ISO texts, times compare as numbers do. -/
structure Chunk (α : Type*) where
  channelId : ChannelId
  seq : ℕ
  ts : ℕ
  kind : ChunkKind
  codec : ChunkCodec
  dataBlob : List α
  uncompressedLen : ℕ
  deriving DecidableEq

/-- What `UNIQUE(channel_id, seq)` compares. -/
def Chunk.key {α : Type*} (r : Chunk α) : ChannelId × ℕ := (r.channelId, r.seq)

instance lawfulBEq_key : LawfulBEq (ChannelId × ℕ) := inferInstance

/-- The table `chunks`, with its rows in order of insertion. -/
structure Spool (α : Type*) where
  rows : List (Chunk α)
  /-- `UNIQUE(channel_id, seq)`. -/
  unique : (rows.map Chunk.key).Nodup

/-- The options of `getChunksByChannel`. -/
structure ChunkQuery where
  kind : Option ChunkKind := none
  afterSeq : Option ℕ := none
  limit : Option ℕ := none

namespace Spool

variable {α : Type*} {s : Spool α} {c : ChannelId} {r : Chunk α} {l : List (Chunk α)}

def empty : Spool α := ⟨[], List.nodup_nil⟩

/-- The row an `INSERT` adds at time `now`. -/
def newRow (now : ℕ) (input : InsertChunkInput α) : Chunk α where
  channelId := input.channelId
  seq := input.seq
  ts := now
  kind := input.kind
  codec := input.codec.getD .raw
  dataBlob := input.dataBlob
  uncompressedLen := input.uncompressedLen

/-- `none` is the exception for a broken `UNIQUE(channel_id, seq)`. -/
def insertChunk (now : ℕ) (input : InsertChunkInput α) (s : Spool α) : Option (Spool α) :=
  if h : (input.channelId, input.seq) ∉ s.rows.map Chunk.key then
    some ⟨s.rows ++ [newRow now input], by
      rw [List.map_append, List.nodup_append]
      refine ⟨s.unique, by simp, ?_⟩
      intro k hk k' hk' hkk
      rw [List.map_singleton, List.mem_singleton] at hk'
      subst hkk hk'
      exact h hk⟩
  else none

/-- The rows of a channel, in order of insertion. -/
def rowsOf (s : Spool α) (c : ChannelId) : List (Chunk α) := s.rows.filter fun r ↦ r.channelId = c

def getChunksByChannel (s : Spool α) (c : ChannelId) (opts : ChunkQuery) : List (Chunk α) :=
  let selected := (s.rowsOf c).filter fun r ↦
    (opts.kind.all fun k ↦ r.kind = k) && (opts.afterSeq.all fun n ↦ n < r.seq)
  let ordered := selected.insertionSort fun r r' ↦ r.seq ≤ r'.seq
  match opts.limit with
  | none => ordered
  | some n => ordered.take n

def getMaxSeq (s : Spool α) (c : ChannelId) : ℕ := ((s.rowsOf c).map Chunk.seq).max?.getD 0

def getLatestSnapshot (s : Spool α) (c : ChannelId) : Option (Chunk α) :=
  (((s.rowsOf c).filter fun r ↦ r.kind = .snapshot).insertionSort fun r r' ↦ r'.seq ≤ r.seq).head?

/-- The rows that satisfy a condition: every `DELETE` is one of these. -/
def restrict (s : Spool α) (keep : Chunk α → Bool) : Spool α :=
  ⟨s.rows.filter keep, (List.filter_sublist.map Chunk.key).nodup s.unique⟩

/-- The subquery of `deleteChunksOlderThan`: the snapshot of its channel with the largest `seq`. -/
def isLatestSnapshot (s : Spool α) (r : Chunk α) : Bool :=
  r.kind = .snapshot &&
    some r.seq = (((s.rowsOf r.channelId).filter fun r' ↦ r'.kind = .snapshot).map Chunk.seq).max?

def deleteChunksOlderThan (s : Spool α) (before : ℕ) : Spool α :=
  s.restrict fun r ↦ !(r.ts < before && !s.isLatestSnapshot r)

def getChannelSize (s : Spool α) (c : ChannelId) : ℕ :=
  ((s.rowsOf c).map fun r ↦ r.dataBlob.length).sum

def deleteChunksForChannel (s : Spool α) (c : ChannelId) : Spool α :=
  s.restrict fun r ↦ r.channelId ≠ c

theorem length_restrict_lt {keep : Chunk α → Bool} (hr : r ∈ s.rows)
    (hkeep : keep r = false) : (s.restrict keep).rows.length < s.rows.length :=
  List.length_filter_lt_length_iff_exists.mpr ⟨r, hr, by simp [hkeep]⟩

theorem mem_of_mem_getChunksByChannel {opts : ChunkQuery}
    (h : r ∈ s.getChunksByChannel c opts) : r ∈ s.rows := by
  rw [getChunksByChannel] at h
  have hsel : r ∈ ((s.rowsOf c).filter fun r ↦ (opts.kind.all fun k ↦ r.kind = k) &&
      (opts.afterSeq.all fun n ↦ n < r.seq)).insertionSort fun r r' ↦ r.seq ≤ r'.seq := by
    split at h
    · exact h
    · exact List.mem_of_mem_take h
  exact List.mem_of_mem_filter (List.mem_of_mem_filter ((List.mem_insertionSort _).mp hsel))

/-- The loop of the eviction, with its counter `deleted`: oldest output first, and a stop when only
other rows are left. -/
def evictChunks (s : Spool α) (c : ChannelId) (targetSize : ℤ) (deleted : ℕ) : Spool α × ℕ :=
  if targetSize < s.getChannelSize c then
    match _h : (s.getChunksByChannel c { kind := some .output, limit := some 1 }).head? with
    | none => (s, deleted)
    | some oldest => evictChunks (s.restrict fun r ↦ r.key ≠ oldest.key) c targetSize (deleted + 1)
  else (s, deleted)
termination_by s.rows.length
decreasing_by
  exact length_restrict_lt (mem_of_mem_getChunksByChannel (List.mem_of_mem_head? _h)) (by simp)

/-- Where only the rows count. -/
def evictOldestChunks (s : Spool α) (c : ChannelId) (targetSize : ℕ) : Spool α :=
  (s.evictChunks c targetSize 0).1

/-! ## The rows of a channel -/

/-- The rows of a channel were inserted in order of `seq`. -/
def Sorted (s : Spool α) (c : ChannelId) : Prop :=
  (s.rowsOf c).Pairwise fun r r' ↦ r.seq < r'.seq

theorem mem_rowsOf :
    r ∈ s.rowsOf c ↔ r ∈ s.rows ∧ r.channelId = c := by
  rw [rowsOf, List.mem_filter, decide_eq_true_iff]

/-- **Inserting behind the rows of the channel succeeds** and adds the row at their end. -/
theorem insertChunk_of_lt {input : InsertChunkInput α}
    (hlt : ∀ r ∈ s.rowsOf input.channelId, r.seq < input.seq) (now : ℕ) :
    ∃ s', insertChunk now input s = some s' ∧ ∀ c, s'.rowsOf c =
      if input.channelId = c then s.rowsOf c ++ [newRow now input] else s.rowsOf c := by
  have hfresh : (input.channelId, input.seq) ∉ s.rows.map Chunk.key := by
    intro hmem
    obtain ⟨r, hr, hkey⟩ := List.mem_map.mp hmem
    rw [Chunk.key, Prod.mk.injEq] at hkey
    have := hlt r (mem_rowsOf.mpr ⟨hr, hkey.1⟩)
    omega
  rw [insertChunk, dif_pos hfresh]
  refine ⟨_, rfl, fun c ↦ ?_⟩
  rw [rowsOf, List.filter_append, ← rowsOf]
  by_cases hc : input.channelId = c
  · rw [if_pos hc, List.filter_cons_of_pos (by simp [newRow, hc]), List.filter_nil]
  · rw [if_neg hc, List.filter_cons_of_neg (by simp [newRow, hc]), List.filter_nil,
      List.append_nil]

theorem rowsOf_restrict (s : Spool α) (keep : Chunk α → Bool) (c : ChannelId) :
    (s.restrict keep).rowsOf c = (s.rowsOf c).filter keep := by
  rw [rowsOf, restrict, List.filter_filter, rowsOf, List.filter_filter]
  exact List.filter_congr fun r _ ↦ Bool.and_comm _ _

/-! ## Queries on sorted rows -/

private theorem insertionSort_of_sorted (h : l.Pairwise fun r r' ↦ r.seq < r'.seq) :
    l.insertionSort (fun r r' ↦ r.seq ≤ r'.seq) = l :=
  List.Pairwise.insertionSort_eq (h.imp Nat.le_of_lt)

private theorem orderedInsert_of_lt (h : ∀ r' ∈ l, r.seq < r'.seq) :
    l.orderedInsert (fun r r' ↦ r'.seq ≤ r.seq) r = l ++ [r] := by
  induction l with
  | nil => rfl
  | cons r' l ih =>
    have hr' := h r' List.mem_cons_self
    rw [List.orderedInsert_cons, if_neg (by omega),
      ih fun x hx ↦ h x (List.mem_cons_of_mem _ hx), List.cons_append]

private theorem insertionSort_reverse_of_sorted (h : l.Pairwise fun r r' ↦ r.seq < r'.seq) :
    l.insertionSort (fun r r' ↦ r'.seq ≤ r.seq) = l.reverse := by
  induction l with
  | nil => rfl
  | cons r l ih =>
    rw [List.pairwise_cons] at h
    rw [List.insertionSort_cons, ih h.2, orderedInsert_of_lt, List.reverse_cons]
    exact fun r' hr' ↦ h.1 r' (List.mem_reverse.mp hr')

theorem getChunksByChannel_of_sorted (h : s.Sorted c)
    (kind : Option ChunkKind) (afterSeq : Option ℕ) :
    s.getChunksByChannel c { kind := kind, afterSeq := afterSeq } = (s.rowsOf c).filter fun r ↦
      (kind.all fun k ↦ r.kind = k) && (afterSeq.all fun n ↦ n < r.seq) :=
  insertionSort_of_sorted (h.filter _)

theorem getLatestSnapshot_of_sorted (h : s.Sorted c) :
    s.getLatestSnapshot c = ((s.rowsOf c).filter fun r ↦ r.kind = .snapshot).getLast? := by
  rw [getLatestSnapshot, insertionSort_reverse_of_sorted (h.filter _), List.head?_reverse]

end Spool

end Lasterm.Hub
