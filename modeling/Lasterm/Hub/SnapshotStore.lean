import Lasterm.Hub.OutputChunker
import Lasterm.Library.Runs

/-!
# Storing snapshots, and the spool over whole runs

The spool helpers of `channel-lifecycle-manager.ts` (`storeSnapshot`, `buildAttachPayload`), and the
runs in which the hub tracks channels, receives output for them, flushes and stores snapshots.

A run is a list of `SpoolOp`s in any order, for any number of channels. On the lane of a channel it
is a fold that never fails (`run_lanes`): the refinement of the chunker by its lanes. What the spool
holds is then read off the lane (`spool_faithful`): the output rows in order of `seq`, followed by
the buffer, are what came in while the channel was tracked.

A snapshot is stored as JSON. `SnapshotJson` is the pair of conversions, with the law that what was
written is read back.
-/

namespace Lasterm.Hub

/-- `JSON.stringify` and `JSON.parse` on snapshots, with the conversion to a buffer and back. -/
structure SnapshotJson (α S : Type*) where
  stringify : S → List α
  parse : List α → Option S
  parse_stringify : ∀ s, parse (stringify s) = some s

/-- Plain text between quotes, for examples. -/
def quotedJson : SnapshotJson UInt8 (List UInt8) where
  stringify text := 34 :: text ++ [34]
  parse blob := some (blob.drop 1).dropLast
  parse_stringify text := by simp

/-- What an attaching client gets. -/
structure AttachPayload (α S : Type*) where
  snapshot : Option S
  tail : List (List α)

variable {α S : Type*} (json : SnapshotJson α S) {s : OutputChunker α} {c : ChannelId}

/-- What `storeSnapshot` hands to the spool. -/
def snapshotInsert (c : ChannelId) (snapshotSeq : ℕ) (dataBlob : List α) : InsertChunkInput α where
  channelId := c
  seq := snapshotSeq
  kind := .snapshot
  dataBlob := dataBlob
  uncompressedLen := dataBlob.length

namespace OutputChunker

def storeSnapshot (now : ℕ) (c : ChannelId) (snapshot : S) (agentLastSeq : ℕ)
    (s : OutputChunker α) : Option (OutputChunker α) := do
  let dataBlob := json.stringify snapshot
  let s ← flush now c s
  let snapshotSeq := max (s.spoolDal.getMaxSeq c) agentLastSeq + 1
  let spool ← s.spoolDal.insertChunk now (snapshotInsert c snapshotSeq dataBlob)
  some (bumpSeq c (snapshotSeq + 1) { s with spoolDal := spool })

def buildAttachPayload (c : ChannelId) (s : OutputChunker α) : AttachPayload α S :=
  match s.spoolDal.getLatestSnapshot c with
  | none => ⟨none, []⟩
  | some snapshotChunk =>
    let tailChunks := s.spoolDal.getChunksByChannel c
      { kind := some .output, afterSeq := some snapshotChunk.seq }
    ⟨json.parse snapshotChunk.dataBlob, tailChunks.map Chunk.dataBlob⟩

end OutputChunker

/-- What the hub does with the spool while it runs. -/
inductive SpoolOp (α S : Type*) where
  | trackChannel (c : ChannelId)
  | onOutput (c : ChannelId) (data : List α)
  | onTimer (c : ChannelId)
  | storeSnapshot (c : ChannelId) (snapshot : S) (agentLastSeq : ℕ)
  | untrackChannel (c : ChannelId)

/-- One operation, at a time of the clock. -/
def SpoolOp.exec (s : OutputChunker α) : ℕ × SpoolOp α S → Option (OutputChunker α)
  | (_, .trackChannel c) => some (s.trackChannel c none)
  | (now, .onOutput c data) => s.onOutput now c data
  | (now, .onTimer c) => s.onTimer now c
  | (now, .storeSnapshot c snapshot agentLastSeq) =>
    s.storeSnapshot json now c snapshot agentLastSeq
  | (now, .untrackChannel c) => s.untrackChannel now c

/-! ## Snapshots on a lane -/

namespace Lane

def snapshot (now : ℕ) (c : ChannelId) (dataBlob : List α) (agentLastSeq : ℕ)
    (l : Lane α) : Lane α :=
  let l := flush now c l
  let snapshotSeq := max l.maxSeq agentLastSeq + 1
  bump (snapshotSeq + 1)
    { l with rows := l.rows ++ [Spool.newRow now (snapshotInsert c snapshotSeq dataBlob)] }

variable (l : Lane α)

@[simp] theorem rows_bump (n : ℕ) : (bump n l).rows = l.rows := by
  rw [bump]
  split
  · rfl
  · split <;> rfl

@[simp] theorem buffered_bump (n : ℕ) : (bump n l).buffered = l.buffered := by
  rw [bump]
  split
  · rfl
  · rename_i h
    split
    · rw [buffered, buffered, h]
      rfl
    · rfl

@[simp] theorem isSome_bump (n : ℕ) : (bump n l).buffer.isSome = l.buffer.isSome := by
  rw [bump]
  split
  · rfl
  · rename_i h
    split
    · rw [h, Option.isSome_some, Option.isSome_some]
    · rfl

theorem le_nextSeq_of_mem_bump {l : Lane α} {n : ℕ} {b : ChannelBuffer α}
    (h : b ∈ (bump n l).buffer) : n ≤ b.nextSeq := by
  rw [bump] at h
  split at h
  · rename_i hb
    rw [hb] at h
    cases h
  · rename_i buf hb
    split at h
    · cases h
      exact le_rfl
    · rename_i hle
      rw [hb] at h
      cases h
      exact not_lt.mp hle

/-- The rows after storing a snapshot: those of a flush, and the snapshot behind them. -/
theorem rows_snapshot (now : ℕ) (c : ChannelId) (dataBlob : List α) (n : ℕ) :
    (snapshot now c dataBlob n l).rows = (flush now c l).rows ++
      [Spool.newRow now (snapshotInsert c (max (flush now c l).maxSeq n + 1) dataBlob)] := by
  rw [snapshot, rows_bump]

@[simp] theorem buffered_snapshot (now : ℕ) (c : ChannelId) (dataBlob : List α)
    (n : ℕ) : (snapshot now c dataBlob n l).buffered = [] := by
  rw [snapshot, buffered_bump]
  exact buffered_flush l now c

@[simp] theorem isSome_snapshot (now : ℕ) (c : ChannelId) (dataBlob : List α)
    (n : ℕ) : (snapshot now c dataBlob n l).buffer.isSome = l.buffer.isSome := by
  rw [snapshot, isSome_bump]
  exact isSome_flush l now c

theorem ordered_snapshot {l : Lane α} (h : l.Ordered) (now : ℕ) (c : ChannelId)
    (dataBlob : List α) (n : ℕ) : (snapshot now c dataBlob n l).Ordered := by
  have hflush := ordered_flush h now c
  have hrows := rows_snapshot l now c dataBlob n
  have hord := hflush.append
    (r := Spool.newRow now (snapshotInsert c (max (flush now c l).maxSeq n + 1) dataBlob))
    (b := (snapshot now c dataBlob n l).buffer) (Nat.le_add_left 1 _)
    (fun r hr ↦ Nat.lt_succ_of_le ((seq_le_maxSeq hr).trans (le_max_left _ _)))
    (fun b hb ↦ le_nextSeq_of_mem_bump hb)
  rwa [← hrows] at hord

/-- A snapshot takes in no output. -/
theorem spooled_snapshot (now : ℕ) (c : ChannelId) (dataBlob : List α) (n : ℕ) :
    (snapshot now c dataBlob n l).spooled = l.spooled ++ l.buffered := by
  have hflush := (takes_flush l now c).spooled_buffered
  rw [buffered_flush, List.append_nil, List.append_nil] at hflush
  rw [spooled, rows_snapshot, List.flatMap_append, ← spooled, hflush, List.flatMap_singleton]
  exact List.append_nil _

end Lane

/-! ## Runs on lanes -/

/-- One operation, as the lane of channel `c` sees it. -/
def SpoolOp.onLane (c : ChannelId) (l : Lane α) : ℕ × SpoolOp α S → Lane α
  | (_, .trackChannel c') => if c' = c then l.track else l
  | (now, .onOutput c' data) => if c' = c then l.output now c data else l
  | (now, .onTimer c') => if c' = c then l.timer now c else l
  | (now, .storeSnapshot c' snapshot agentLastSeq) =>
    if c' = c then l.snapshot now c (json.stringify snapshot) agentLastSeq else l
  | (now, .untrackChannel c') => if c' = c then l.untrack now c else l

theorem SpoolOp.ordered_onLane {l : Lane α} (h : l.Ordered) (op : ℕ × SpoolOp α S) :
    (onLane json c l op).Ordered := by
  obtain ⟨now, op⟩ := op
  cases op with
  | trackChannel c' =>
    rw [onLane]
    split
    · exact Lane.ordered_track h
    · exact h
  | onOutput c' data =>
    rw [onLane]
    split
    · exact Lane.ordered_output h now c data
    · exact h
  | onTimer c' =>
    rw [onLane]
    split
    · exact Lane.ordered_timer h now c
    · exact h
  | storeSnapshot c' snapshot n =>
    rw [onLane]
    split
    · exact Lane.ordered_snapshot h now c _ n
    · exact h
  | untrackChannel c' =>
    rw [onLane]
    split
    · exact Lane.ordered_untrack h now c
    · exact h

theorem OutputChunker.lanes_storeSnapshot
    (h : (s.lanes c).Ordered) (now : ℕ) (snapshot : S) (n : ℕ) :
    ∃ s', storeSnapshot json now c snapshot n s = some s' ∧ s'.lanes =
      Function.update s.lanes c ((s.lanes c).snapshot now c (json.stringify snapshot) n) := by
  obtain ⟨t, ht, hlanes⟩ := lanes_flush h now
  have hlane : t.lanes c = (s.lanes c).flush now c := by rw [hlanes, Function.update_self]
  obtain ⟨spool, hins, hinsert⟩ := lanes_insert t
    (snapshotInsert c (max (t.spoolDal.getMaxSeq c) n + 1) (json.stringify snapshot))
    (fun r hr ↦ Nat.lt_succ_of_le ((Lane.seq_le_maxSeq hr).trans (le_max_left _ _))) now
  refine ⟨bumpSeq c (max (t.spoolDal.getMaxSeq c) n + 1 + 1) { t with spoolDal := spool }, ?_, ?_⟩
  · simp only [storeSnapshot, ht, hins, Option.bind_eq_bind, Option.bind_some]
  have hmax : t.spoolDal.getMaxSeq c = ((s.lanes c).flush now c).maxSeq := by rw [← hlane]; rfl
  rw [lanes_bumpSeq, hinsert]
  dsimp only [snapshotInsert]
  rw [Function.update_self, Function.update_idem, hlanes, Function.update_idem,
    Function.update_self, hmax]
  rfl

/-- The effect of an operation on all lanes. -/
private theorem update_eq_onLane {L : ChannelId → Lane α} {op : ℕ × SpoolOp α S}
    {l : Lane α} (hself : SpoolOp.onLane json c (L c) op = l)
    (hother : ∀ c', c ≠ c' → SpoolOp.onLane json c' (L c') op = L c') :
    Function.update L c l = fun c' ↦ SpoolOp.onLane json c' (L c') op := by
  funext c'
  by_cases hc : c = c'
  · subst hc
    rw [Function.update_self, hself]
  · rw [Function.update_of_ne (Ne.symm hc), hother c' hc]

theorem SpoolOp.lanes_exec (h : ∀ c, (s.lanes c).Ordered) (op : ℕ × SpoolOp α S) :
    ∃ s', exec json s op = some s' ∧ s'.lanes = fun c ↦ onLane json c (s.lanes c) op := by
  obtain ⟨now, op⟩ := op
  cases op with
  | trackChannel c =>
    refine ⟨_, rfl, ?_⟩
    rw [OutputChunker.lanes_trackChannel]
    exact update_eq_onLane json (if_pos rfl) fun c' hc ↦ if_neg hc
  | onOutput c data =>
    obtain ⟨s', hs', hlanes⟩ := OutputChunker.lanes_onOutput (h c) now data
    refine ⟨s', hs', ?_⟩
    rw [hlanes]
    exact update_eq_onLane json (if_pos rfl) fun c' hc ↦ if_neg hc
  | onTimer c =>
    obtain ⟨s', hs', hlanes⟩ := OutputChunker.lanes_onTimer (h c) now
    refine ⟨s', hs', ?_⟩
    rw [hlanes]
    exact update_eq_onLane json (if_pos rfl) fun c' hc ↦ if_neg hc
  | storeSnapshot c snapshot n =>
    obtain ⟨s', hs', hlanes⟩ := OutputChunker.lanes_storeSnapshot json (h c) now snapshot n
    refine ⟨s', hs', ?_⟩
    rw [hlanes]
    exact update_eq_onLane json (if_pos rfl) fun c' hc ↦ if_neg hc
  | untrackChannel c =>
    obtain ⟨s', hs', hlanes⟩ := OutputChunker.lanes_untrackChannel (h c) now
    refine ⟨s', hs', ?_⟩
    rw [hlanes]
    exact update_eq_onLane json (if_pos rfl) fun c' hc ↦ if_neg hc

/-- **The chunker runs on lanes**: from a store whose rows are in order every run succeeds, and each
channel sees its own fold. -/
theorem run_lanes (h : ∀ c, (s.lanes c).Ordered) (ops : List (ℕ × SpoolOp α S)) :
    ∃ s', Runs.run (SpoolOp.exec json) s ops = some s' ∧
      ∀ c, s'.lanes c = ops.foldl (SpoolOp.onLane json c) (s.lanes c) ∧ (s'.lanes c).Ordered := by
  obtain ⟨s', hrun, hlanes, hord⟩ := Runs.run_simulates OutputChunker.lanes
    (fun L op c ↦ SpoolOp.onLane json c (L c) op) (fun L ↦ ∀ c, (L c).Ordered)
    (fun s op hs ↦ SpoolOp.lanes_exec json hs op)
    (fun L op hL c ↦ SpoolOp.ordered_onLane json (hL c) op) ops h
  refine ⟨s', hrun, fun c ↦ ⟨?_, hord c⟩⟩
  rw [hlanes]
  exact Runs.foldl_apply (fun c l op ↦ SpoolOp.onLane json c l op) ops s.lanes c

/-! ## Faithfulness -/

/-- What a run hands to a channel: whether it is tracked, and the output so far. -/
structure Fed (α : Type*) where
  tracked : Bool
  data : List α

/-- Output of a channel that is not tracked is not taken. -/
def Fed.step (c : ChannelId) (f : Fed α) : ℕ × SpoolOp α S → Fed α
  | (_, .trackChannel c') => if c' = c then { f with tracked := true } else f
  | (_, .onOutput c' data) => if c' = c ∧ f.tracked then { f with data := f.data ++ data } else f
  | (_, .onTimer _) => f
  | (_, .storeSnapshot _ _ _) => f
  | (_, .untrackChannel c') => if c' = c then { f with tracked := false } else f

/-- The data passed to `onOutput` for a channel while it was tracked. -/
def fedWhileTracked (c : ChannelId) (ops : List (ℕ × SpoolOp α S)) : List α :=
  (ops.foldl (Fed.step c) ⟨false, []⟩).data

/-- A lane has taken what it was fed. -/
structure Lane.Holds (l : Lane α) (f : Fed α) : Prop where
  tracked : l.buffer.isSome = f.tracked
  data : l.spooled ++ l.buffered = f.data

theorem Lane.Takes.holds {l l' : Lane α} {data : List α} (h : l.Takes data l') {f : Fed α}
    (hf : l.Holds f) {t : Bool} (ht : l'.buffer.isSome = t) : l'.Holds ⟨t, f.data ++ data⟩ :=
  ⟨ht, by rw [h.spooled_buffered, hf.data]⟩

theorem Lane.Takes.holds_nil {l l' : Lane α} (h : l.Takes [] l') {f : Fed α} (hf : l.Holds f)
    {t : Bool} (ht : l'.buffer.isSome = t) : l'.Holds { f with tracked := t } := by
  have := h.holds hf ht
  rwa [List.append_nil] at this

theorem Lane.holds_onLane {l : Lane α} {f : Fed α} (h : l.Holds f)
    (op : ℕ × SpoolOp α S) : (SpoolOp.onLane json c l op).Holds (f.step c op) := by
  obtain ⟨now, op⟩ := op
  cases op with
  | trackChannel c' =>
    rw [SpoolOp.onLane, Fed.step]
    split
    · exact (takes_track l).holds_nil h (isSome_track l)
    · exact h
  | onOutput c' data =>
    rw [SpoolOp.onLane, Fed.step]
    by_cases hc : c' = c
    · rw [if_pos hc]
      cases hb : l.buffer with
      | none =>
        rw [output_of_untracked hb, if_neg (by rw [← h.tracked, hb]; simp)]
        exact h
      | some b =>
        have ht : f.tracked = true := by rw [← h.tracked, hb, Option.isSome_some]
        rw [if_pos ⟨hc, ht⟩]
        exact (takes_output hb now c data).holds h (by rw [isSome_output, h.tracked])
    · rw [if_neg hc, if_neg fun hand ↦ hc hand.1]
      exact h
  | onTimer c' =>
    rw [SpoolOp.onLane, Fed.step]
    split
    · exact (takes_timer l now c).holds_nil h (by rw [isSome_timer, h.tracked])
    · exact h
  | storeSnapshot c' snapshot n =>
    rw [SpoolOp.onLane, Fed.step]
    split
    · exact ⟨by rw [isSome_snapshot, h.tracked],
        by rw [spooled_snapshot, buffered_snapshot, List.append_nil, h.data]⟩
    · exact h
  | untrackChannel c' =>
    rw [SpoolOp.onLane, Fed.step]
    split
    · exact (takes_untrack l now c).holds_nil h rfl
    · exact h

theorem Lane.holds_foldl (c : ChannelId) (ops : List (ℕ × SpoolOp α S)) {l : Lane α} {f : Fed α}
    (h : l.Holds f) : (ops.foldl (SpoolOp.onLane json c) l).Holds (ops.foldl (Fed.step c) f) := by
  induction ops generalizing l f with
  | nil => exact h
  | cons op ops ih => exact ih (holds_onLane json h op)

theorem map_dataBlob_flatten_eq_flatMap (rows : List (Chunk α)) :
    ((rows.filter fun r ↦ r.kind = .output).map Chunk.dataBlob).flatten
      = rows.flatMap Chunk.outputData := by
  induction rows with
  | nil => rfl
  | cons r rows ih =>
    rw [List.flatMap_cons, Chunk.outputData, ← ih]
    by_cases hr : r.kind = .output
    · rw [List.filter_cons_of_pos (by simp [hr]), if_pos hr, List.map_cons, List.flatten_cons]
    · rw [List.filter_cons_of_neg (by simp [hr]), if_neg hr, List.nil_append]

/-- The output of a channel in the spool, in order of `seq`. -/
def OutputChunker.spooledOutput (s : OutputChunker α) (c : ChannelId) : List α :=
  ((s.spoolDal.getChunksByChannel c { kind := some .output }).map Chunk.dataBlob).flatten

/-- On rows in order, the output of the spool is what the lane has spooled. -/
theorem OutputChunker.spooledOutput_eq
    (h : (s.lanes c).Ordered) : s.spooledOutput c = (s.lanes c).spooled := by
  rw [spooledOutput, Spool.getChunksByChannel_of_sorted h.sorted, Lane.spooled,
    ← map_dataBlob_flatten_eq_flatMap]
  simp [lanes]

/-- The bytes of a channel that wait in the chunker. -/
def OutputChunker.buffered (s : OutputChunker α) (c : ChannelId) : List α := (s.lanes c).buffered

/-- **The spool is faithful.** Over every run the output rows of a channel in order of `seq`,
followed by what is still buffered, are the data passed to `onOutput` while the channel was tracked;
and the rows of a channel, output and snapshots alike, came in with ever larger `seq`. No insertion
is refused on the way. -/
theorem spool_faithful (ops : List (ℕ × SpoolOp α S)) (c : ChannelId) :
    ∃ s, Runs.run (SpoolOp.exec json) (.new .empty) ops = some s ∧
      s.spooledOutput c ++ s.buffered c = fedWhileTracked c ops ∧
      (s.spoolDal.rowsOf c).Pairwise fun r r' ↦ r.seq < r'.seq := by
  obtain ⟨s, hrun, hlanes⟩ := run_lanes json (s := .new .empty) (fun _ ↦ Lane.ordered_empty) ops
  obtain ⟨hlane, hord⟩ := hlanes c
  refine ⟨s, hrun, ?_, hord.sorted⟩
  have hholds := Lane.holds_foldl json c ops (l := .empty) (f := ⟨false, []⟩) ⟨rfl, rfl⟩
  rw [OutputChunker.spooledOutput_eq hord, OutputChunker.buffered, hlane]
  exact hholds.data

end Lasterm.Hub
