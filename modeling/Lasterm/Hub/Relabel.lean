import Lasterm.Hub.SpoolGc

/-!
# The hub does not look at bytes

A run over relabelled bytes is the relabelled run (`run_map`): chunker, spool and collector look at
the number of bytes and never at what they are. This is what lets a statement speak of a particular
occurrence of a byte: run the hub on bytes that carry their position, and forget the positions.

On lanes the operations commute with relabelling on the nose. The collector is followed on the spool
itself, where its loop is.
-/

namespace Lasterm.Hub

variable {α β S : Type*} (f : α → β)

def Chunk.map (r : Chunk α) : Chunk β where
  channelId := r.channelId
  seq := r.seq
  ts := r.ts
  kind := r.kind
  codec := r.codec
  dataBlob := r.dataBlob.map f
  uncompressedLen := r.uncompressedLen

def ChannelBuffer.map (b : ChannelBuffer α) : ChannelBuffer β where
  chunks := b.chunks.map (List.map f)
  totalBytes := b.totalBytes
  timer := b.timer
  nextSeq := b.nextSeq
  total := by rw [b.total, ← List.map_flatten, List.length_map]

def Lane.map (l : Lane α) : Lane β := ⟨l.buffer.map (.map f), l.rows.map (.map f)⟩

def SpoolOp.map : SpoolOp α S → SpoolOp β S
  | .trackChannel c => .trackChannel c
  | .onOutput c data => .onOutput c (data.map f)
  | .onTimer c => .onTimer c
  | .storeSnapshot c snapshot agentLastSeq => .storeSnapshot c snapshot agentLastSeq
  | .untrackChannel c => .untrackChannel c

theorem ChannelBuffer.ext_iff_fields {b b' : ChannelBuffer α} (hc : b.chunks = b'.chunks)
    (ht : b.timer = b'.timer) (hn : b.nextSeq = b'.nextSeq) : b = b' := by
  obtain ⟨chunks, total, timer, nextSeq, h⟩ := b
  obtain ⟨chunks', total', timer', nextSeq', h'⟩ := b'
  dsimp only at hc ht hn
  subst hc ht hn
  congr
  exact h.trans h'.symm

namespace ChannelBuffer

variable (b : ChannelBuffer α)

@[simp] theorem totalBytes_map : (b.map f).totalBytes = b.totalBytes := rfl

@[simp] theorem timer_map : (b.map f).timer = b.timer := rfl

@[simp] theorem nextSeq_map : (b.map f).nextSeq = b.nextSeq := rfl

@[simp] theorem concatChunks_map : (b.map f).concatChunks = b.concatChunks.map f := by
  rw [concatChunks, map, ← List.map_flatten, concatChunks]

theorem push_map (data : List α) : (b.map f).push (data.map f) = (b.push data).map f :=
  ext_iff_fields (by simp [push, map]) rfl rfl

end ChannelBuffer

theorem newRow_output_map (now : ℕ) (c : ChannelId) (b : ChannelBuffer α) :
    Spool.newRow now ((b.map f).toInsert c) = (Spool.newRow now (b.toInsert c)).map f := by
  simp [Spool.newRow, ChannelBuffer.toInsert, Chunk.map]

theorem newRow_snapshot_map (now : ℕ) (c : ChannelId) (n : ℕ) (blob : List α) :
    Spool.newRow now (snapshotInsert c n (blob.map f))
      = (Spool.newRow now (snapshotInsert c n blob)).map f := by
  simp [Spool.newRow, snapshotInsert, Chunk.map]

/-! ## Lanes -/

namespace Lane

variable (l : Lane α) (now : ℕ) (c : ChannelId)

@[simp] theorem maxSeq_map : (l.map f).maxSeq = l.maxSeq := by
  rw [maxSeq, map, List.map_map]
  rfl

theorem buffer_map {l : Lane α} {b : ChannelBuffer α} (hb : l.buffer = some b) :
    (l.map f).buffer = some (b.map f) := by rw [map, hb, Option.map_some]

theorem buffered_map : (l.map f).buffered = l.buffered.map f := by
  rw [buffered, map, buffered]
  cases l.buffer with
  | none => rfl
  | some b => exact b.concatChunks_map f

theorem track_map : (l.map f).track = l.track.map f := by
  rw [track, track, maxSeq_map]
  cases hb : l.buffer with
  | none => simp [map, hb, ChannelBuffer.new, ChannelBuffer.map]
  | some b => simp [map, hb]

theorem flush_map : (l.map f).flush now c = (l.flush now c).map f := by
  rw [flush, flush]
  cases hb : l.buffer with
  | none => simp [map, hb]
  | some b =>
    simp only [map, hb, Option.map_some, ChannelBuffer.totalBytes_map, ChannelBuffer.nextSeq_map]
    split
    · rw [hb, Option.map_some]
    · rw [newRow_output_map, List.map_append]
      rfl

/-- A lane with its buffer replaced. -/
theorem map_setBuffer (b : ChannelBuffer α) :
    { l.map f with buffer := some (b.map f) } = Lane.map f { l with buffer := some b } := rfl

theorem output_map (data : List α) :
    (l.map f).output now c (data.map f) = (l.output now c data).map f := by
  rw [output, output]
  cases hb : l.buffer with
  | none => simp [map, hb]
  | some b =>
    rw [buffer_map f hb]
    dsimp only
    rw [ChannelBuffer.push_map, ChannelBuffer.totalBytes_map]
    split
    · rw [map_setBuffer, flush_map]
    · exact map_setBuffer f l ((b.push data).setTimer true)

theorem timer_map : (l.map f).timer now c = (l.timer now c).map f := by
  rw [timer, timer]
  cases hb : l.buffer with
  | none => simp [map, hb]
  | some b =>
    rw [buffer_map f hb]
    dsimp only
    rw [ChannelBuffer.timer_map]
    split
    · exact (congrArg _ (map_setBuffer f l (b.setTimer false))).trans (flush_map f _ now c)
    · rfl

theorem untrack_map : (l.map f).untrack now c = (l.untrack now c).map f := by
  rw [untrack, flush_map, untrack]
  rfl

theorem bump_map (n : ℕ) : (l.map f).bump n = (l.bump n).map f := by
  rw [bump, bump]
  cases hb : l.buffer with
  | none => simp [map, hb]
  | some b =>
    rw [buffer_map f hb]
    dsimp only
    rw [ChannelBuffer.nextSeq_map]
    split
    · exact map_setBuffer f l (b.setNextSeq n)
    · rfl

theorem snapshot_map (blob : List α) (n : ℕ) :
    (l.map f).snapshot now c (blob.map f) n = (l.snapshot now c blob n).map f := by
  rw [snapshot, snapshot, flush_map, maxSeq_map, newRow_snapshot_map, ← bump_map]
  congr 1
  rw [map, map, List.map_append]
  rfl

theorem ordered_map {l : Lane α} (h : l.Ordered) : (l.map f).Ordered := by
  refine ⟨h.sorted.map _ fun _ _ hlt ↦ hlt, ?_, ?_⟩
  · intro r hr
    obtain ⟨r', hr', rfl⟩ := List.mem_map.mp hr
    exact h.pos r' hr'
  · intro b hb
    obtain ⟨b', hb', rfl⟩ := Option.map_eq_some_iff.mp hb
    refine ⟨(h.ahead b' hb').1, fun r hr ↦ ?_⟩
    obtain ⟨r', hr', rfl⟩ := List.mem_map.mp hr
    exact (h.ahead b' hb').2 r' hr'

end Lane

theorem SpoolOp.onLane_map {json : SnapshotJson α S} {json' : SnapshotJson β S}
    (hjson : ∀ x, json'.stringify x = (json.stringify x).map f) (c : ChannelId) (l : Lane α)
    (now : ℕ) (op : SpoolOp α S) :
    onLane json' c (l.map f) (now, op.map f) = (onLane json c l (now, op)).map f := by
  cases op with
  | trackChannel c' =>
    rw [map, onLane, onLane, Lane.track_map]
    split <;> rfl
  | onOutput c' data =>
    rw [map, onLane, onLane, Lane.output_map]
    split <;> rfl
  | onTimer c' =>
    rw [map, onLane, onLane, Lane.timer_map]
    split <;> rfl
  | storeSnapshot c' x n =>
    rw [map, onLane, onLane, hjson, Lane.snapshot_map]
    split <;> rfl
  | untrackChannel c' =>
    rw [map, onLane, onLane, Lane.untrack_map]
    split <;> rfl

/-! ## The collector -/

/-- The rows of every channel are those of another spool, relabelled. -/
def Spool.Image (s : Spool α) (t : Spool β) : Prop := ∀ c, t.rowsOf c = (s.rowsOf c).map (.map f)

namespace Spool

variable {f} {s : Spool α} {t : Spool β}

section

variable (h : s.Image f t)
include h

theorem Image.restrict {keep : Chunk α → Bool} {keep' : Chunk β → Bool}
    (hkeep : ∀ r ∈ s.rows, keep' (r.map f) = keep r) :
    (s.restrict keep).Image f (t.restrict keep') := by
  intro c
  rw [rowsOf_restrict, rowsOf_restrict, h c, List.filter_map]
  congr 1
  exact List.filter_congr fun r hr ↦ hkeep r (mem_rowsOf.mp hr).1

theorem Image.getChannelSize (c : ChannelId) :
    t.getChannelSize c = s.getChannelSize c := by
  rw [Spool.getChannelSize, h c, List.map_map, Spool.getChannelSize]
  congr 2
  funext r
  exact List.length_map f

theorem Image.getChunksByChannel (c : ChannelId) (opts : ChunkQuery) :
    t.getChunksByChannel c opts = (s.getChunksByChannel c opts).map (.map f) := by
  have hsort : ((t.rowsOf c).filter fun r ↦ (opts.kind.all fun k ↦ r.kind = k) &&
        (opts.afterSeq.all fun n ↦ n < r.seq)).insertionSort (fun r r' ↦ r.seq ≤ r'.seq)
      = (((s.rowsOf c).filter fun r ↦ (opts.kind.all fun k ↦ r.kind = k) &&
        (opts.afterSeq.all fun n ↦ n < r.seq)).insertionSort
          (fun r r' ↦ r.seq ≤ r'.seq)).map (.map f) := by
    rw [h c, List.filter_map]
    exact (List.map_insertionSort (fun r r' : Chunk α ↦ r.seq ≤ r'.seq)
      (fun r r' : Chunk β ↦ r.seq ≤ r'.seq) (Chunk.map f) _ fun _ _ _ _ ↦ Iff.rfl).symm
  rw [Spool.getChunksByChannel, hsort, Spool.getChunksByChannel]
  cases opts.limit with
  | none => rfl
  | some n => rw [List.map_take]

theorem Image.isLatestSnapshot (r : Chunk α) :
    t.isLatestSnapshot (r.map f) = s.isLatestSnapshot r := by
  have hmax : ((t.rowsOf r.channelId).filter fun r' ↦ r'.kind = .snapshot).map Chunk.seq
      = ((s.rowsOf r.channelId).filter fun r' ↦ r'.kind = .snapshot).map Chunk.seq := by
    rw [h, List.filter_map, List.map_map]
    rfl
  rw [Spool.isLatestSnapshot, Spool.isLatestSnapshot, ← hmax]
  rfl

theorem Image.evictOldestChunks (c : ChannelId) (targetSize : ℕ) :
    (s.evictOldestChunks c targetSize).Image f (t.evictOldestChunks c targetSize) := by
  rw [Spool.evictOldestChunks, Spool.evictOldestChunks]
  generalize 0 = deleted
  fun_induction s.evictChunks c targetSize deleted generalizing t with
  | case1 s deleted hsize hnone =>
    rw [Spool.evictChunks, h.getChannelSize, if_pos hsize]
    split
    · exact h
    · rename_i oldest hhead
      rw [h.getChunksByChannel, List.head?_map, hnone] at hhead
      cases hhead
  | case2 s deleted hsize oldest hhead ih =>
    rw [Spool.evictChunks.eq_def t, h.getChannelSize, if_pos hsize]
    split
    · rename_i hnone
      rw [h.getChunksByChannel, List.head?_map, hhead] at hnone
      cases hnone
    · rename_i oldest' hhead'
      rw [h.getChunksByChannel, List.head?_map, hhead, Option.map_some, Option.some.injEq] at hhead'
      subst hhead'
      exact ih (h.restrict fun _ _ ↦ rfl)
  | case3 s deleted hsize =>
    rw [Spool.evictChunks, h.getChannelSize, if_neg hsize]
    exact h

end

end Spool

variable {f}

theorem GcOp.image_exec {s : Spool α} {t : Spool β} (h : s.Image f t) (g : GcOp) :
    (g.exec s).Image f (g.exec t) := by
  cases g with
  | deleteChunksOlderThan before =>
    refine h.restrict fun r _ ↦ ?_
    rw [h.isLatestSnapshot]
    rfl
  | evictOldestChunks c targetSize => exact h.evictOldestChunks c targetSize
  | deleteChunksForChannel c => exact h.restrict fun _ _ ↦ rfl

/-! ## Runs with a collector -/

/-- What the hub does with the spool, or the collector. -/
inductive SpoolEvent (α S : Type*) where
  | op (op : SpoolOp α S)
  | gc (op : GcOp)

def SpoolEvent.map (f : α → β) : SpoolEvent α S → SpoolEvent β S
  | .op o => .op (o.map f)
  | .gc g => .gc g

def SpoolEvent.exec (json : SnapshotJson α S) (s : OutputChunker α) :
    ℕ × SpoolEvent α S → Option (OutputChunker α)
  | (now, .op o) => SpoolOp.exec json s (now, o)
  | (_, .gc g) => some { s with spoolDal := g.exec s.spoolDal }

theorem GcOp.ordered_exec {s : OutputChunker α} (h : ∀ c, (s.lanes c).Ordered) (g : GcOp)
    (c : ChannelId) : (OutputChunker.lanes { s with spoolDal := g.exec s.spoolDal } c).Ordered := by
  obtain ⟨keep, hrows, -⟩ := g.rowsOf_exec (h c).sorted
  have hfilter := (h c).filterRows keep
  rw [OutputChunker.lanes, hrows]
  exact hfilter

/-- No event fails, and the rows stay in order. -/
theorem SpoolEvent.exec_ordered (json : SnapshotJson α S) {s : OutputChunker α}
    (h : ∀ c, (s.lanes c).Ordered) (e : ℕ × SpoolEvent α S) :
    ∃ s', exec json s e = some s' ∧ ∀ c, (s'.lanes c).Ordered := by
  obtain ⟨now, o | g⟩ := e
  · obtain ⟨s', hs', hlanes⟩ := SpoolOp.lanes_exec json h (now, o)
    refine ⟨s', hs', fun c ↦ ?_⟩
    rw [hlanes]
    exact SpoolOp.ordered_onLane json (h c) (now, o)
  · exact ⟨_, rfl, g.ordered_exec h⟩

section

variable (json : SnapshotJson α S) (json' : SnapshotJson β S)

theorem SpoolEvent.exec_map (hjson : ∀ x, json'.stringify x = (json.stringify x).map f)
    {s s' : OutputChunker α} {t : OutputChunker β} (h : ∀ c, (s.lanes c).Ordered)
    (ht : ∀ c, t.lanes c = (s.lanes c).map f) {now : ℕ} {e : SpoolEvent α S}
    (hs : exec json s (now, e) = some s') :
    ∃ t', exec json' t (now, e.map f) = some t' ∧ ∀ c, t'.lanes c = (s'.lanes c).map f := by
  cases e with
  | op o =>
    obtain ⟨u, hu, hlanes⟩ := SpoolOp.lanes_exec json h (now, o)
    obtain rfl : u = s' := Option.some.inj (hu.symm.trans hs)
    have htord : ∀ c, (t.lanes c).Ordered := fun c ↦ ht c ▸ Lane.ordered_map f (h c)
    obtain ⟨t', ht', htlanes⟩ := SpoolOp.lanes_exec json' htord (now, o.map f)
    refine ⟨t', ht', fun c ↦ ?_⟩
    have hmap := SpoolOp.onLane_map f hjson c (s.lanes c) now o
    rw [← ht c] at hmap
    rw [htlanes, hlanes]
    exact hmap
  | gc g =>
    cases hs
    refine ⟨_, rfl, fun c ↦ ?_⟩
    have himage : s.spoolDal.Image f t.spoolDal := fun c ↦ congrArg Lane.rows (ht c)
    have hbuffer : t.channels.get c = (s.channels.get c).map (.map f) :=
      congrArg Lane.buffer (ht c)
    rw [OutputChunker.lanes, OutputChunker.lanes, Lane.map, ← g.image_exec himage c, hbuffer]

/-- **Runs commute with relabelling.** -/
theorem run_map (hjson : ∀ x, json'.stringify x = (json.stringify x).map f)
    (events : List (ℕ × SpoolEvent α S)) {s : OutputChunker α} {t : OutputChunker β}
    (h : ∀ c, (s.lanes c).Ordered) (ht : ∀ c, t.lanes c = (s.lanes c).map f) :
    ∃ s' t', Runs.run (SpoolEvent.exec json) s events = some s' ∧
      Runs.run (SpoolEvent.exec json') t (events.map (Prod.map id (.map f))) = some t' ∧
      (∀ c, (s'.lanes c).Ordered) ∧ ∀ c, t'.lanes c = (s'.lanes c).map f := by
  induction events generalizing s t with
  | nil => exact ⟨s, t, rfl, rfl, h, ht⟩
  | cons e events ih =>
    obtain ⟨s₁, hs₁, hord⟩ := SpoolEvent.exec_ordered json h e
    obtain ⟨t₁, ht₁, hmap⟩ := SpoolEvent.exec_map json json' hjson h ht hs₁
    obtain ⟨s', t', hs', ht', hres⟩ := ih hord hmap
    refine ⟨s', t', by rw [Runs.run_cons, hs₁, Option.bind_some, hs'], ?_, hres⟩
    rw [List.map_cons, Runs.run_cons, Prod.map, id, ht₁, Option.bind_some, ht']

end

end Lasterm.Hub
