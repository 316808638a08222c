import Lasterm.Library.OrderedMap
import Lasterm.Hub.Spool

/-!
# The output chunker

`output-chunker.ts`: output of a terminal is collected in memory and written to the spool as one row
when there is enough of it, when a timer runs out, or when somebody asks for it.

Operations on the chunker look up one channel and touch the rows of that channel only. A `Lane` is
what one channel sees: its buffer and its rows. Every operation is, on the lane of its channel, a
total function, and leaves the other lanes alone (`lanes_flush` and its siblings). That it is total
is where the bookkeeping of `nextSeq` enters: an insertion fails on a `seq` in use, and
`Lane.Ordered`, which all operations keep, says that `nextSeq` is past every `seq` of the channel.
-/

namespace Lasterm.Hub

def CHUNK_MAX_BYTES : ℕ := 256 * 1024

/-- The buffer of a tracked channel. `timer` tells whether a timeout is pending. -/
structure ChannelBuffer (α : Type*) where
  chunks : List (List α)
  totalBytes : ℕ
  timer : Bool
  nextSeq : ℕ
  /-- `totalBytes` counts what is in `chunks`. -/
  total : totalBytes = chunks.flatten.length

namespace ChannelBuffer

variable {α : Type*} (b : ChannelBuffer α)

def new (seq : ℕ) : ChannelBuffer α := ⟨[], 0, false, seq, rfl⟩

def push (b : ChannelBuffer α) (data : List α) : ChannelBuffer α where
  chunks := b.chunks ++ [data]
  totalBytes := b.totalBytes + data.length
  timer := b.timer
  nextSeq := b.nextSeq
  total := by rw [List.flatten_append, List.length_append, ← b.total, List.flatten_singleton]

def setTimer (b : ChannelBuffer α) (timer : Bool) : ChannelBuffer α := { b with timer := timer }

def setNextSeq (b : ChannelBuffer α) (seq : ℕ) : ChannelBuffer α := { b with nextSeq := seq }

/-- `_concatChunks`: as `totalBytes` is the length of the chunks together, they fill the buffer that
is allocated for them. -/
def concatChunks (b : ChannelBuffer α) : List α := b.chunks.flatten

/-- What `flush` hands to the spool. -/
def toInsert (b : ChannelBuffer α) (c : ChannelId) : InsertChunkInput α where
  channelId := c
  seq := b.nextSeq
  kind := .output
  dataBlob := b.concatChunks
  uncompressedLen := b.concatChunks.length

@[simp] theorem concatChunks_push (data : List α) :
    (b.push data).concatChunks = b.concatChunks ++ data := by
  rw [concatChunks, push, List.flatten_append, List.flatten_singleton, concatChunks]

@[simp] theorem concatChunks_setTimer (t : Bool) :
    (b.setTimer t).concatChunks = b.concatChunks := rfl

@[simp] theorem nextSeq_new (seq : ℕ) : (new seq : ChannelBuffer α).nextSeq = seq := rfl

theorem totalBytes_eq_zero_iff : b.totalBytes = 0 ↔ b.concatChunks = [] := by
  rw [b.total, concatChunks, List.length_eq_zero_iff]

end ChannelBuffer

/-- The chunker with the spool it writes to. -/
structure OutputChunker (α : Type*) where
  channels : OrderedMap ChannelId (ChannelBuffer α)
  spoolDal : Spool α

namespace OutputChunker

variable {α : Type*}

def new (spoolDal : Spool α) : OutputChunker α := ⟨.empty, spoolDal⟩

def trackChannel (c : ChannelId) (startSeq : Option ℕ) (s : OutputChunker α) : OutputChunker α :=
  match s.channels.get c with
  | some _ => s
  | none =>
    let resumeSeq := startSeq.getD (s.spoolDal.getMaxSeq c + 1)
    { s with channels := s.channels.set c (.new resumeSeq) }

/-- Write what is buffered as one row; `none` is the exception of the insertion. -/
def flush (now : ℕ) (c : ChannelId) (s : OutputChunker α) : Option (OutputChunker α) :=
  match s.channels.get c with
  | none => some s
  | some buf =>
    if buf.totalBytes = 0 then some s
    else do
      let spool ← s.spoolDal.insertChunk now (buf.toInsert c)
      some ⟨s.channels.set c (.new (buf.nextSeq + 1)), spool⟩

def onOutput (now : ℕ) (c : ChannelId) (data : List α) (s : OutputChunker α) :
    Option (OutputChunker α) :=
  match s.channels.get c with
  | none => some s
  | some b =>
    let buf := b.push data
    if CHUNK_MAX_BYTES ≤ buf.totalBytes then
      flush now c { s with channels := s.channels.set c buf }
    else some { s with channels := s.channels.set c (buf.setTimer true) }

/-- The callback of the timeout, which clears the timer of its buffer before it flushes. A pending
timeout belongs to the buffer in the map: flushing and untracking clear it. -/
def onTimer (now : ℕ) (c : ChannelId) (s : OutputChunker α) : Option (OutputChunker α) :=
  match s.channels.get c with
  | none => some s
  | some buf =>
    if buf.timer then flush now c { s with channels := s.channels.set c (buf.setTimer false) }
    else some s

def untrackChannel (now : ℕ) (c : ChannelId) (s : OutputChunker α) : Option (OutputChunker α) := do
  let s ← flush now c s
  some { s with channels := s.channels.delete c }

/-- Untracking does not disturb the walk over the keys: it only removes the key it is at. -/
def shutdown (now : ℕ) (s : OutputChunker α) : Option (OutputChunker α) :=
  s.channels.keys.foldlM (fun s c ↦ untrackChannel now c s) s

def getNextSeq (c : ChannelId) (s : OutputChunker α) : ℕ :=
  ((s.channels.get c).map ChannelBuffer.nextSeq).getD 1

def bumpSeq (c : ChannelId) (minSeq : ℕ) (s : OutputChunker α) : OutputChunker α :=
  match s.channels.get c with
  | none => s
  | some buf =>
    if buf.nextSeq < minSeq then { s with channels := s.channels.set c (buf.setNextSeq minSeq) }
    else s

end OutputChunker

/-! ## Lanes -/

/-- The output in a row. -/
def Chunk.outputData {α : Type*} (r : Chunk α) : List α :=
  if r.kind = .output then r.dataBlob else []

/-- What one channel sees of the chunker and the spool. -/
structure Lane (α : Type*) where
  buffer : Option (ChannelBuffer α)
  rows : List (Chunk α)

namespace Lane

variable {α : Type*} {l : Lane α}

def empty : Lane α := ⟨none, []⟩

def maxSeq (l : Lane α) : ℕ := (l.rows.map Chunk.seq).max?.getD 0

def track (l : Lane α) : Lane α :=
  match l.buffer with
  | some _ => l
  | none => { l with buffer := some (.new (l.maxSeq + 1)) }

def flush (now : ℕ) (c : ChannelId) (l : Lane α) : Lane α :=
  match l.buffer with
  | none => l
  | some buf =>
    if buf.totalBytes = 0 then l
    else ⟨some (.new (buf.nextSeq + 1)), l.rows ++ [Spool.newRow now (buf.toInsert c)]⟩

def output (now : ℕ) (c : ChannelId) (data : List α) (l : Lane α) : Lane α :=
  match l.buffer with
  | none => l
  | some b =>
    let buf := b.push data
    if CHUNK_MAX_BYTES ≤ buf.totalBytes then flush now c { l with buffer := some buf }
    else { l with buffer := some (buf.setTimer true) }

def timer (now : ℕ) (c : ChannelId) (l : Lane α) : Lane α :=
  match l.buffer with
  | none => l
  | some buf =>
    if buf.timer then flush now c { l with buffer := some (buf.setTimer false) } else l

def untrack (now : ℕ) (c : ChannelId) (l : Lane α) : Lane α := { flush now c l with buffer := none }

def bump (minSeq : ℕ) (l : Lane α) : Lane α :=
  match l.buffer with
  | none => l
  | some buf =>
    if buf.nextSeq < minSeq then { l with buffer := some (buf.setNextSeq minSeq) } else l

/-- The bytes that wait in memory. -/
def buffered (l : Lane α) : List α := l.buffer.elim [] ChannelBuffer.concatChunks

/-- The output that is in the spool. -/
def spooled (l : Lane α) : List α := l.rows.flatMap Chunk.outputData

/-- The rows came in order of `seq`, counting from 1, and `nextSeq` is past them. -/
structure Ordered (l : Lane α) : Prop where
  sorted : l.rows.Pairwise fun r r' ↦ r.seq < r'.seq
  pos : ∀ r ∈ l.rows, 1 ≤ r.seq
  ahead : ∀ buf ∈ l.buffer, 1 ≤ buf.nextSeq ∧ ∀ r ∈ l.rows, r.seq < buf.nextSeq

theorem ordered_empty : (empty : Lane α).Ordered :=
  ⟨List.Pairwise.nil, by simp [empty], by simp [empty]⟩

theorem seq_le_maxSeq {r : Chunk α} (hr : r ∈ l.rows) : r.seq ≤ l.maxSeq := by
  have hmem : r.seq ∈ l.rows.map Chunk.seq := List.mem_map_of_mem hr
  rw [maxSeq]
  cases hmax : (l.rows.map Chunk.seq).max? with
  | none => rw [List.max?_eq_none_iff.mp hmax] at hmem; cases hmem
  | some m => exact (List.max?_eq_some_iff.mp hmax).2 _ hmem

section

variable (h : l.Ordered)
include h

/-- Rows stay in order when a row is added behind them and the buffer is moved past it. -/
theorem Ordered.append {r : Chunk α} (hpos : 1 ≤ r.seq)
    (hr : ∀ r' ∈ l.rows, r'.seq < r.seq) {b : Option (ChannelBuffer α)}
    (hb : ∀ buf ∈ b, r.seq < buf.nextSeq) : Ordered ⟨b, l.rows ++ [r]⟩ := by
  refine ⟨?_, ?_, fun buf hbuf ↦ ⟨by have := hb buf hbuf; omega, ?_⟩⟩
  · refine List.pairwise_append.mpr ⟨h.sorted, List.pairwise_singleton _ _, ?_⟩
    intro r' hr' x hx
    rw [List.mem_singleton] at hx
    exact hx ▸ hr r' hr'
  · intro x hx
    rcases List.mem_append.mp hx with hx | hx
    · exact h.pos x hx
    · rw [List.mem_singleton] at hx
      exact hx ▸ hpos
  · intro x hx
    rcases List.mem_append.mp hx with hx | hx
    · exact (hr x hx).trans (hb buf hbuf)
    · rw [List.mem_singleton] at hx
      exact hx ▸ hb buf hbuf

/-- Only the `nextSeq` of a buffer matters for the order. -/
theorem Ordered.setBuffer {b : Option (ChannelBuffer α)}
    (hb : ∀ buf ∈ b, ∃ buf' ∈ l.buffer, buf'.nextSeq ≤ buf.nextSeq) :
    Ordered { l with buffer := b } := by
  refine ⟨h.sorted, h.pos, fun buf hbuf ↦ ?_⟩
  obtain ⟨buf', hbuf', hle⟩ := hb buf hbuf
  have hahead := h.ahead buf' hbuf'
  exact ⟨hahead.1.trans hle, fun r hr ↦ (hahead.2 r hr).trans_le hle⟩

theorem Ordered.filterRows (keep : Chunk α → Bool) :
    Ordered { l with rows := l.rows.filter keep } :=
  ⟨h.sorted.filter _, fun r hr ↦ h.pos r (List.mem_of_mem_filter hr), fun buf hbuf ↦
    ⟨(h.ahead buf hbuf).1, fun r hr ↦ (h.ahead buf hbuf).2 r (List.mem_of_mem_filter hr)⟩⟩

theorem ordered_track : l.track.Ordered := by
  rw [track]
  split
  · exact h
  · refine ⟨h.sorted, h.pos, ?_⟩
    rintro buf ⟨⟩
    exact ⟨by simp, fun r hr ↦ Nat.lt_succ_of_le (seq_le_maxSeq hr)⟩

theorem ordered_flush (now : ℕ) (c : ChannelId) : (flush now c l).Ordered := by
  rw [flush]
  split
  · exact h
  · rename_i buf hbuf
    split
    · exact h
    · have hahead := h.ahead buf hbuf
      refine h.append hahead.1 hahead.2 ?_
      rintro _ ⟨⟩
      exact Nat.lt_succ_self _

theorem ordered_output (now : ℕ) (c : ChannelId) (data : List α) :
    (output now c data l).Ordered := by
  rw [output]
  split
  · exact h
  · rename_i buf hbuf
    dsimp only
    split
    · refine ordered_flush (h.setBuffer ?_) now c
      rintro _ ⟨⟩
      exact ⟨buf, hbuf, le_rfl⟩
    · refine h.setBuffer ?_
      rintro _ ⟨⟩
      exact ⟨buf, hbuf, le_rfl⟩

theorem ordered_timer (now : ℕ) (c : ChannelId) : (timer now c l).Ordered := by
  rw [timer]
  split
  · exact h
  · rename_i buf hbuf
    split
    · refine ordered_flush (h.setBuffer ?_) now c
      rintro _ ⟨⟩
      exact ⟨buf, hbuf, le_rfl⟩
    · exact h

theorem ordered_untrack (now : ℕ) (c : ChannelId) : (untrack now c l).Ordered :=
  (ordered_flush h now c).setBuffer fun _ hbuf ↦ nomatch hbuf

end

/-! ## What an operation does with bytes -/

/-- The lane takes in `data`: it appends rows of output, and these rows with what is still buffered
hold what was buffered before, followed by `data`. -/
def Takes (l : Lane α) (data : List α) (l' : Lane α) : Prop :=
  ∃ new : List (Chunk α), l'.rows = l.rows ++ new ∧ (∀ r ∈ new, r.kind = .output) ∧
    (new.map Chunk.dataBlob).flatten ++ l'.buffered = l.buffered ++ data

/-- No row is written. -/
theorem takes_of_rows_eq {l l' : Lane α} {data : List α} (hrows : l'.rows = l.rows)
    (hbuf : l'.buffered = l.buffered ++ data) : l.Takes data l' :=
  ⟨[], by rw [hrows, List.append_nil], by simp, hbuf⟩

theorem takes_track (l : Lane α) : l.Takes [] l.track := by
  refine takes_of_rows_eq ?_ ?_
  all_goals
    rw [track]
    split
  · rfl
  · rfl
  · rw [List.append_nil]
  · rename_i h
    rw [buffered, buffered, h]
    rfl

@[simp] theorem buffered_flush (l : Lane α) (now : ℕ) (c : ChannelId) :
    (flush now c l).buffered = [] := by
  rw [flush]
  split
  · rename_i h
    rw [buffered, h, Option.elim_none]
  · rename_i buf h
    split
    · rename_i hz
      rw [buffered, h, Option.elim_some, (buf.totalBytes_eq_zero_iff).mp hz]
    · rfl

/-- A flush writes what is buffered. -/
theorem takes_flush (l : Lane α) (now : ℕ) (c : ChannelId) : l.Takes [] (flush now c l) := by
  have hnil := buffered_flush l now c
  rw [Takes, hnil]
  rw [flush] at hnil ⊢
  split
  · rename_i h
    exact ⟨[], (List.append_nil _).symm, by simp, by rw [buffered, h]; rfl⟩
  · rename_i buf h
    split
    · rename_i hz
      rw [h] at hnil
      dsimp only at hnil
      rw [if_pos hz] at hnil
      exact ⟨[], (List.append_nil _).symm, by simp, by rw [hnil]; rfl⟩
    · refine ⟨_, rfl, ?_, ?_⟩
      · intro r hr
        rw [List.mem_singleton] at hr
        rw [hr]
        rfl
      · rw [buffered, h, List.map_singleton, List.flatten_singleton]
        rfl

/-- A flush after a change of the buffer. -/
theorem Takes.of_flush {b : ChannelBuffer α} {data : List α}
    (hb : b.concatChunks = l.buffered ++ data) (now : ℕ) (c : ChannelId) :
    l.Takes data (flush now c { l with buffer := some b }) := by
  obtain ⟨new, hrows, hkind, hbytes⟩ := takes_flush { l with buffer := some b } now c
  refine ⟨new, hrows, hkind, ?_⟩
  rw [hbytes, List.append_nil, ← hb]
  rfl

theorem takes_output {b : ChannelBuffer α} (hb : l.buffer = some b) (now : ℕ)
    (c : ChannelId) (data : List α) : l.Takes data (output now c data l) := by
  have hbuffered : l.buffered = b.concatChunks := by rw [buffered, hb, Option.elim_some]
  rw [output, hb]
  dsimp only
  split
  · exact Takes.of_flush (by rw [hbuffered, ChannelBuffer.concatChunks_push]) now c
  · refine takes_of_rows_eq rfl ?_
    rw [hbuffered]
    exact ChannelBuffer.concatChunks_push b data

theorem output_of_untracked (hb : l.buffer = none) (now : ℕ) (c : ChannelId)
    (data : List α) : output now c data l = l := by
  rw [output, hb]

theorem takes_timer (l : Lane α) (now : ℕ) (c : ChannelId) : l.Takes [] (timer now c l) := by
  rw [timer]
  split
  · exact takes_of_rows_eq rfl (List.append_nil _).symm
  · rename_i b hb
    split
    · exact Takes.of_flush (by rw [buffered, hb, List.append_nil]; rfl) now c
    · exact takes_of_rows_eq rfl (List.append_nil _).symm

theorem takes_untrack (l : Lane α) (now : ℕ) (c : ChannelId) : l.Takes [] (untrack now c l) := by
  obtain ⟨new, hrows, hkind, hbytes⟩ := takes_flush l now c
  rw [buffered_flush] at hbytes
  exact ⟨new, hrows, hkind, hbytes⟩

theorem flatMap_outputData_of_output {rows : List (Chunk α)} (h : ∀ r ∈ rows, r.kind = .output) :
    rows.flatMap Chunk.outputData = (rows.map Chunk.dataBlob).flatten := by
  rw [← List.flatMap_def]
  exact List.flatMap_congr fun r hr ↦ if_pos (h r hr)

theorem Takes.spooled_buffered {l l' : Lane α} {data : List α} (h : l.Takes data l') :
    l'.spooled ++ l'.buffered = l.spooled ++ l.buffered ++ data := by
  obtain ⟨new, hrows, hkind, hbytes⟩ := h
  rw [spooled, hrows, List.flatMap_append, flatMap_outputData_of_output hkind, List.append_assoc,
    hbytes, ← List.append_assoc, ← spooled]

/-! ## Who is tracked -/

theorem isSome_track (l : Lane α) : l.track.buffer.isSome := by
  rw [track]
  split
  · rename_i h
    rw [h, Option.isSome_some]
  · rfl

@[simp] theorem isSome_flush (l : Lane α) (now : ℕ) (c : ChannelId) :
    (flush now c l).buffer.isSome = l.buffer.isSome := by
  rw [flush]
  split
  · rfl
  · rename_i h
    split
    · rfl
    · rw [h, Option.isSome_some, Option.isSome_some]

@[simp] theorem isSome_output (l : Lane α) (now : ℕ) (c : ChannelId) (data : List α) :
    (output now c data l).buffer.isSome = l.buffer.isSome := by
  rw [output]
  split
  · rfl
  · rename_i h
    dsimp only
    split
    · rw [isSome_flush, h, Option.isSome_some, Option.isSome_some]
    · rw [h, Option.isSome_some, Option.isSome_some]

@[simp] theorem isSome_timer (l : Lane α) (now : ℕ) (c : ChannelId) :
    (timer now c l).buffer.isSome = l.buffer.isSome := by
  rw [timer]
  split
  · rfl
  · rename_i h
    split
    · rw [isSome_flush, h, Option.isSome_some, Option.isSome_some]
    · rfl

end Lane

/-! ## The chunker acts on lanes -/

namespace OutputChunker

variable {α : Type*} {s : OutputChunker α} {c : ChannelId}

/-- What each channel sees. -/
def lanes (s : OutputChunker α) (c : ChannelId) : Lane α := ⟨s.channels.get c, s.spoolDal.rowsOf c⟩

@[simp] theorem lanes_new_empty (c : ChannelId) :
    (new Spool.empty : OutputChunker α).lanes c = .empty :=
  rfl

theorem lanes_set (s : OutputChunker α) (c : ChannelId) (b : ChannelBuffer α) :
    lanes { s with channels := s.channels.set c b }
      = Function.update s.lanes c { s.lanes c with buffer := some b } := by
  funext c'
  by_cases hc : c = c'
  · subst hc
    rw [Function.update_self, lanes, OrderedMap.get_set_self]
    rfl
  · rw [Function.update_of_ne (Ne.symm hc), lanes, OrderedMap.get_set_of_ne _ _ hc]
    rfl

theorem lanes_delete (s : OutputChunker α) (c : ChannelId) :
    lanes { s with channels := s.channels.delete c }
      = Function.update s.lanes c { s.lanes c with buffer := none } := by
  funext c'
  by_cases hc : c = c'
  · subst hc
    rw [Function.update_self, lanes, OrderedMap.get_delete_self]
    rfl
  · rw [Function.update_of_ne (Ne.symm hc), lanes, OrderedMap.get_delete_of_ne _ hc]
    rfl

/-- An insertion behind the rows of the channel, with a new buffer or the old one. -/
theorem lanes_insert (s : OutputChunker α) (input : InsertChunkInput α)
    (hlt : ∀ r ∈ (s.lanes input.channelId).rows, r.seq < input.seq) (now : ℕ) :
    ∃ spool, s.spoolDal.insertChunk now input = some spool ∧
      lanes { s with spoolDal := spool } = Function.update s.lanes input.channelId
        { s.lanes input.channelId with
          rows := (s.lanes input.channelId).rows ++ [Spool.newRow now input] } := by
  obtain ⟨spool, hins, hrows⟩ := Spool.insertChunk_of_lt hlt now
  refine ⟨spool, hins, funext fun c ↦ ?_⟩
  rw [lanes, hrows]
  by_cases hc : input.channelId = c
  · subst hc
    rw [if_pos rfl, Function.update_self]
    rfl
  · rw [if_neg hc, Function.update_of_ne (Ne.symm hc)]
    rfl

theorem lanes_trackChannel (s : OutputChunker α) (c : ChannelId) :
    (trackChannel c none s).lanes = Function.update s.lanes c (s.lanes c).track := by
  rw [trackChannel, Lane.track]
  cases hget : s.channels.get c with
  | some b =>
    have hlane : (s.lanes c).buffer = some b := hget
    rw [hlane, Function.update_eq_self]
  | none =>
    have hlane : (s.lanes c).buffer = none := hget
    rw [hlane]
    exact lanes_set s c _

theorem lanes_flush (h : (s.lanes c).Ordered) (now : ℕ) :
    ∃ s', flush now c s = some s' ∧
      s'.lanes = Function.update s.lanes c ((s.lanes c).flush now c) := by
  rw [flush, Lane.flush]
  cases hget : s.channels.get c with
  | none =>
    have hlane : (s.lanes c).buffer = none := hget
    exact ⟨s, rfl, by rw [hlane, Function.update_eq_self]⟩
  | some buf =>
    have hlane : (s.lanes c).buffer = some buf := hget
    rw [hlane]
    dsimp only
    by_cases hz : buf.totalBytes = 0
    · rw [if_pos hz, if_pos hz]
      exact ⟨s, rfl, (Function.update_eq_self _ _).symm⟩
    · rw [if_neg hz, if_neg hz]
      obtain ⟨spool, hins, hlanes⟩ := lanes_insert s (buf.toInsert c)
        (h.ahead buf hget).2 now
      refine ⟨⟨s.channels.set c (.new (buf.nextSeq + 1)), spool⟩, by rw [hins]; rfl, ?_⟩
      have hset := lanes_set { s with spoolDal := spool } c (.new (buf.nextSeq + 1))
      rw [hlanes] at hset
      rw [hset, ChannelBuffer.toInsert, Function.update_idem, Function.update_self]

/-- A flush of a channel whose buffer was just replaced. -/
theorem lanes_flush_set {b : ChannelBuffer α}
    (h : Lane.Ordered { s.lanes c with buffer := some b }) (now : ℕ) :
    ∃ s', flush now c { s with channels := s.channels.set c b } = some s' ∧ s'.lanes =
      Function.update s.lanes c (Lane.flush now c { s.lanes c with buffer := some b }) := by
  have hlanes := lanes_set s c b
  obtain ⟨s', hs', hflush⟩ := lanes_flush (s := { s with channels := s.channels.set c b }) (c := c)
    (by rw [hlanes, Function.update_self]; exact h) now
  refine ⟨s', hs', ?_⟩
  rw [hflush, hlanes, Function.update_self, Function.update_idem]

theorem lanes_onOutput (h : (s.lanes c).Ordered) (now : ℕ) (data : List α) :
    ∃ s', onOutput now c data s = some s' ∧
      s'.lanes = Function.update s.lanes c ((s.lanes c).output now c data) := by
  rw [onOutput, Lane.output]
  cases hget : s.channels.get c with
  | none =>
    have hlane : (s.lanes c).buffer = none := hget
    exact ⟨s, rfl, by rw [hlane, Function.update_eq_self]⟩
  | some b =>
    have hlane : (s.lanes c).buffer = some b := hget
    rw [hlane]
    dsimp only
    split
    · refine lanes_flush_set (h.setBuffer ?_) now
      rintro _ ⟨⟩
      exact ⟨b, hget, le_rfl⟩
    · exact ⟨_, rfl, lanes_set s c _⟩

theorem lanes_onTimer (h : (s.lanes c).Ordered) (now : ℕ) :
    ∃ s', onTimer now c s = some s' ∧
      s'.lanes = Function.update s.lanes c ((s.lanes c).timer now c) := by
  rw [onTimer, Lane.timer]
  cases hget : s.channels.get c with
  | none =>
    have hlane : (s.lanes c).buffer = none := hget
    exact ⟨s, rfl, by rw [hlane, Function.update_eq_self]⟩
  | some b =>
    have hlane : (s.lanes c).buffer = some b := hget
    rw [hlane]
    dsimp only
    split
    · refine lanes_flush_set (h.setBuffer ?_) now
      rintro _ ⟨⟩
      exact ⟨b, hget, le_rfl⟩
    · exact ⟨s, rfl, (Function.update_eq_self _ _).symm⟩

theorem lanes_untrackChannel (h : (s.lanes c).Ordered) (now : ℕ) :
    ∃ s', untrackChannel now c s = some s' ∧
      s'.lanes = Function.update s.lanes c ((s.lanes c).untrack now c) := by
  obtain ⟨s', hs', hlanes⟩ := lanes_flush h now
  refine ⟨{ s' with channels := s'.channels.delete c }, by rw [untrackChannel, hs']; rfl, ?_⟩
  rw [lanes_delete, hlanes, Function.update_self, Function.update_idem, Lane.untrack]

theorem lanes_bumpSeq (s : OutputChunker α) (c : ChannelId) (minSeq : ℕ) :
    (bumpSeq c minSeq s).lanes = Function.update s.lanes c ((s.lanes c).bump minSeq) := by
  rw [bumpSeq, Lane.bump]
  cases hget : s.channels.get c with
  | none =>
    have hlane : (s.lanes c).buffer = none := hget
    rw [hlane, Function.update_eq_self]
  | some b =>
    have hlane : (s.lanes c).buffer = some b := hget
    rw [hlane]
    dsimp only
    split
    · exact lanes_set s c _
    · rw [Function.update_eq_self]

end OutputChunker

end Lasterm.Hub
