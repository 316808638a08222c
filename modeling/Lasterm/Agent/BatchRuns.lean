import Lasterm.Agent.Batch
import Lasterm.Library.Runs

/-!
# Runs of the batch loop

`batch.rs`: the loop from its start to its end. It ends when it finds that all senders are gone and
its queue is empty, and its buffers go with it.

At any time the batches of a channel are consecutive groups of its events, with what is in the
buffer and in the queue behind them (`Merged`). So order and `seq` are right in every run, and the
one thing that can go wrong is the end: what the buffer holds then is lost (`batches_lossless_iff`).
-/

namespace Lasterm.Agent

open Runs (Ensures)

/-- The task that runs the loop. -/
structure BatchTask where
  loop : BatchLoop
  /-- All senders are gone. -/
  closed : Bool
  /-- The loop is behind its `break`. -/
  ended : Bool

inductive BatchStep where
  /-- A reader sends an event. -/
  | send (e : OutputEvent)
  /-- The last sender goes. -/
  | dropSenders
  | recv
  | tick (ids : List String)

namespace BatchTask

def new : BatchTask := ⟨.new, false, false⟩

def step (t : BatchTask) : BatchStep → Option BatchTask
  | .send e => if t.closed then none else some { t with loop := t.loop.send e }
  | .dropSenders => if t.closed then none else some { t with closed := true }
  | .recv =>
    if t.ended then none
    else
      match t.loop.recv with
      | some loop => some { t with loop := loop }
      | none =>
        if t.closed then some { t with loop := { t.loop with buffers := .empty }, ended := true }
        else none
  | .tick ids => if t.ended then none else (t.loop.tick ids).map fun loop ↦ { t with loop := loop }

end BatchTask

/-! ## What a run should do -/

/-- The events that are sent. -/
def sentEvents (steps : List BatchStep) : List OutputEvent :=
  steps.filterMap fun
    | .send e => some e
    | _ => none

/-- The events of a channel. -/
def eventsOf (c : String) (es : List OutputEvent) : List OutputEvent :=
  es.filter fun e ↦ e.channelId = c

/-- The batches of a channel. -/
def batchesOf (c : String) (bs : List BatchedOutput) : List BatchedOutput :=
  bs.filter fun b ↦ b.channelId = c

/-- A batch merged out of events: their data, and the `seq` of the last one. -/
def BatchedOutput.Merges (b : BatchedOutput) (group : List OutputEvent) : Prop :=
  b.data = group.flatMap OutputEvent.data ∧ group.getLast?.map OutputEvent.seq = some b.seq

/-- The batches of a channel carry all its data, each that of the next group of events. -/
def Lossless (c : String) (sent : List OutputEvent) (out : List BatchedOutput) : Prop :=
  (batchesOf c out).flatMap BatchedOutput.data = (eventsOf c sent).flatMap OutputEvent.data ∧
    ∃ groups, List.Forall₂ BatchedOutput.Merges (batchesOf c out) groups ∧
      groups.flatten <+: eventsOf c sent

/-- The queue of the loop, and what came to it for one channel behind the last tick and behind the
last time that this came to the size of a batch. -/
def unsentStep (c : String) (u : List OutputEvent × List UInt8) :
    BatchStep → List OutputEvent × List UInt8
  | .send e => (u.1 ++ [e], u.2)
  | .dropSenders => u
  | .recv =>
    match u.1 with
    | [] => u
    | e :: queue =>
      if e.channelId = c then
        (queue, if BATCH_MAX_BYTES ≤ (u.2 ++ e.data).length then [] else u.2 ++ e.data)
      else (queue, u.2)
  | .tick _ => (u.1, [])

/-- What no batch was made of. -/
def unsent (c : String) (steps : List BatchStep) : List UInt8 :=
  (steps.foldl (unsentStep c) ([], [])).2

/-! ## Groups of events -/

/-- The bytes in a buffer that need not be there. -/
def heldBytes (buf : Option ChannelBuffer) : List UInt8 := (buf.map ChannelBuffer.data).getD []

/-- A buffer holds what was received since the last batch. -/
def Holds (buf : Option ChannelBuffer) (rest : List OutputEvent) : Prop :=
  heldBytes buf = rest.flatMap OutputEvent.data ∧
    ∀ b e, buf = some b → rest.getLast? = some e → b.lastSeq = e.seq

/-- The events of a channel: a group for each of its batches, then those in its buffer, then those
in the queue. -/
def Merged (c : String) (sent rx : List OutputEvent) (buf : Option ChannelBuffer)
    (tx : List BatchedOutput) : Prop :=
  ∃ groups rest, List.Forall₂ BatchedOutput.Merges (batchesOf c tx) groups ∧
    groups.flatten ++ rest ++ eventsOf c rx = eventsOf c sent ∧ Holds buf rest

namespace Merged

variable {c : String} {sent rx : List OutputEvent} {buf : Option ChannelBuffer}
  {tx : List BatchedOutput} {e : OutputEvent}

theorem new (c : String) : Merged c [] [] none [] :=
  ⟨[], [], .nil, rfl, rfl, fun _ _ h _ ↦ by cases h⟩

theorem send (h : Merged c sent rx buf tx) (e : OutputEvent) :
    Merged c (sent ++ [e]) (rx ++ [e]) buf tx := by
  obtain ⟨groups, rest, hgroups, hevents, hrest⟩ := h
  refine ⟨groups, rest, hgroups, ?_, hrest⟩
  rw [eventsOf, eventsOf, List.filter_append, List.filter_append, ← List.append_assoc]
  exact congrArg (· ++ _) hevents

/-- The loop takes an event of another channel. -/
theorem receive_other (h : Merged c sent (e :: rx) buf tx) (he : e.channelId ≠ c) :
    Merged c sent rx buf tx := by
  obtain ⟨groups, rest, hgroups, hevents, hrest⟩ := h
  rw [eventsOf, List.filter_cons_of_neg (by simpa using he)] at hevents
  exact ⟨groups, rest, hgroups, hevents, hrest⟩

/-- The loop takes an event of the channel. -/
theorem receive (h : Merged c sent (e :: rx) buf tx) (he : e.channelId = c) :
    Merged c sent rx (some ⟨(buf.getD ⟨[], 0⟩).data ++ e.data, e.seq⟩) tx := by
  obtain ⟨groups, rest, hgroups, hevents, hdata, -⟩ := h
  rw [eventsOf, List.filter_cons_of_pos (by simpa using he)] at hevents
  refine ⟨groups, rest ++ [e], hgroups, ?_, ?_, ?_⟩
  · rw [← hevents, eventsOf]
    simp only [List.append_assoc, List.singleton_append]
  · rw [List.flatMap_append, List.flatMap_singleton, ← hdata]
    cases buf <;> rfl
  · intro b e' hb he'
    rw [List.getLast?_concat, Option.some.injEq] at he'
    rw [← Option.some.inj hb, ← he']

theorem emit_other (h : Merged c sent rx buf tx) {b : BatchedOutput} (hb : b.channelId ≠ c) :
    Merged c sent rx buf (tx ++ [b]) := by
  obtain ⟨groups, rest, hgroups, hevents, hrest⟩ := h
  refine ⟨groups, rest, ?_, hevents, hrest⟩
  rwa [batchesOf, List.filter_append, List.filter_cons_of_neg (by simpa using hb), List.filter_nil,
    List.append_nil]

/-- The data of the buffer becomes a batch. -/
theorem flush {b : ChannelBuffer} (h : Merged c sent rx (some b) tx) (hb : b.data ≠ []) :
    Merged c sent rx (some ⟨[], b.lastSeq⟩) (tx ++ [⟨c, b.lastSeq, b.data⟩]) := by
  obtain ⟨groups, rest, hgroups, hevents, hdata, hseq⟩ := h
  refine ⟨groups ++ [rest], [], ?_, ?_, rfl, fun _ _ _ h ↦ by cases h⟩
  · rw [batchesOf, List.filter_append, List.filter_cons_of_pos (by simp), List.filter_nil]
    refine List.rel_append hgroups (.cons ⟨hdata, ?_⟩ .nil)
    -- a buffer that is not empty has had an event since its last batch
    cases hlast : rest.getLast? with
    | none =>
      rw [List.getLast?_eq_none_iff.mp hlast] at hdata
      exact absurd hdata hb
    | some e => rw [Option.map_some, hseq b e rfl hlast]
  · rw [List.flatten_append, List.flatten_singleton, List.append_nil]
    exact hevents

theorem data_of_groups {bs : List BatchedOutput} {groups : List (List OutputEvent)}
    (h : List.Forall₂ BatchedOutput.Merges bs groups) :
    bs.flatMap BatchedOutput.data = groups.flatten.flatMap OutputEvent.data := by
  induction h with
  | nil => rfl
  | cons hb _ ih => rw [List.flatMap_cons, List.flatten_cons, List.flatMap_append, ih, hb.1]

/-- With nothing in the queue, what is missing is what the buffer holds. -/
theorem lossless_iff (h : Merged c sent [] buf tx) : Lossless c sent tx ↔ heldBytes buf = [] := by
  obtain ⟨groups, rest, hgroups, hevents, hdata, -⟩ := h
  rw [eventsOf, List.filter_nil, List.append_nil] at hevents
  rw [Lossless, data_of_groups hgroups, ← hevents, List.flatMap_append, hdata]
  constructor
  · rintro ⟨heq, -⟩
    exact List.append_right_eq_self.mp heq.symm
  · intro hempty
    exact ⟨by rw [hempty, List.append_nil], groups, hgroups, List.prefix_append _ _⟩

end Merged

/-! ## The steps of the loop -/

namespace BatchLoop

variable {c : String} {sent : List OutputEvent} {b b' : BatchLoop}

/-- The events of a channel in a loop. -/
def MergedFor (b : BatchLoop) (c : String) (sent : List OutputEvent) : Prop :=
  Merged c sent b.rx (b.buffers.get c) b.tx

@[simp] theorem rx_flushChannel (b : BatchLoop) (id : String) : (b.flushChannel id).rx = b.rx := by
  rw [flushChannel]
  split
  · rfl
  · split <;> rfl

theorem rx_foldl_flushChannel (b : BatchLoop) (ids : List String) :
    (ids.foldl flushChannel b).rx = b.rx := by
  induction ids generalizing b with
  | nil => rfl
  | cons id ids ih => exact (ih (b.flushChannel id)).trans (rx_flushChannel b id)

theorem MergedFor.flushChannel (h : b.MergedFor c sent) (id : String) :
    (b.flushChannel id).MergedFor c sent := by
  rw [BatchLoop.flushChannel]
  split
  · exact h
  · rename_i buf hget
    split
    · exact h
    · rename_i hdata
      by_cases hid : id = c
      · subst hid
        rw [MergedFor, hget] at h
        rw [MergedFor, OrderedMap.get_set_self]
        exact h.flush hdata
      · rw [MergedFor, OrderedMap.get_set_of_ne _ _ hid]
        exact Merged.emit_other h hid

theorem MergedFor.foldl_flushChannel (h : b.MergedFor c sent) (ids : List String) :
    (ids.foldl BatchLoop.flushChannel b).MergedFor c sent := by
  induction ids generalizing b with
  | nil => exact h
  | cons id ids ih => exact ih (h.flushChannel id)

theorem tick_cases {ids : List String} (h : b.tick ids = some b') :
    ids.Perm b.filled ∧ b' = ids.foldl BatchLoop.flushChannel b := by
  rw [tick] at h
  split at h
  · rename_i hperm
    exact ⟨hperm, (Option.some.inj h).symm⟩
  · cases h

theorem heldBytes_flushChannel (b : BatchLoop) (id c : String) :
    heldBytes ((b.flushChannel id).buffers.get c) =
      if id = c then [] else heldBytes (b.buffers.get c) := by
  rw [flushChannel]
  split
  · rename_i hget
    split
    · rename_i hid
      rw [← hid, hget]
      rfl
    · rfl
  · rename_i buf hget
    split
    · rename_i hdata
      split
      · rename_i hid
        rw [← hid, hget]
        exact hdata
      · rfl
    · rw [OrderedMap.get_set]
      split <;> rfl

theorem heldBytes_foldl_flushChannel (b : BatchLoop) (ids : List String) (c : String) :
    heldBytes ((ids.foldl flushChannel b).buffers.get c) =
      if c ∈ ids then [] else heldBytes (b.buffers.get c) := by
  induction ids generalizing b with
  | nil => rfl
  | cons id ids ih =>
    rw [List.foldl_cons, ih, heldBytes_flushChannel]
    by_cases hid : id = c
    · simp [hid]
    · simp [hid, Ne.symm hid]

/-- After a tick the buffers are empty. -/
theorem heldBytes_tick {ids : List String} (h : b.tick ids = some b') (c : String) :
    heldBytes (b'.buffers.get c) = [] := by
  obtain ⟨hperm, rfl⟩ := tick_cases h
  rw [heldBytes_foldl_flushChannel]
  split
  · rfl
  · rename_i hmem
    rw [hperm.mem_iff] at hmem
    cases hget : b.buffers.get c with
    | none => rfl
    | some buf =>
      have hentry := OrderedMap.get_eq_some_iff.mp hget
      refine Decidable.byContradiction fun hdata ↦ hmem (List.mem_map.mpr ⟨(c, buf), ?_, rfl⟩)
      exact List.mem_filter.mpr ⟨hentry, decide_eq_true hdata⟩

theorem recv_eq_none_iff : b.recv = none ↔ b.rx = [] := by
  rw [recv]
  split
  · rename_i hrx
    exact iff_of_true rfl hrx
  · rename_i e rx hrx
    refine iff_of_false ?_ (by rw [hrx]; exact List.cons_ne_nil e rx)
    dsimp only
    split <;> exact Option.some_ne_none _

/-- What taking the next event does for a channel. -/
theorem recv_cases (h : b.recv = some b') (c : String) :
    ∃ e, b.rx = e :: b'.rx ∧ (∀ sent, b.MergedFor c sent → b'.MergedFor c sent) ∧
      heldBytes (b'.buffers.get c) =
        if e.channelId = c then
          if BATCH_MAX_BYTES ≤ (heldBytes (b.buffers.get c) ++ e.data).length then []
          else heldBytes (b.buffers.get c) ++ e.data
        else heldBytes (b.buffers.get c) := by
  rw [recv] at h
  cases hrx : b.rx with
  | nil => rw [hrx] at h; cases h
  | cons e rx =>
    rw [hrx] at h
    dsimp only at h
    have hold : ((b.buffers.get e.channelId).getD ⟨[], 0⟩).data
        = heldBytes (b.buffers.get e.channelId) := by
      cases b.buffers.get e.channelId <;> rfl
    -- The event fills the buffer, which becomes a batch, or stays in it.
    split at h
    · rename_i hsize
      cases h
      refine ⟨e, rfl, fun _ hmerged ↦ ?_, ?_⟩
      · rw [MergedFor, hrx] at hmerged
        by_cases he : e.channelId = c
        · subst he
          have hne : ((b.buffers.get e.channelId).getD ⟨[], 0⟩).data ++ e.data ≠ [] := by
            intro hnil
            rw [hnil] at hsize
            exact absurd hsize (by decide)
          rw [MergedFor, OrderedMap.get_set_self]
          exact (hmerged.receive rfl).flush hne
        · rw [MergedFor, OrderedMap.get_set_of_ne _ _ he]
          exact (hmerged.receive_other he).emit_other he
      · by_cases he : e.channelId = c
        · subst he
          rw [hold] at hsize
          rw [if_pos rfl, if_pos hsize, OrderedMap.get_set_self]
          rfl
        · rw [if_neg he, OrderedMap.get_set_of_ne _ _ he]
    · rename_i hsize
      cases h
      refine ⟨e, rfl, fun _ hmerged ↦ ?_, ?_⟩
      · rw [MergedFor, hrx] at hmerged
        by_cases he : e.channelId = c
        · subst he
          rw [MergedFor, OrderedMap.get_set_self]
          exact hmerged.receive rfl
        · rw [MergedFor, OrderedMap.get_set_of_ne _ _ he]
          exact hmerged.receive_other he
      · by_cases he : e.channelId = c
        · subst he
          rw [hold] at hsize
          rw [if_pos rfl, if_neg hsize, OrderedMap.get_set_self, ← hold]
          rfl
        · rw [if_neg he, OrderedMap.get_set_of_ne _ _ he]

end BatchLoop

/-! ## The task -/

namespace BatchTask

/-- What a run has come to for a channel. When the loop has ended, its buffers are gone. -/
structure Reached (c : String) (steps : List BatchStep) (t : BatchTask)
    (buf : Option ChannelBuffer) : Prop where
  merged : Merged c (sentEvents steps) t.loop.rx buf t.loop.tx
  unsent : steps.foldl (unsentStep c) ([], []) = (t.loop.rx, heldBytes buf)
  held : t.ended = false → t.loop.buffers.get c = buf
  closed : t.ended = true → t.closed = true ∧ t.loop.rx = []

theorem sentEvents_concat (steps : List BatchStep) (e : BatchStep) :
    sentEvents (steps ++ [e]) = sentEvents steps ++ sentEvents [e] := List.filterMap_append

theorem sentEvents_concat_quiet (steps : List BatchStep) {e : BatchStep} (h : sentEvents [e] = []) :
    sentEvents (steps ++ [e]) = sentEvents steps := by
  rw [sentEvents_concat, h, List.append_nil]

variable {steps : List BatchStep}

theorem Reached.step {c : String} {t : BatchTask}
    {buf : Option ChannelBuffer} (h : Reached c steps t buf) {e : BatchStep} :
    Ensures (fun t' ↦ ∃ buf', Reached c (steps ++ [e]) t' buf') (t.step e) := by
  have hfold : (steps ++ [e]).foldl (unsentStep c) ([], [])
      = unsentStep c (t.loop.rx, heldBytes buf) e := by
    rw [List.foldl_concat, h.unsent]
  cases e with
  | send e =>
    rw [BatchTask.step]
    refine .guardNot fun hopen ↦ ?_
    refine .of_some ⟨buf, ?_, hfold, h.held, fun hended ↦ absurd (h.closed hended).1 hopen⟩
    rw [sentEvents_concat]
    exact h.merged.send e
  | dropSenders =>
    rw [BatchTask.step]
    refine .guardNot fun hopen ↦ ?_
    refine .of_some ⟨buf, ?_, hfold, h.held, fun hended ↦ absurd (h.closed hended).1 hopen⟩
    rw [sentEvents_concat_quiet _ rfl]
    exact h.merged
  | recv =>
    rw [BatchTask.step]
    refine .guardNot fun hrunning ↦ ?_
    have hbuf := h.held (Bool.not_eq_true _ |>.mp hrunning)
    split
    · rename_i loop hrecv
      refine .of_some ?_
      obtain ⟨e, hrx, hmerged, hheld⟩ := BatchLoop.recv_cases hrecv c
      refine ⟨loop.buffers.get c, ?_, ?_, fun _ ↦ rfl, fun hended ↦ absurd hended hrunning⟩
      · rw [sentEvents_concat_quiet _ rfl]
        exact hmerged _ (by rw [BatchLoop.MergedFor, hbuf]; exact h.merged)
      · rw [hfold, unsentStep, hrx, hheld, hbuf]
        dsimp only
        split <;> rfl
    -- `None => break`: what the buffers hold is given up here
    · rename_i hrecv
      refine .guard fun hclosed ↦ .of_some ?_
      have hrx := BatchLoop.recv_eq_none_iff.mp hrecv
      refine ⟨buf, ?_, ?_, nofun, fun _ ↦ ⟨hclosed, hrx⟩⟩
      · rw [sentEvents_concat_quiet _ rfl]
        exact h.merged
      · rw [hfold, unsentStep, hrx]
  | tick ids =>
    rw [BatchTask.step]
    refine .guardNot fun hrunning ↦ ?_
    have hbuf := h.held (Bool.not_eq_true _ |>.mp hrunning)
    refine .map fun loop htick ↦ ?_
    have hmerged : t.loop.MergedFor c (sentEvents steps) := by
      rw [BatchLoop.MergedFor, hbuf]
      exact h.merged
    obtain ⟨-, hloop⟩ := BatchLoop.tick_cases htick
    refine ⟨loop.buffers.get c, ?_, ?_, fun _ ↦ rfl, fun hended ↦ absurd hended hrunning⟩
    · rw [sentEvents_concat_quiet _ rfl, hloop]
      exact hmerged.foldl_flushChannel ids
    · rw [hfold, unsentStep, BatchLoop.heldBytes_tick htick, hloop,
        BatchLoop.rx_foldl_flushChannel]

theorem reached_run {t : BatchTask} (h : Runs.run step new steps = some t)
    (c : String) : ∃ buf, Reached c steps t buf := by
  -- by induction on the run; `buf` outlives the loop, whose buffers do not
  refine Runs.run_history (fun steps t ↦ ∃ buf, Reached c steps t buf) ?_ ?_ h
  · exact ⟨none, Merged.new c, rfl, fun _ ↦ rfl, nofun⟩
  · rintro steps t e t' - ⟨buf, hreached⟩ hstep
    exact hreached.step hstep

/-- **The end of the loop**: the batches carry everything that was sent, in order and with the `seq`
of the last event in each, unless data of a channel came behind the last tick and was too little to
be sent for its size. -/
theorem batches_lossless_iff {steps : List BatchStep} {t : BatchTask}
    (h : Runs.run step new steps = some t) (hended : t.ended = true) (c : String) :
    Lossless c (sentEvents steps) t.loop.tx ↔ unsent c steps = [] := by
  obtain ⟨buf, hreached⟩ := reached_run h c
  have hmerged := hreached.merged
  rw [(hreached.closed hended).2] at hmerged
  rw [hmerged.lossless_iff, unsent, hreached.unsent]

/-- Two events in one batch, around one of another channel. -/
def mergedSteps : List BatchStep :=
  [.send ⟨"c", 1, [36]⟩, .send ⟨"d", 1, [35]⟩, .send ⟨"c", 2, [32]⟩, .recv, .recv, .recv,
    .tick ["c", "d"], .dropSenders, .recv]

theorem batches_lossless_iff_ticked : ∃ t, Runs.run step new mergedSteps = some t ∧
    t.loop.tx = [⟨"c", 2, [36, 32]⟩, ⟨"d", 1, [35]⟩] ∧
    Lossless "c" (sentEvents mergedSteps) t.loop.tx :=
  ⟨_, rfl, rfl, (@batches_lossless_iff mergedSteps _ rfl rfl "c").mpr rfl⟩

theorem batches_lost_at_end :
    ¬∀ steps t, Runs.run step new steps = some t → t.ended = true →
      ∀ c, Lossless c (sentEvents steps) t.loop.tx := by
  intro h
  have hbytes := (h [.send ⟨"c", 1, [36]⟩, .recv, .dropSenders, .recv] _ rfl rfl "c").1
  exact absurd hbytes (by decide)

end BatchTask

end Lasterm.Agent
