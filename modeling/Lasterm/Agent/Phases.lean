import Lasterm.Agent.Pipeline

/-!
# The life of a reader task

A reader is started by a SPAWN, leaves its loop, removes its command sender and announces the exit
of its channel, in this order and once. `phase_step` says which event makes which move; everything
else leaves the phase alone.

From this: the frames of a channel begin with its SPAWN_OK and have no other one (`Announced`), and
once the reader has removed its sender nothing more is read.
-/

namespace Lasterm.Agent

open AgentState
open Runs (Ensures)

/-- The move of the reader of channel `c` that an event makes. -/
def AgentEvent.move (c : String) : AgentEvent → Option (Option ReaderPhase × ReaderPhase)
  | .spawn c' => if c' = c then some (none, .reading) else none
  | .eof c' => if c' = c then some (some .reading, .closing) else none
  | .cleanup c' => if c' = c then some (some .closing, .waiting) else none
  | .exit c' => if c' = c then some (some .waiting, .done) else none
  | _ => none

namespace AgentState

variable {s s' : AgentState} {c c' : String} {r : Reader} {e : AgentEvent}

/-- The phase of the reader of a channel, if there is one. -/
def phaseOf (s : AgentState) (c : String) : Option ReaderPhase := (s.readers c).map Reader.phase

theorem phaseOf_setReader (s : AgentState) (c c' : String) (r : Reader) :
    (s.setReader c r).phaseOf c' = if c = c' then some r.phase else s.phaseOf c' := by
  by_cases hc : c = c'
  · rw [if_pos hc, ← hc, phaseOf, readers_setReader_self, Option.map_some]
  · rw [if_neg hc, phaseOf, readers_setReader_of_ne s hc, phaseOf]

theorem phaseOf_setReader_of_eq (h : s.readers c = some r) {r' : Reader} (hr : r'.phase = r.phase)
    (c' : String) : (s.setReader c r').phaseOf c' = s.phaseOf c' := by
  rw [phaseOf_setReader]
  split
  · rename_i hc
    rw [phaseOf, ← hc, h, hr, Option.map_some]
  · rfl

theorem phaseOf_of_readerIn {phase : ReaderPhase} (h : s.readerIn c phase = some r) :
    s.phaseOf c = some phase := by
  obtain ⟨hr, hphase⟩ := readerIn_eq_some h
  rw [phaseOf, hr, Option.map_some, hphase]

theorem phaseOf_eq_none : s.phaseOf c = none ↔ s.readers c = none := Option.map_eq_none_iff

/-- A move of a reader as the channel `c` sees it. -/
def Moved (c : String) (m : Option (Option ReaderPhase × ReaderPhase)) (s s' : AgentState) : Prop :=
  match m with
  | none => s'.phaseOf c = s.phaseOf c
  | some (before, after) => s.phaseOf c = before ∧ s'.phaseOf c = some after

/-- The reader of `c'` goes from one phase to another. -/
theorem moved_of_readers {before after : ReaderPhase} (h : s.readerIn c' before = some r)
    (hr : s'.readers = (s.setReader c' { r with phase := after }).readers) (c : String) :
    Moved c (if c' = c then some (some before, after) else none) s s' := by
  have hphase : s'.phaseOf c = (s.setReader c' { r with phase := after }).phaseOf c := by
    rw [phaseOf, hr, phaseOf]
  rw [phaseOf_setReader] at hphase
  by_cases hc : c' = c
  · rw [if_pos hc] at hphase ⊢
    exact ⟨hc ▸ phaseOf_of_readerIn h, hphase⟩
  · rw [if_neg hc] at hphase ⊢
    exact hphase

theorem phaseOf_command (s : AgentState) (c c' : String) (cmd : ChannelCommand) :
    (s.command c' cmd).phaseOf c = s.phaseOf c := by
  rw [command]
  split
  · rename_i r hsender hr
    exact phaseOf_setReader_of_eq hr (by rfl) c
  · split <;> rfl

/-- **The moves of a reader.** -/
theorem phase_step (c : String) : Ensures (Moved c (e.move c) s) (s.step e) := by
  cases e with
  | spawn c' =>
    rw [step]
    split
    · exact .of_none
    · rename_i hnone
      refine .of_some ?_
      rw [AgentEvent.move]
      by_cases hc : c' = c
      · rw [if_pos hc]
        refine ⟨?_, (phaseOf_setReader _ c' c _).trans (if_pos hc)⟩
        rw [phaseOf_eq_none, ← hc, hnone]
      · rw [if_neg hc]
        exact (phaseOf_setReader _ c' c _).trans (if_neg hc)
  | read c' raw =>
    intro s' h
    obtain ⟨r, hr, -, -, rfl⟩ := step_read h
    rw [read]
    split
    · exact phaseOf_setReader_of_eq hr (by rfl) c
    · have hset : (s.setReader c' { r with
          seq := r.seq + 1, mirror := r.mirror.process (stripDsr raw) }).phaseOf c
            = s.phaseOf c :=
        phaseOf_setReader_of_eq hr (by rfl) c
      exact hset
  | serve c' =>
    intro s' h
    obtain ⟨r, cmd, cmds, hr, -, -, rfl⟩ := step_serve h
    have hset : (s.setReader c' { r with cmds := cmds }).phaseOf c = s.phaseOf c :=
      phaseOf_setReader_of_eq hr (by rfl) c
    cases cmd with
    | snapshot req => exact hset
    | resize cols rows =>
      exact (phaseOf_setReader_of_eq (readers_setReader_self _ _ _) (by rfl) c).trans hset
  | eof c' | cleanup c' | exit c' =>
    exact .bind fun r hr ↦ .of_some (moved_of_readers hr rfl c)
  | destroy c' => exact .of_some rfl
  | request req c' | resize c' cols rows => exact .of_some (phaseOf_command s c c' _)
  | reply i =>
    rw [step]
    split
    · exact .of_none
    · exact .of_some rfl
  | batchRecv | batchTick ids | write => exact .bind fun _ _ ↦ .of_some rfl

/-- A command sender is there from SPAWN to the removal by its reader. -/
theorem cmdSenders_step (c : String) :
    Ensures (fun s' ↦ s'.cmdSenders c = match e.move c with
      | some (_, .reading) => true
      | some (_, .waiting) => false
      | _ => s.cmdSenders c) (s.step e) := by
  cases e with
  | spawn c' =>
    rw [step]
    cases s.readers c' with
    | some r => exact .of_none
    | none =>
      refine .of_some ?_
      rw [AgentEvent.move]
      by_cases hc : c' = c
      · rw [if_pos hc, ← hc]
        exact Function.update_self _ _ _
      · rw [if_neg hc]
        exact Function.update_of_ne (Ne.symm hc) _ _
  | cleanup c' =>
    refine .bind fun _ _ ↦ .of_some ?_
    rw [AgentEvent.move]
    by_cases hc : c' = c
    · rw [if_pos hc, ← hc]
      exact Function.update_self _ _ _
    · rw [if_neg hc]
      exact Function.update_of_ne (Ne.symm hc) _ _
  | eof c' | exit c' =>
    refine .bind fun _ _ ↦ .of_some ?_
    rw [AgentEvent.move]
    by_cases hc : c' = c
    · rw [if_pos hc]
      rfl
    · rw [if_neg hc]
      rfl
  | read c' raw =>
    intro s' h
    obtain ⟨r, -, -, -, rfl⟩ := step_read h
    rw [read]
    split <;> rfl
  | serve c' =>
    intro s' h
    obtain ⟨r, cmd, cmds, -, -, -, rfl⟩ := step_serve h
    cases cmd <;> rfl
  | destroy c' => exact .of_some rfl
  | request req c' | resize c' cols rows =>
    refine .of_some ?_
    rw [command]
    split
    · rfl
    · split <;> rfl
  | reply i =>
    rw [step]
    cases s.replies[i]? with
    | none => exact .of_none
    | some reply => exact .of_some rfl
  | batchRecv | batchTick ids | write => exact .bind fun _ _ ↦ .of_some rfl

/-- Only a reader in its loop reads. -/
theorem ne_read_of_phase {raw : List UInt8} (h : s.step e = some s')
    (hphase : s.phaseOf c ≠ some .reading) : e ≠ .read c raw := by
  rintro rfl
  rw [step, Option.bind_eq_bind, Option.bind_eq_some_iff] at h
  obtain ⟨r, hr, -⟩ := h
  exact hphase (phaseOf_of_readerIn hr)

theorem output_eq_nil_of_phase (h : s.step e = some s')
    (hphase : s.phaseOf c ≠ some .reading) : e.output c = [] := by
  cases e with
  | read c' raw =>
    rw [AgentEvent.output, if_neg]
    rintro rfl
    exact ne_read_of_phase h hphase rfl
  | _ => rfl

/-! ## What the frames say about a channel -/

/-- Which event sends which frame. -/
theorem mem_emits {f : AgentToHub} (h : f ∈ s.emits e) :
    match f with
    | .spawnOk c => e = .spawn c
    | .channelExit c => e = .exit c
    | .channelNotFound c =>
      e = .request .attach c ∧ ¬(s.cmdSenders c = true ∧ (s.readers c).isSome)
    | _ => True := by
  cases e with
  | spawn c | eof c | exit c =>
    rw [emits, List.mem_singleton] at h
    subst h
    trivial
  | request req c =>
    cases req with
    | snapshotReq => cases h
    | attach =>
      rw [emits] at h
      split at h
      · cases h
      · rename_i hno
        rw [List.mem_singleton] at h
        subst h
        exact ⟨rfl, hno⟩
  | reply i =>
    rw [emits, Option.mem_toList, Option.map_eq_some_iff] at h
    obtain ⟨⟨req, c, info⟩, -, rfl⟩ := h
    cases req <;> trivial
  | write =>
    rw [emits, Option.mem_toList, Option.map_eq_some_iff] at h
    obtain ⟨out, -, rfl⟩ := h
    trivial
  | _ => cases h

theorem count_spawnOk_emits (he : e ≠ .spawn c) : (s.emits e).count (.spawnOk c) = 0 :=
  List.count_eq_zero.mpr fun h ↦ he (mem_emits h)

/-- The reader of a channel is past the removal of its sender. -/
def Quiet (s : AgentState) (c : String) : Prop :=
  s.phaseOf c = some .waiting ∨ s.phaseOf c = some .done

/-- What the frames say about a channel. -/
structure Announced (c : String) (s : AgentState) : Prop where
  /-- Before its SPAWN there is nothing of a channel. -/
  unspawned : s.phaseOf c = none →
    .spawnOk c ∉ s.frames ∧ outputBytes c s.frames = [] ∧ s.batch.inFlight c = []
  once : s.phaseOf c ≠ none → s.frames.count (.spawnOk c) = 1
  /-- No output comes before SPAWN_OK. -/
  first : ∀ p, p <+: s.frames → .spawnOk c ∉ p → outputBytes c p = []
  senders : s.phaseOf c = some .reading ∨ s.phaseOf c = some .closing → s.cmdSenders c = true
  ended : .channelExit c ∈ s.frames ∨ .channelNotFound c ∈ s.frames → s.Quiet c

theorem announced_new (c : String) : Announced c new where
  unspawned _ := ⟨by simp [new], rfl, rfl⟩
  once h := absurd rfl h
  first p hp _ := by rw [List.prefix_nil.mp hp]; rfl
  senders h := by simp [phaseOf, new] at h
  ended h := by simp [new] at h

theorem quiet_step (h : s.Quiet c) (hstep : s.step e = some s') : s'.Quiet c := by
  have hmoved := phase_step c hstep
  cases hm : e.move c with
  | none =>
    rw [hm] at hmoved
    rw [Quiet, hmoved]
    exact h
  | some m =>
    rw [hm] at hmoved
    obtain ⟨before, after⟩ := m
    obtain ⟨hbefore, hafter⟩ := hmoved
    rw [Quiet, hafter]
    -- only the last move starts from a quiet phase
    cases e with
    | exit c' =>
      rw [AgentEvent.move] at hm
      split at hm
      · cases hm
        exact .inr rfl
      · cases hm
    | spawn c' | eof c' | cleanup c' =>
      rw [AgentEvent.move] at hm
      split at hm
      · cases hm
        rcases h with h | h <;> (rw [hbefore] at h; cases h)
      · cases hm
    | read _ _ | serve _ | destroy _ | request _ _ | resize _ _ _ | reply _ | batchRecv
    | batchTick _ | write => cases hm

theorem phaseOf_ne_none_step (h : s.phaseOf c ≠ none) (hstep : s.step e = some s') :
    s'.phaseOf c ≠ none := by
  have hmoved := phase_step c hstep
  cases hm : e.move c with
  | none =>
    rw [hm] at hmoved
    exact hmoved ▸ h
  | some m =>
    rw [hm] at hmoved
    rw [hmoved.2]
    exact Option.some_ne_none _

/-- A channel comes into being by its SPAWN. -/
theorem eq_spawn_of_phaseOf (hstep : s.step e = some s') (h : s.phaseOf c = none)
    (h' : s'.phaseOf c ≠ none) : e = .spawn c := by
  have hmoved := phase_step c hstep
  cases e with
  | spawn c' =>
    rw [AgentEvent.move] at hmoved
    by_cases hc : c' = c
    · rw [hc]
    · rw [if_neg hc] at hmoved
      exact absurd (hmoved.trans h) h'
  | eof c' | cleanup c' | exit c' =>
    rw [AgentEvent.move] at hmoved
    split at hmoved
    · rw [hmoved.1] at h
      cases h
    · exact absurd (Eq.trans hmoved h) h'
  | read _ _ | serve _ | destroy _ | request _ _ | resize _ _ _ | reply _ | batchRecv
  | batchTick _ | write => exact absurd (Eq.trans hmoved h) h'

theorem phaseOf_of_spawn (hstep : s.step (.spawn c) = some s') :
    s.phaseOf c = none ∧ s'.phaseOf c = some .reading := by
  have hmoved := phase_step c hstep
  rw [AgentEvent.move, if_pos rfl] at hmoved
  exact hmoved

theorem Announced.unspawned_step (h : Announced c s) (hstep : s.step e = some s')
    (h' : s'.phaseOf c = none) :
    .spawnOk c ∉ s'.frames ∧ outputBytes c s'.frames = [] ∧ s'.batch.inFlight c = [] := by
  have hnone : s.phaseOf c = none := by
    by_contra hne
    exact phaseOf_ne_none_step hne hstep h'
  obtain ⟨hspawn, hout, hflight⟩ := h.unspawned hnone
  have hoff := output_eq_nil_of_phase (c := c) hstep (by rw [hnone]; exact nofun)
  obtain ⟨frames, hframes, -, hflow⟩ := step_flows (c := c) hstep
  rw [hoff, hflight, List.append_nil, List.append_eq_nil_iff] at hflow
  refine ⟨fun hmem ↦ ?_, ?_, hflow.2⟩
  · rw [frames_step hstep] at hmem
    rcases List.mem_append.mp hmem with hmem | hmem
    · exact hspawn hmem
    · have he : e = .spawn c := mem_emits hmem
      subst he
      rw [(phaseOf_of_spawn hstep).2] at h'
      cases h'
  · rw [hframes, outputBytes_append, hout, hflow.1, List.append_nil]

namespace Announced

variable {e : AgentEvent}

section

variable (h : Announced c s)
include h

theorem once_step (hstep : s.step e = some s') (hne : s'.phaseOf c ≠ none) :
    s'.frames.count (.spawnOk c) = 1 := by
  rw [frames_step hstep, List.count_append]
  by_cases hnone : s.phaseOf c = none
  · obtain rfl := eq_spawn_of_phaseOf hstep hnone hne
    rw [List.count_eq_zero.mpr (h.unspawned hnone).1, emits, List.count_singleton_self]
  · have he : e ≠ .spawn c := by
      rintro rfl
      exact hnone (phaseOf_of_spawn hstep).1
    rw [h.once hnone, count_spawnOk_emits he]

/-- Frames that end before SPAWN_OK are old ones. -/
theorem prefix_of_step (hstep : s.step e = some s')
    (hne : s'.phaseOf c ≠ none) {p : List AgentToHub} (hp : p <+: s'.frames)
    (hno : .spawnOk c ∉ p) : p <+: s.frames := by
  rw [frames_step hstep] at hp
  rcases List.prefix_or_prefix_of_prefix hp (List.prefix_append s.frames (s.emits e)) with
    hpre | hpre
  · exact hpre
  · obtain ⟨q, rfl⟩ := hpre
    rw [List.prefix_append_right_inj] at hp
    by_cases hs : s.phaseOf c = none
    · obtain rfl := eq_spawn_of_phaseOf hstep hs hne
      rcases List.prefix_cons_iff.mp hp with rfl | ⟨t, rfl, -⟩
      · simp
      · exact absurd (List.mem_append_right _ List.mem_cons_self) hno
    · have hmem : .spawnOk c ∈ s.frames :=
        List.count_pos_iff.mp (by rw [h.once hs]; exact Nat.one_pos)
      exact absurd (List.mem_append_left _ hmem) hno

theorem senders_step (hstep : s.step e = some s')
    (hphase : s'.phaseOf c = some .reading ∨ s'.phaseOf c = some .closing) :
    s'.cmdSenders c = true := by
  have hsenders := cmdSenders_step c hstep
  have hmoved := phase_step c hstep
  cases hm : e.move c with
  | none =>
    rw [hm] at hmoved hsenders
    rw [hsenders]
    exact h.senders (hmoved ▸ hphase)
  | some m =>
    obtain ⟨before, after⟩ := m
    rw [hm] at hmoved hsenders
    obtain ⟨hbefore, hafter⟩ := hmoved
    rw [hafter] at hphase
    cases e with
    | spawn c' =>
      rw [AgentEvent.move] at hm
      split at hm
      · cases hm
        exact hsenders
      · cases hm
    | eof c' =>
      rw [AgentEvent.move] at hm
      split at hm
      · cases hm
        exact hsenders.trans (h.senders (.inl hbefore))
      · cases hm
    | cleanup c' | exit c' =>
      rw [AgentEvent.move] at hm
      split at hm
      · cases hm
        rcases hphase with hphase | hphase <;> cases hphase
      · cases hm
    | read _ _ | serve _ | destroy _ | request _ _ | resize _ _ _ | reply _ | batchRecv
    | batchTick _ | write => cases hm

/-- ATTACH finds no sender although the channel was spawned: its reader has removed it. -/
theorem quiet_of_notFound (hphase : s.phaseOf c ≠ none)
    (hno : ¬(s.cmdSenders c = true ∧ (s.readers c).isSome)) : s.Quiet c := by
  have hsome : (s.readers c).isSome := by
    rw [Option.isSome_iff_ne_none]
    exact fun hnone ↦ hphase (phaseOf_eq_none.mpr hnone)
  cases hp : s.phaseOf c with
  | none => exact absurd hp hphase
  | some phase =>
    cases phase with
    | reading => exact absurd ⟨h.senders (.inl hp), hsome⟩ hno
    | closing => exact absurd ⟨h.senders (.inr hp), hsome⟩ hno
    | waiting => exact .inl hp
    | done => exact .inr hp

theorem ended_step (hstep : s.step e = some s')
    (hreq : ∀ req, e = .request req c → s.phaseOf c ≠ none)
    (hended : .channelExit c ∈ s'.frames ∨ .channelNotFound c ∈ s'.frames) : s'.Quiet c := by
  rw [frames_step hstep, List.mem_append, List.mem_append] at hended
  rcases hended with (hended | hended) | hended | hended
  · exact quiet_step (h.ended (.inl hended)) hstep
  · obtain rfl : e = .exit c := mem_emits hended
    have hmoved := phase_step c hstep
    rw [AgentEvent.move, if_pos rfl] at hmoved
    exact .inr hmoved.2
  · exact quiet_step (h.ended (.inr hended)) hstep
  · obtain ⟨rfl, hno⟩ := mem_emits hended
    exact quiet_step (h.quiet_of_notFound (hreq .attach rfl) hno) hstep

/-- **One step**, if a request for the channel comes after its SPAWN. -/
theorem step (hstep : s.step e = some s')
    (hreq : ∀ req, e = .request req c → s.phaseOf c ≠ none) : Announced c s' where
  unspawned := h.unspawned_step hstep
  once := h.once_step hstep
  first p hp hno := by
    by_cases hnone : s'.phaseOf c = none
    · obtain ⟨q, hq⟩ := hp
      have hall := (h.unspawned_step hstep hnone).2.1
      rw [← hq, outputBytes_append, List.append_eq_nil_iff] at hall
      exact hall.1
    · exact h.first p (h.prefix_of_step hstep hnone hp hno) hno
  senders := h.senders_step hstep
  ended := h.ended_step hstep hreq

end

end Announced

end AgentState

end Lasterm.Agent
