import Mathlib.Data.List.Basic
import Mathlib.Logic.Function.Basic

/-!
# Processes and their pids

A process runs a program, which it can replace, until it exits. The exit takes several steps: first
the memory of the process is gone, then the exit is reported to whoever polls for it, and once the
parent has been told, the pid is free and can be given to another process.

A handle is the process itself and not its pid. Two handles that were opened by pid, one after the
other, are of the same process unless the exit of the first one is reported by then
(`Sound.eq_or_isReported`).
-/

namespace PidTable

inductive Phase where
  | running
  /-- The memory is gone. -/
  | exiting
  /-- The exit is reported. -/
  | reported
  deriving DecidableEq

/-- What a process is born with never changes. -/
structure Process (β ε : Type*) where
  pid : ℕ
  birth : β
  program : ε
  phase : Phase

structure Table (β ε : Type*) where
  process : ℕ → Option (Process β ε)
  /-- The process that has a pid. -/
  holder : ℕ → Option ℕ

inductive Event (β ε : Type*) where
  | spawn (p pid : ℕ) (birth : β) (program : ε)
  | exec (p : ℕ) (program : ε)
  | exit (p : ℕ)
  | report (p : ℕ)
  | reap (p : ℕ)

namespace Table

variable {β ε : Type*} (k : Table β ε) (p : ℕ)

def setProcess (proc : Process β ε) : Table β ε :=
  { k with process := Function.update k.process p (some proc) }

def setHolder (pid : ℕ) (owner : Option ℕ) : Table β ε :=
  { k with holder := Function.update k.holder pid owner }

/-- A process leaves the phase that it has to be in. -/
def move (phase : Phase) (f : Process β ε → Process β ε) : Option (Table β ε) :=
  (k.process p).bind fun proc ↦
    if proc.phase = phase then some (k.setProcess p (f proc)) else none

def spawn (pid : ℕ) (birth : β) (program : ε) : Option (Table β ε) :=
  if (k.process p).isNone ∧ (k.holder pid).isNone then
    some ((k.setProcess p ⟨pid, birth, program, .running⟩).setHolder pid (some p))
  else none

def reap : Option (Table β ε) :=
  (k.process p).bind fun proc ↦
    if proc.phase = .reported ∧ k.holder proc.pid = some p then some (k.setHolder proc.pid none)
    else none

def step (k : Table β ε) : Event β ε → Option (Table β ε)
  | .spawn p pid birth program => k.spawn p pid birth program
  | .exec p program => k.move p .running fun proc ↦ { proc with program }
  | .exit p => k.move p .running fun proc ↦ { proc with phase := .exiting }
  | .report p => k.move p .exiting fun proc ↦ { proc with phase := .reported }
  | .reap p => k.reap p

/-- The table before there is any process. -/
def empty : Table β ε := ⟨fun _ ↦ none, fun _ ↦ none⟩

/-- The program of a process that runs. -/
def running : Option ε :=
  (k.process p).bind fun proc ↦ if proc.phase = .running then some proc.program else none

/-- What a poll says. -/
def isReported : Bool := (k.process p).any fun proc ↦ proc.phase = .reported

/-- The process still has its pid. -/
def isHeld : Bool := (k.process p).any fun proc ↦ k.holder proc.pid = some p

/-- A pid belongs to one process, and a process has its pid until its exit is reported. -/
structure Sound (k : Table β ε) : Prop where
  held : ∀ {pid p}, k.holder pid = some p → ∃ proc, k.process p = some proc ∧ proc.pid = pid
  lost : ∀ {p proc}, k.process p = some proc → k.holder proc.pid = some p ∨ proc.phase = .reported

/-- The process has left its program. -/
def Exited : Prop := ∃ proc, k.process p = some proc ∧ proc.phase ≠ .running

/-- What is true of a process for ever. -/
structure Grows (old new : Process β ε) : Prop where
  pid : new.pid = old.pid
  birth : new.birth = old.birth
  exited : old.phase ≠ .running → new.phase ≠ .running
  reported : old.phase = .reported → new.phase = .reported

/-- A table some time later. -/
def Later (k k' : Table β ε) : Prop :=
  ∀ p old, k.process p = some old → ∃ new, k'.process p = some new ∧ Grows old new

variable {k p} {k' : Table β ε} {proc : Process β ε} {program : ε}

section Updates

variable {proc : Process β ε} {owner : Option ℕ} {q pid pid' : ℕ}

@[simp] theorem process_setProcess_self : (k.setProcess p proc).process p = some proc :=
  Function.update_self ..

theorem process_setProcess_of_ne (h : q ≠ p) : (k.setProcess p proc).process q = k.process q :=
  Function.update_of_ne h ..

@[simp] theorem holder_setProcess : (k.setProcess p proc).holder = k.holder := rfl

@[simp] theorem process_setHolder : (k.setHolder pid owner).process = k.process := rfl

@[simp] theorem holder_setHolder_self : (k.setHolder pid owner).holder pid = owner :=
  Function.update_self ..

theorem holder_setHolder_of_ne (h : pid' ≠ pid) :
    (k.setHolder pid owner).holder pid' = k.holder pid' :=
  Function.update_of_ne h ..

end Updates

theorem Grows.refl (proc : Process β ε) : Grows proc proc := ⟨rfl, rfl, id, id⟩

theorem Later.refl (k : Table β ε) : Later k k := fun _ old h ↦ ⟨old, h, .refl old⟩

theorem move_eq_some {phase : Phase} {f : Process β ε → Process β ε}
    (h : k.move p phase f = some k') :
    ∃ proc, k.process p = some proc ∧ proc.phase = phase ∧ k' = k.setProcess p (f proc) := by
  obtain ⟨proc, hproc, hmove⟩ := Option.bind_eq_some_iff.mp h
  split at hmove
  · rename_i hphase
    exact ⟨proc, hproc, hphase, (Option.some.inj hmove).symm⟩
  · cases hmove

theorem spawn_eq_some {pid : ℕ} {birth : β}
    (h : k.spawn p pid birth program = some k') : k.process p = none ∧ k.holder pid = none ∧
      k' = (k.setProcess p ⟨pid, birth, program, .running⟩).setHolder pid (some p) := by
  rw [spawn] at h
  split at h
  · rename_i hfree
    exact ⟨Option.isNone_iff_eq_none.mp hfree.1, Option.isNone_iff_eq_none.mp hfree.2,
      (Option.some.inj h).symm⟩
  · cases h

theorem reap_eq_some (h : k.reap p = some k') : ∃ proc, k.process p = some proc ∧
    proc.phase = .reported ∧ k.holder proc.pid = some p ∧ k' = k.setHolder proc.pid none := by
  obtain ⟨proc, hproc, hreap⟩ := Option.bind_eq_some_iff.mp h
  split at hreap
  · rename_i hcond
    exact ⟨proc, hproc, hcond.1, hcond.2, (Option.some.inj hreap).symm⟩
  · cases hreap

theorem Sound.empty : (empty : Table β ε).Sound := ⟨nofun, nofun⟩

theorem later_setProcess {proc new : Process β ε} (hproc : k.process p = some proc)
    (hgrows : Grows proc new) : Later k (k.setProcess p new) := by
  intro q old hq
  by_cases hqp : q = p
  · subst hqp
    cases hproc.symm.trans hq
    exact ⟨new, process_setProcess_self, hgrows⟩
  · exact ⟨old, by rw [process_setProcess_of_ne hqp, hq], .refl old⟩

/-- A process that has only got older keeps a table sound. -/
theorem Sound.setProcess {proc new : Process β ε} (h : k.Sound) (hproc : k.process p = some proc)
    (hgrows : Grows proc new) : (k.setProcess p new).Sound where
  held := by
    intro pid q hq
    obtain ⟨old, hold, hpid⟩ := h.held hq
    obtain ⟨new', hnew', hgrows'⟩ := later_setProcess hproc hgrows q old hold
    exact ⟨new', hnew', hgrows'.pid.trans hpid⟩
  lost := by
    intro q found hfound
    by_cases hqp : q = p
    · subst hqp
      cases process_setProcess_self.symm.trans hfound
      rw [holder_setProcess, hgrows.pid]
      exact (h.lost hproc).imp_right hgrows.reported
    · rw [process_setProcess_of_ne hqp] at hfound
      exact h.lost hfound

theorem later_of_spawn {pid : ℕ} {birth : β}
    (h : k.spawn p pid birth program = some k') : Later k k' := by
  obtain ⟨hfree, -, rfl⟩ := spawn_eq_some h
  intro q old hq
  have hqp : q ≠ p := by
    rintro rfl
    rw [hfree] at hq
    cases hq
  exact ⟨old, by rw [process_setHolder, process_setProcess_of_ne hqp, hq], .refl old⟩

theorem Sound.spawn {pid : ℕ} {birth : β} (hsound : k.Sound)
    (h : k.spawn p pid birth program = some k') : k'.Sound := by
  have hlater := later_of_spawn h
  obtain ⟨hfree, hpid, rfl⟩ := spawn_eq_some h
  refine ⟨fun {pid' q} hq ↦ ?_, fun {q proc} hq ↦ ?_⟩
  · by_cases heq : pid' = pid
    · subst heq
      cases holder_setHolder_self.symm.trans hq
      exact ⟨_, process_setProcess_self, rfl⟩
    · rw [holder_setHolder_of_ne heq, holder_setProcess] at hq
      obtain ⟨old, hold, hold_pid⟩ := hsound.held hq
      obtain ⟨new, hnew, hgrows⟩ := hlater q old hold
      exact ⟨new, hnew, hgrows.pid.trans hold_pid⟩
  · by_cases hqp : q = p
    · subst hqp
      cases process_setProcess_self.symm.trans hq
      exact .inl holder_setHolder_self
    · rw [process_setHolder, process_setProcess_of_ne hqp] at hq
      refine (hsound.lost hq).imp_left fun hheld ↦ ?_
      have hne : proc.pid ≠ pid := by
        rintro rfl
        rw [hpid] at hheld
        cases hheld
      rw [holder_setHolder_of_ne hne, holder_setProcess, hheld]

theorem Sound.reap (hsound : k.Sound) (h : k.reap p = some k') : k'.Sound := by
  obtain ⟨gone, hgone, hreported, hheld, rfl⟩ := reap_eq_some h
  refine ⟨fun {pid q} hq ↦ ?_, fun {q proc} hq ↦ ?_⟩
  · by_cases heq : pid = gone.pid
    · subst heq
      cases holder_setHolder_self.symm.trans hq
    · rw [holder_setHolder_of_ne heq] at hq
      exact hsound.held hq
  · rcases hsound.lost hq with hlost | hlost
    · by_cases heq : proc.pid = gone.pid
      · -- Then it is the process that is reaped.
        rw [heq, hheld] at hlost
        cases hlost
        cases hgone.symm.trans hq
        exact .inr hreported
      · exact .inl (by rw [holder_setHolder_of_ne heq, hlost])
    · exact .inr hlost

/-- What a step does to a process, if it does not make or reap one. -/
theorem step_eq_some {e : Event β ε} (h : k.step e = some k') :
    (∃ p pid birth program, k.spawn p pid birth program = some k') ∨
    (∃ p, k.reap p = some k') ∨
    ∃ p proc new, k.process p = some proc ∧ Grows proc new ∧ k' = k.setProcess p new := by
  cases e with
  | spawn p pid birth program => exact .inl ⟨p, pid, birth, program, h⟩
  | exec p program =>
    obtain ⟨proc, hproc, -, rfl⟩ := move_eq_some h
    have hgrows : Grows proc { proc with program } := ⟨rfl, rfl, id, id⟩
    exact .inr (.inr ⟨p, proc, _, hproc, hgrows, rfl⟩)
  | exit p =>
    obtain ⟨proc, hproc, hphase, rfl⟩ := move_eq_some h
    have hgrows : Grows proc { proc with phase := .exiting } :=
      ⟨rfl, rfl, fun _ ↦ nofun, fun h ↦ nomatch hphase.symm.trans h⟩
    exact .inr (.inr ⟨p, proc, _, hproc, hgrows, rfl⟩)
  | report p =>
    obtain ⟨proc, hproc, -, rfl⟩ := move_eq_some h
    have hgrows : Grows proc { proc with phase := .reported } :=
      ⟨rfl, rfl, fun _ ↦ nofun, fun _ ↦ rfl⟩
    exact .inr (.inr ⟨p, proc, _, hproc, hgrows, rfl⟩)
  | reap p => exact .inr (.inl ⟨p, h⟩)

theorem later_of_step {e : Event β ε} (h : k.step e = some k') : Later k k' := by
  rcases step_eq_some h with ⟨p, pid, birth, program, hspawn⟩ | ⟨p, hreap⟩ |
    ⟨p, proc, new, hproc, hgrows, rfl⟩
  · exact later_of_spawn hspawn
  · obtain ⟨gone, -, -, -, rfl⟩ := reap_eq_some hreap
    exact fun _ old hp ↦ ⟨old, hp, .refl old⟩
  · exact later_setProcess hproc hgrows

theorem Sound.step {e : Event β ε} (hsound : k.Sound) (h : k.step e = some k') : k'.Sound := by
  rcases step_eq_some h with ⟨p, pid, birth, program, hspawn⟩ | ⟨p, hreap⟩ |
    ⟨p, proc, new, hproc, hgrows, rfl⟩
  · exact hsound.spawn hspawn
  · exact hsound.reap hreap
  · exact hsound.setProcess hproc hgrows

/-! ## Handles -/

theorem Later.exited (hlater : Later k k') (h : k.Exited p) : k'.Exited p := by
  obtain ⟨old, hold, hphase⟩ := h
  obtain ⟨new, hnew, hgrows⟩ := hlater p old hold
  exact ⟨new, hnew, hgrows.exited hphase⟩

theorem isReported_iff :
    k.isReported p = true ↔ ∃ proc, k.process p = some proc ∧ proc.phase = .reported := by
  simp [isReported, Option.any_eq_true]

theorem Later.isReported (hlater : Later k k') (h : k.isReported p = true) :
    k'.isReported p = true := by
  obtain ⟨old, hold, hphase⟩ := isReported_iff.mp h
  obtain ⟨new, hnew, hgrows⟩ := hlater p old hold
  exact isReported_iff.mpr ⟨new, hnew, hgrows.reported hphase⟩

theorem exited_of_isReported (h : k.isReported p = true) : k.Exited p := by
  obtain ⟨proc, hproc, hphase⟩ := isReported_iff.mp h
  exact ⟨proc, hproc, by rw [hphase]; nofun⟩

theorem running_eq_some (hproc : k.process p = some proc)
    (h : k.running p = some program) : proc.phase = .running ∧ proc.program = program := by
  rw [running, hproc, Option.bind_some] at h
  split at h
  · rename_i hphase
    exact ⟨hphase, Option.some.inj h⟩
  · cases h

theorem exited_of_running_eq_none (hproc : k.process p = some proc)
    (h : k.running p = none) : k.Exited p := by
  refine ⟨proc, hproc, fun hphase ↦ ?_⟩
  rw [running, hproc, Option.bind_some, if_pos hphase] at h
  cases h

/-- A process without its pid has exited. -/
theorem Sound.exited_of_not_isHeld (h : k.Sound)
    (hproc : k.process p = some proc) (hheld : k.isHeld p = false) : k.Exited p := by
  rcases h.lost hproc with hlost | hlost
  · rw [isHeld, hproc] at hheld
    exact absurd hlost (of_decide_eq_false hheld)
  · exact ⟨proc, hproc, by rw [hlost]; nofun⟩

/-- **Two handles that were opened by one pid** are of the same process, or the exit of the first is
reported when the second is opened. -/
theorem Sound.eq_or_isReported {q : ℕ} (h : k.Sound)
    (hproc : k.process p = some proc) (hq : k.holder proc.pid = some q) :
    q = p ∨ k.isReported p = true := by
  rcases h.lost hproc with hlost | hlost
  · exact .inl (Option.some.inj (hq.symm.trans hlost))
  · exact .inr (isReported_iff.mpr ⟨proc, hproc, hlost⟩)

end Table

end PidTable
