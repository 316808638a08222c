import Lasterm.Library.Runs

/-!
# States with the journal of their operations

A program whose procedures work on one shared state is described by the operations on that state,
and by the order in which the procedures issue them. `Journal` keeps a state together with the
operations that led to it. What the operations keep, under a condition on each of them, holds of the
state wherever the entries of the journal meet the condition (`Journal.invariant`), whatever
procedures issued them.
-/

open Runs

variable {σ α : Type*}

/-- A state reached from `base`, with the operations that led to it. -/
structure Journal (apply : σ → α → σ) (base : σ) where
  entries : List α
  state : σ
  replay : run (fun s a ↦ some (apply s a)) base entries = some state

namespace Journal

variable {apply : σ → α → σ} {base : σ}

def start (apply : σ → α → σ) (base : σ) : Journal apply base := ⟨[], base, rfl⟩

def record (j : Journal apply base) (a : α) : Journal apply base where
  entries := j.entries ++ [a]
  state := apply j.state a
  replay := by rw [run_append, j.replay]; rfl

/-- Every operation of the journal has the property, in the state in which it was issued. -/
def All (j : Journal apply base) (P : σ → α → σ → Prop) : Prop :=
  Along (fun s a ↦ some (apply s a)) P base j.entries

instance (j : Journal apply base) (P : σ → α → σ → Prop) [∀ s a s', Decidable (P s a s')] :
    Decidable (j.All P) :=
  inferInstanceAs (Decidable (Along _ P base j.entries))

/-- **The invariant rule**: what operations under a condition keep holds of the state. -/
theorem invariant (Inv : σ → Prop) {C : σ → α → σ → Prop}
    (hstep : ∀ s a, Inv s → C s a (apply s a) → Inv (apply s a)) (h : Inv base)
    {j : Journal apply base} (hC : j.All C) : Inv j.state := by
  refine run_invariant_along Inv (fun s a s' hs hCa hs' ↦ ?_) h hC j.replay
  cases hs'
  exact hstep s a hs hCa

/-- An invariant gives a property of every operation, too. -/
theorem all_of_invariant (Inv : σ → Prop) {C P : σ → α → σ → Prop}
    (hstep : ∀ s a, Inv s → C s a (apply s a) → Inv (apply s a) ∧ P s a (apply s a)) (h : Inv base)
    {j : Journal apply base} (hC : j.All C) : j.All P := by
  refine along_of_invariant Inv (fun s a s' hs hCa hs' ↦ ?_) h hC
  cases hs'
  exact hstep s a hs hCa

end Journal
