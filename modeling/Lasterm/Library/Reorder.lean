import Mathlib.Data.List.Sort
import Lasterm.Library.Runs

/-!
# Runs with delayed events

Events are handed over one after another, each with a delay, and run in the order of the delays;
events with the same delay run in the order in which they were handed over (`byDelay`).

An event is overtaken by the later ones with a smaller delay. Where each such pair can be
exchanged, the delays make no difference (`run_byDelay`).
-/

namespace Runs

variable {σ ε : Type*} (step : σ → ε → Option σ) (Inv : σ → Prop)

/-- The two events can be exchanged in every state of the invariant. -/
def Exchange (a b : ε) : Prop :=
  ∀ s, Inv s → (step s a).bind (step · b) = (step s b).bind (step · a)

/-- The order in which delayed events run. -/
def byDelay (es : List (ℕ × ε)) : List (ℕ × ε) := es.insertionSort fun x y ↦ x.1 ≤ y.1

theorem mem_byDelay {es : List (ℕ × ε)} {x : ℕ × ε} : x ∈ byDelay es ↔ x ∈ es :=
  List.mem_insertionSort _

variable {step Inv}

theorem Exchange.run_cons_cons {a b : ε} (h : Exchange step Inv a b) {s : σ} (hs : Inv s)
    (es : List ε) : run step s (a :: b :: es) = run step s (b :: a :: es) := by
  have hab := congrArg (fun o ↦ o.bind fun t ↦ run step t es) (h s hs)
  simpa only [run_cons, Option.bind_assoc] using hab

/-- One event is put in its place. -/
theorem run_orderedInsert (hinv : ∀ s e s', Inv s → step s e = some s' → Inv s') {x : ℕ × ε}
    {es : List (ℕ × ε)} (h : ∀ y ∈ es, y.1 < x.1 → Exchange step Inv x.2 y.2) {s : σ} (hs : Inv s) :
    run step s ((es.orderedInsert (fun x y ↦ x.1 ≤ y.1) x).map Prod.snd) =
      run step s ((x :: es).map Prod.snd) := by
  induction es generalizing s with
  | nil => rfl
  | cons y es ih =>
    rw [List.orderedInsert_cons]
    split
    · rfl
    · rename_i hle
      -- `y` overtakes `x`, so the two are exchanged first.
      have hxy : Exchange step Inv x.2 y.2 := h y List.mem_cons_self (Nat.lt_of_not_le hle)
      have hrest : ∀ z ∈ es, z.1 < x.1 → Exchange step Inv x.2 z.2 :=
        fun z hz ↦ h z (List.mem_cons_of_mem _ hz)
      rw [List.map_cons, List.map_cons, List.map_cons, hxy.run_cons_cons hs, run_cons, run_cons]
      rcases hstep : step s y.2 with _ | t
      · rfl
      · rw [Option.bind_some, Option.bind_some, ih hrest (hinv s y.2 t hs hstep), List.map_cons]

/-- **Delays make no difference** where every event can be exchanged with those that overtake it. -/
theorem run_byDelay (hinv : ∀ s e s', Inv s → step s e = some s' → Inv s') {es : List (ℕ × ε)}
    (h : es.Pairwise fun x y ↦ y.1 < x.1 → Exchange step Inv x.2 y.2) {s : σ} (hs : Inv s) :
    run step s ((byDelay es).map Prod.snd) = run step s (es.map Prod.snd) := by
  induction es generalizing s with
  | nil => rfl
  | cons x es ih =>
    rw [List.pairwise_cons] at h
    have hx : ∀ y ∈ byDelay es, y.1 < x.1 → Exchange step Inv x.2 y.2 :=
      fun y hy ↦ h.1 y (mem_byDelay.mp hy)
    rw [byDelay, List.insertionSort_cons, ← byDelay, run_orderedInsert hinv hx hs, List.map_cons,
      List.map_cons, run_cons, run_cons]
    rcases hstep : step s x.2 with _ | t
    · rfl
    · rw [Option.bind_some, Option.bind_some, ih h.2 (hinv s x.2 t hs hstep)]

end Runs
