import Mathlib.Data.Nat.Notation
import Mathlib.Logic.Function.Basic

/-!
# Runs of a step function that can fail

A machine is a function `step : σ → ε → Option σ`; `none` says that the event is not possible, or
that handling it throws. A run feeds it a list of events.

Two rules carry most developments. `run_invariant` is the induction over a run that is known to
succeed. `run_simulates` starts from less: where an abstract machine that never fails is followed
step by step as long as an invariant of the abstract state holds, every run succeeds and follows it.

`Ensures` is what holds of the state that a step gives, if it gives one, and its rules follow the
way the step is written. A property of single steps is said of a whole run by `Along`. Where the
steps of a run meet a condition and an invariant gives a property under that condition, the property
holds along the run (`along_of_invariant`).
-/

namespace Runs

variable {σ ε τ : Type*} (step : σ → ε → Option σ)

def run (s : σ) : List ε → Option σ
  | [] => some s
  | e :: es => (step s e).bind fun s' ↦ run s' es

@[simp] theorem run_nil (s : σ) : run step s [] = some s := rfl

@[simp] theorem run_cons (s : σ) (e : ε) (es : List ε) :
    run step s (e :: es) = (step s e).bind fun s' ↦ run step s' es := rfl

theorem run_append (s : σ) (es es' : List ε) :
    run step s (es ++ es') = (run step s es).bind fun s' ↦ run step s' es' := by
  induction es generalizing s with
  | nil => rfl
  | cons e es ih =>
    rw [List.cons_append, run_cons, run_cons, Option.bind_assoc]
    exact congrArg _ (funext fun s' ↦ ih s')

variable {step} {es : List ε} {s : σ} (Inv : σ → Prop)

/-- **The invariant rule**: what every step keeps, a run keeps. -/
theorem run_invariant (hstep : ∀ s e s', Inv s → step s e = some s' → Inv s') {s s' : σ} (h : Inv s)
    (hrun : run step s es = some s') : Inv s' := by
  induction es generalizing s with
  | nil =>
    rw [run_nil, Option.some.injEq] at hrun
    exact hrun ▸ h
  | cons e es ih =>
    rw [run_cons, Option.bind_eq_some_iff] at hrun
    obtain ⟨t, ht, hrun⟩ := hrun
    exact ih (hstep s e t h ht) hrun

/-- **The simulation rule**: a machine that follows an abstract one step by step, as long as the
invariant of the abstract state holds, never fails and follows it over every run. -/
theorem run_simulates (abs : σ → τ) (f : τ → ε → τ) (Inv : τ → Prop)
    (hstep : ∀ s e, Inv (abs s) → ∃ s', step s e = some s' ∧ abs s' = f (abs s) e)
    (hinv : ∀ t e, Inv t → Inv (f t e)) (es : List ε) (h : Inv (abs s)) :
    ∃ s', run step s es = some s' ∧ abs s' = es.foldl f (abs s) ∧ Inv (abs s') := by
  induction es generalizing s with
  | nil => exact ⟨s, rfl, rfl, h⟩
  | cons e es ih =>
    obtain ⟨t, ht, habs⟩ := hstep s e h
    have hinv' : Inv (abs t) := habs ▸ hinv _ e h
    obtain ⟨s', hrun, hs', hinv''⟩ := ih hinv'
    refine ⟨s', by rw [run_cons, ht, Option.bind_some, hrun], ?_, hinv''⟩
    rw [hs', habs, List.foldl_cons]

/-! ## Outcomes -/

/-- What comes out has the property, if anything does. -/
def Ensures (P : σ → Prop) (o : Option σ) : Prop := ∀ ⦃s⦄, o = some s → P s

theorem Ensures.of_some {P : σ → Prop} (h : P s) : Ensures P (some s) := by
  rintro _ ⟨⟩
  exact h

theorem Ensures.of_none {P : σ → Prop} : Ensures P none := by
  rintro _ ⟨⟩

theorem Ensures.of_ite {P : σ → Prop} {c : Prop} [Decidable c] (h : c → P s) :
    Ensures P (if c then some s else none) := by
  split
  · rename_i hc
    exact .of_some (h hc)
  · exact .of_none

/-- What comes out behind a guard. -/
theorem Ensures.guard {P : σ → Prop} {c : Prop} [Decidable c] {o : Option σ}
    (h : c → Ensures P o) : Ensures P (if c then o else none) := by
  split
  · rename_i hc
    exact h hc
  · exact .of_none

theorem Ensures.guardNot {P : σ → Prop} {c : Prop} [Decidable c] {o : Option σ}
    (h : ¬c → Ensures P o) : Ensures P (if c then none else o) := by
  split
  · exact .of_none
  · rename_i hc
    exact h hc

theorem Ensures.bind {α : Type*} {P : σ → Prop} {o : Option α} {f : α → Option σ}
    (h : ∀ a, o = some a → Ensures P (f a)) : Ensures P (o.bind f) := by
  intro s hs
  obtain ⟨a, ha, hs⟩ := Option.bind_eq_some_iff.mp hs
  exact h a ha hs

theorem Ensures.map {α : Type*} {P : σ → Prop} {o : Option α} {f : α → σ}
    (h : ∀ a, o = some a → P (f a)) : Ensures P (o.map f) := by
  intro s hs
  obtain ⟨a, ha, rfl⟩ := Option.map_eq_some_iff.mp hs
  exact h a ha

/-! ## Properties of the steps of a run -/

variable (step) in
/-- Every step that the run takes has the property. -/
def Along (P : σ → ε → σ → Prop) (s : σ) : List ε → Prop
  | [] => True
  | e :: es => ∀ s', step s e = some s' → P s e s' ∧ Along P s' es

variable {P : σ → ε → σ → Prop}

theorem along_cons_of_eq {s t : σ} {e : ε}
    (h : step s e = some t) : Along step P s (e :: es) ↔ P s e t ∧ Along step P t es := by
  constructor
  · intro halong
    exact halong t h
  · intro halong t' ht'
    exact Option.some.inj (h.symm.trans ht') ▸ halong

instance decidableAlong {P : σ → ε → σ → Prop} [∀ s e s', Decidable (P s e s')] :
    (es : List ε) → (s : σ) → Decidable (Along step P s es)
  | [], _ => isTrue trivial
  | e :: es, s =>
    match h : step s e with
    | none => isTrue fun _ hs' ↦ nomatch h ▸ hs'
    | some t =>
      have : Decidable (Along step P t es) := decidableAlong es t
      decidable_of_iff (P s e t ∧ Along step P t es)
        ⟨fun hP _ hs' ↦ Option.some.inj (h.symm.trans hs') ▸ hP, fun hP ↦ hP t h⟩

theorem along_of_forall_mem
    (h : ∀ e ∈ es, ∀ s s', step s e = some s' → P s e s') : Along step P s es := by
  induction es generalizing s with
  | nil => trivial
  | cons e es ih =>
    intro t ht
    exact ⟨h e List.mem_cons_self s t ht, ih fun e' he' ↦ h e' (List.mem_cons_of_mem _ he')⟩

theorem along_and {P Q : σ → ε → σ → Prop} (hP : Along step P s es)
    (hQ : Along step Q s es) : Along step (fun s e s' ↦ P s e s' ∧ Q s e s') s es := by
  induction es generalizing s with
  | nil => trivial
  | cons e es ih =>
    intro t ht
    exact ⟨⟨(hP t ht).1, (hQ t ht).1⟩, ih (hP t ht).2 (hQ t ht).2⟩

/-- **The invariant rule for conditions**: an invariant that steps under a condition keep, and that
gives a property of such steps, carries the property along every run whose steps meet the
condition. -/
theorem along_of_invariant {C P : σ → ε → σ → Prop}
    (hstep : ∀ s e s', Inv s → C s e s' → step s e = some s' → Inv s' ∧ P s e s')
    (h : Inv s) (hC : Along step C s es) : Along step P s es := by
  induction es generalizing s with
  | nil => trivial
  | cons e es ih =>
    intro t ht
    obtain ⟨hCt, hCes⟩ := hC t ht
    obtain ⟨hinv, hP⟩ := hstep s e t h hCt ht
    exact ⟨hP, ih hinv hCes⟩

/-- The invariant rule for a run whose steps meet a condition. -/
theorem run_invariant_along {C : σ → ε → σ → Prop}
    (hstep : ∀ s e s', Inv s → C s e s' → step s e = some s' → Inv s') {s s' : σ}
    (h : Inv s) (hC : Along step C s es) (hrun : run step s es = some s') : Inv s' := by
  induction es generalizing s with
  | nil =>
    rw [run_nil, Option.some.injEq] at hrun
    exact hrun ▸ h
  | cons e es ih =>
    rw [run_cons, Option.bind_eq_some_iff] at hrun
    obtain ⟨t, ht, hrun⟩ := hrun
    obtain ⟨hCt, hCes⟩ := hC t ht
    exact ih (hstep s e t h hCt ht) hCes hrun

/-- **The rule for records**: a property of what a run leaves behind, which a step keeps if and only
if the step meets a condition. -/
theorem run_iff_along {G : σ → Prop} {C : σ → ε → Prop}
    (hstep : ∀ s e s', Inv s → step s e = some s' → Inv s' ∧ (G s' ↔ G s ∧ C s e))
    {s s' : σ} (h : Inv s) (hrun : run step s es = some s') :
    G s' ↔ G s ∧ Along step (fun s e _ ↦ C s e) s es := by
  induction es generalizing s with
  | nil =>
    rw [run_nil, Option.some.injEq] at hrun
    subst hrun
    exact (and_iff_left trivial).symm
  | cons e es ih =>
    rw [run_cons, Option.bind_eq_some_iff] at hrun
    obtain ⟨t, ht, hrun⟩ := hrun
    obtain ⟨hinv, hiff⟩ := hstep s e t h ht
    rw [ih hinv hrun, hiff, along_cons_of_eq ht, and_assoc]

/-- Properties that agree wherever an invariant holds agree along every run whose steps meet a
condition, if one of them keeps the invariant. -/
theorem along_congr_under {C P Q : σ → ε → σ → Prop}
    (hstep : ∀ s e s', Inv s → C s e s' → step s e = some s' →
      (P s e s' ↔ Q s e s') ∧ (Q s e s' → Inv s')) (h : Inv s) (hC : Along step C s es) :
    Along step P s es ↔ Along step Q s es := by
  constructor
  · intro hP
    refine along_of_invariant Inv (fun s e s' hs hCP ht ↦ ?_) h (along_and hC hP)
    obtain ⟨hiff, hkeeps⟩ := hstep s e s' hs hCP.1 ht
    exact ⟨hkeeps (hiff.mp hCP.2), hiff.mp hCP.2⟩
  · intro hQ
    refine along_of_invariant Inv (fun s e s' hs hCQ ht ↦ ?_) h (along_and hC hQ)
    obtain ⟨hiff, hkeeps⟩ := hstep s e s' hs hCQ.1 ht
    exact ⟨hkeeps hCQ.2, hiff.mpr hCQ.2⟩

theorem along_congr_of_keeps {P Q : σ → ε → σ → Prop}
    (hstep : ∀ s e s', Inv s → step s e = some s' → (P s e s' ↔ Q s e s') ∧ (Q s e s' → Inv s'))
    (h : Inv s) : Along step P s es ↔ Along step Q s es :=
  along_congr_under Inv (C := fun _ _ _ ↦ True) (fun s e s' hs _ ↦ hstep s e s' hs) h
    (along_of_forall_mem fun _ _ _ _ _ ↦ trivial)

theorem along_congr {P Q : σ → ε → σ → Prop}
    (hstep : ∀ s e s', Inv s → step s e = some s' → Inv s' ∧ (P s e s' ↔ Q s e s'))
    (h : Inv s) : Along step P s es ↔ Along step Q s es :=
  along_congr_of_keeps Inv
    (fun s e s' hs ht ↦ ⟨(hstep s e s' hs ht).2, fun _ ↦ (hstep s e s' hs ht).1⟩) h

/-- A machine that moves as another one does, for a property of the other one. -/
theorem along_comap {step' : τ → ε → Option τ} (abs : σ → τ)
    (hstep : ∀ s e, (step s e).map abs = step' (abs s) e) {P : τ → ε → τ → Prop} :
    Along step (fun s e s' ↦ P (abs s) e (abs s')) s es ↔ Along step' P (abs s) es := by
  induction es generalizing s with
  | nil => exact Iff.rfl
  | cons e es ih =>
    have habs := hstep s e
    constructor
    · intro h t' ht'
      rw [ht'] at habs
      obtain ⟨t, ht, rfl⟩ := Option.map_eq_some_iff.mp habs
      exact ⟨(h t ht).1, ih.mp (h t ht).2⟩
    · intro h t ht
      rw [ht, Option.map_some] at habs
      exact ⟨(h _ habs.symm).1, ih.mpr (h _ habs.symm).2⟩

theorem along_append {es es' : List ε} :
    Along step P s (es ++ es') ↔
      Along step P s es ∧ ∀ s', run step s es = some s' → Along step P s' es' := by
  induction es generalizing s with
  | nil =>
    constructor
    · intro h
      refine ⟨trivial, fun s' hs' ↦ ?_⟩
      rw [run_nil, Option.some.injEq] at hs'
      exact hs' ▸ h
    · intro h
      exact h.2 s rfl
  | cons e es ih =>
    constructor
    · intro h
      refine ⟨fun t ht ↦ ⟨(h t ht).1, (ih.mp (h t ht).2).1⟩, fun s' hs' ↦ ?_⟩
      rw [run_cons, Option.bind_eq_some_iff] at hs'
      obtain ⟨t, ht, hrun⟩ := hs'
      exact (ih.mp (h t ht).2).2 s' hrun
    · rintro ⟨h, h'⟩ t ht
      refine ⟨(h t ht).1, ih.mpr ⟨(h t ht).2, fun s' hs' ↦ h' s' ?_⟩⟩
      rw [run_cons, ht, Option.bind_some, hs']

/-- The property of the `n`th step of a run. -/
theorem along_getElem {e : ε} {s t t' : σ}
    (h : Along step P s es) (n : ℕ) (he : es[n]? = some e) (hrun : run step s (es.take n) = some t)
    (hstep : step t e = some t') : P t e t' := by
  obtain ⟨hn, rfl⟩ := List.getElem?_eq_some_iff.mp he
  rw [← List.take_append_drop n es, List.drop_eq_getElem_cons hn] at h
  obtain ⟨hP, -⟩ := (along_append.mp h).2 t hrun t' hstep
  exact hP

/-! ## The past of a run -/

variable (step) in
/-- The run comes through a state with the property. -/
def Passes (P : σ → Prop) (s : σ) (es : List ε) : Prop :=
  ∃ es₁ es₂ t, es = es₁ ++ es₂ ∧ run step s es₁ = some t ∧ P t

theorem Passes.append {P : σ → Prop} (h : Passes step P s es)
    (es' : List ε) : Passes step P s (es ++ es') := by
  obtain ⟨es₁, es₂, t, rfl, hrun, ht⟩ := h
  exact ⟨es₁, es₂ ++ es', t, List.append_assoc .., hrun, ht⟩

theorem passes_of_run {P : σ → Prop} {s t : σ} (hrun : run step s es = some t)
    (ht : P t) : Passes step P s es :=
  ⟨es, [], t, (List.append_nil es).symm, hrun, ht⟩

/-- **The invariant rule with the past**: an invariant may speak of the run that has led to a state.
-/
theorem run_history (Inv : List ε → σ → Prop) (h : Inv [] s)
    (hstep : ∀ es t e t', run step s es = some t → Inv es t → step t e = some t' →
      Inv (es ++ [e]) t') {s' : σ} (hrun : run step s es = some s') : Inv es s' := by
  have hfrom : ∀ es₁ t, run step s es₁ = some t → Inv es₁ t → run step t es = some s' →
      Inv (es₁ ++ es) s' := by
    clear hrun
    induction es with
    | nil =>
      intro es₁ t _ ht hnil
      rw [List.append_nil]
      exact Option.some.inj hnil ▸ ht
    | cons e es ih =>
      intro es₁ t hes₁ ht hcons
      rw [run_cons, Option.bind_eq_some_iff] at hcons
      obtain ⟨t', ht', hes⟩ := hcons
      have hrun' : run step s (es₁ ++ [e]) = some t' := by
        rw [run_append, hes₁, Option.bind_some, run_cons, ht', Option.bind_some, run_nil]
      rw [List.append_cons]
      exact ih (es₁ ++ [e]) t' hrun' (hstep es₁ t e t' hes₁ ht ht') hes
  exact hfrom [] s rfl h hrun

/-- Where a property fails along a run, a step of the run fails it. -/
theorem exists_of_not_along (h : ¬ Along step P s es) :
    ∃ es₁ e es₂ t t', es = es₁ ++ e :: es₂ ∧ run step s es₁ = some t ∧ step t e = some t' ∧
      ¬ P t e t' := by
  induction es generalizing s with
  | nil => exact absurd trivial h
  | cons e es ih =>
    rw [Along] at h
    simp only [not_forall] at h
    obtain ⟨t, ht, h⟩ := h
    rcases Classical.em (P s e t) with hP | hP
    · obtain ⟨es₁, e', es₂, u, u', rfl, hrun, hstep, hnot⟩ := ih fun hes ↦ h ⟨hP, hes⟩
      refine ⟨e :: es₁, e', es₂, u, u', rfl, ?_, hstep, hnot⟩
      rw [run_cons, ht, Option.bind_some, hrun]
    · exact ⟨[], e, es, s, t, rfl, rfl, ht, hP⟩

/-- A fold that acts on each component by itself. -/
theorem foldl_apply {ι : Type*} {τ : ι → Type*} (f : (i : ι) → τ i → ε → τ i) (es : List ε)
    (t : (i : ι) → τ i) (i : ι) :
    es.foldl (fun t e i ↦ f i (t i) e) t i = es.foldl (f i) (t i) := by
  induction es generalizing t with
  | nil => rfl
  | cons e es ih => exact ih _

end Runs
