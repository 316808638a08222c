import Mathlib.Data.Nat.Notation
import Mathlib.Data.List.Basic

/-!
# A limiter that counts the attempts of a window

The first attempt starts a window. The first `m` attempts of a window are allowed, and the first one
behind its end is allowed and starts the next. When a window ends may depend on how many attempts
there were in it, denied ones included. All that the bound needs is that a window lasts for `w` at
least: then a closed period of length `L` meets at most `L / w + 2` windows (`countP_allowed_le`).

An attempt that finds a window over does as if there were none (`attempt_of_stale`), so that old
windows may be forgotten.
-/

namespace RateWindow

structure Window where
  attempts : ℕ
  start : ℕ
  deriving DecidableEq

variable (expired : Window → ℕ → Bool) (m : ℕ)

/-- The window behind an attempt, and whether it is allowed. -/
def attempt (x : Option Window) (now : ℕ) : Window × Bool :=
  match x with
  | none => (⟨1, now⟩, true)
  | some x =>
    if expired x now then (⟨1, now⟩, true)
    else (⟨x.attempts + 1, x.start⟩, x.attempts + 1 ≤ m)

/-- The times of the attempts that are allowed. -/
def allowed : Option Window → List ℕ → List ℕ
  | _, [] => []
  | x, now :: times =>
    if (attempt expired m x now).2 then now :: allowed (some (attempt expired m x now).1) times
    else allowed (some (attempt expired m x now).1) times

variable {expired m} {w t u : ℕ} {x : Option Window} {y : Window} {now : ℕ} {times : List ℕ}

theorem attempt_of_stale (h : ∀ y ∈ x, expired y now = true) :
    attempt expired m x now = (⟨1, now⟩, true) := by
  rcases x with _ | y
  · rfl
  · exact if_pos (h y rfl)

theorem allowed_sublist : (allowed expired m x times).Sublist times := by
  induction times generalizing x with
  | nil => exact List.Sublist.refl _
  | cons now times ih =>
    rw [allowed]
    split
    · exact ih.cons_cons now
    · exact ih.cons now

/-- What is counted from one attempt on. -/
theorem countP_allowed_cons {p : ℕ → Bool} :
    (allowed expired m x (now :: times)).countP p =
      (if (attempt expired m x now).2 && p now then 1 else 0) +
        (allowed expired m (some (attempt expired m x now).1) times).countP p := by
  rw [allowed]
  split
  · rename_i hallowed
    rw [List.countP_cons, hallowed, Bool.true_and, Nat.add_comm]
  · rename_i hdenied
    rw [Bool.not_eq_true] at hdenied
    rw [hdenied, Bool.false_and, if_neg Bool.false_ne_true, Nat.zero_add]

theorem countP_allowed_of_late (h : ∀ time ∈ times, u < time) :
    (allowed expired m x times).countP (· ≤ u) = 0 := by
  rw [List.countP_eq_zero]
  intro time htime
  rw [decide_eq_true_eq, Nat.not_le]
  exact h time (allowed_sublist.subset htime)

theorem late_of_sorted (hsorted : (now :: times).Pairwise (· ≤ ·)) (hu : ¬ now ≤ u) :
    ∀ time ∈ now :: times, u < time := by
  intro time htime
  rcases List.mem_cons.mp htime with rfl | htime
  · exact Nat.lt_of_not_le hu
  · exact Nat.lt_of_lt_of_le (Nat.lt_of_not_le hu) ((List.pairwise_cons.mp hsorted).1 time htime)

section Bound

variable (hexpired : ∀ y now, expired y now = true → y.start + w ≤ now) (hw : 0 < w) (hm : 1 ≤ m)

include hexpired hw hm

/-- Up to `u`, a window has what is left of its own attempts, and those of the windows that start at
least `w` later, one after another. -/
theorem countP_allowed_le_of_window (hsorted : times.Pairwise (· ≤ ·)) :
    (allowed expired m (some y) times).countP (· ≤ u) ≤
      (m - y.attempts) + (u - y.start) / w * m := by
  induction times generalizing y with
  | nil => exact Nat.zero_le _
  | cons now times ih =>
    have hcons := List.pairwise_cons.mp hsorted
    by_cases hu : now ≤ u
    · rw [countP_allowed_cons, decide_eq_true hu, Bool.and_true]
      by_cases hend : expired y now = true
      · have hattempt : attempt expired m (some y) now = (⟨1, now⟩, true) := if_pos hend
        -- a new window starts at least `w` later, which pays for its `m` attempts
        have hnext : (u - now) / w + 1 ≤ (u - y.start) / w := by
          rw [← Nat.add_div_right _ hw]
          have hstart := hexpired y now hend
          exact Nat.div_le_div_right (by omega)
        have hih := ih (y := ⟨1, now⟩) hcons.2
        rw [hattempt, if_pos rfl]
        calc 1 + (allowed expired m (some ⟨1, now⟩) times).countP (· ≤ u)
            ≤ 1 + (m - 1 + (u - now) / w * m) := Nat.add_le_add_left hih 1
          _ = ((u - now) / w + 1) * m := by
            rw [Nat.add_mul, Nat.one_mul]
            omega
          _ ≤ (u - y.start) / w * m := Nat.mul_le_mul_right m hnext
          _ ≤ m - y.attempts + (u - y.start) / w * m := Nat.le_add_left _ _
      · have hattempt : attempt expired m (some y) now =
            (⟨y.attempts + 1, y.start⟩, decide (y.attempts + 1 ≤ m)) := if_neg hend
        have hih := ih (y := ⟨y.attempts + 1, y.start⟩) hcons.2
        rw [hattempt]
        dsimp only at hih ⊢
        split
        · rename_i hle
          rw [decide_eq_true_eq] at hle
          omega
        · omega
    · rw [countP_allowed_of_late (late_of_sorted hsorted hu)]
      exact Nat.zero_le _

/-- From `t` to `u`, where the first attempt of the period starts a window. -/
theorem countP_allowed_le_of_starts (hsorted : (now :: times).Pairwise (· ≤ ·)) (ht : t ≤ now) :
    1 + (allowed expired m (some ⟨1, now⟩) times).countP (· ≤ u) ≤ m + (u - t) / w * m := by
  have hlater := countP_allowed_le_of_window (u := u) (y := ⟨1, now⟩) hexpired hw hm
    (List.pairwise_cons.mp hsorted).2
  have hperiod : (u - now) / w * m ≤ (u - t) / w * m :=
    Nat.mul_le_mul_right m (Nat.div_le_div_right (Nat.sub_le_sub_left ht u))
  dsimp only at hlater
  omega

/-- From `t` to `u`, a window has what is left of its attempts until the first window starts. -/
theorem countP_allowed_le_of_le (hsorted : times.Pairwise (· ≤ ·)) (ht : ∀ time ∈ times, t ≤ time) :
    (allowed expired m (some y) times).countP (· ≤ u) ≤
      (m - y.attempts) + (m + (u - t) / w * m) := by
  induction times generalizing y with
  | nil => exact Nat.zero_le _
  | cons now times ih =>
    have hcons := List.pairwise_cons.mp hsorted
    by_cases hu : now ≤ u
    · rw [countP_allowed_cons, decide_eq_true hu, Bool.and_true]
      by_cases hend : expired y now = true
      · have hattempt : attempt expired m (some y) now = (⟨1, now⟩, true) := if_pos hend
        rw [hattempt, if_pos rfl]
        exact Nat.le_trans
          (countP_allowed_le_of_starts hexpired hw hm hsorted (ht now List.mem_cons_self))
          (Nat.le_add_left _ _)
      · have hattempt : attempt expired m (some y) now =
            (⟨y.attempts + 1, y.start⟩, decide (y.attempts + 1 ≤ m)) := if_neg hend
        have hih := ih (y := ⟨y.attempts + 1, y.start⟩) hcons.2
          fun time htime ↦ ht time (List.mem_cons_of_mem _ htime)
        rw [hattempt]
        dsimp only at hih ⊢
        split
        · rename_i hle
          rw [decide_eq_true_eq] at hle
          omega
        · omega
    · rw [countP_allowed_of_late (late_of_sorted hsorted hu)]
      exact Nat.zero_le _

/-- **The bound**: what is allowed in the period from `t` to `u`. -/
theorem countP_allowed_le (hsorted : times.Pairwise (· ≤ ·)) :
    (allowed expired m x times).countP (fun time ↦ t ≤ time ∧ time ≤ u) ≤
      ((u - t) / w + 2) * m := by
  induction times generalizing x with
  | nil => exact Nat.zero_le _
  | cons now times ih =>
    have hcons := List.pairwise_cons.mp hsorted
    -- What is before `t` is not counted, and behind the first attempt that is, all are.
    by_cases ht : t ≤ now
    · have hall : ∀ time ∈ now :: times, t ≤ time := by
        intro time htime
        rcases List.mem_cons.mp htime with rfl | htime
        · exact ht
        · exact Nat.le_trans ht (hcons.1 time htime)
      have hcount : (allowed expired m x (now :: times)).countP
          (fun time ↦ t ≤ time ∧ time ≤ u) =
            (allowed expired m x (now :: times)).countP (· ≤ u) := by
        refine List.countP_congr fun time htime ↦ ?_
        rw [decide_eq_true_eq, decide_eq_true_eq]
        exact and_iff_right (hall time (allowed_sublist.subset htime))
      rw [hcount, Nat.add_mul, Nat.two_mul]
      rcases x with _ | y
      · by_cases hu : now ≤ u
        · rw [countP_allowed_cons, decide_eq_true hu]
          have hstarts := countP_allowed_le_of_starts (u := u) hexpired hw hm hsorted ht
          change 1 + (allowed expired m (some ⟨1, now⟩) times).countP (· ≤ u) ≤ _
          omega
        · rw [countP_allowed_of_late (late_of_sorted hsorted hu)]
          exact Nat.zero_le _
      · have hle := countP_allowed_le_of_le (u := u) (y := y) hexpired hw hm hsorted hall
        omega
    · rw [countP_allowed_cons, decide_eq_false fun h ↦ ht h.1, Bool.and_false,
        if_neg Bool.false_ne_true, Nat.zero_add]
      exact ih hcons.2

end Bound

end RateWindow
