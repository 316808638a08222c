import Mathlib.Algebra.Order.Group.Unbundled.Basic
import Mathlib.Algebra.Order.Monoid.Defs
import Mathlib.Data.List.Basic

/-!
# A limiter that keeps the times of a sliding window

The limiter keeps the times of what it allowed, oldest first. At an event it drops those that lie
before the window that ends now, and allows the event if fewer than `m` are left.

What is dropped lies before every window that ends later. So as long as the clock does not go back,
what is kept and the whole history have the same times in such windows (`Tracks.recent`), and no
window of the history has more than `m` (`Tracks.limited`). An event at the very start of the window
still counts, here and in the bound.
-/

namespace SlidingWindow

variable {T : Type*} [LinearOrder T]

/-- The times of a history that are not before a cutoff. -/
def since (cutoff : T) (times : List T) : List T := times.filter (cutoff ≤ ·)

theorem dropWhile_eq_since {times : List T} (h : times.Pairwise (· ≤ ·)) (cutoff : T) :
    times.dropWhile (· < cutoff) = since cutoff times := by
  induction times with
  | nil => rfl
  | cons u times ih =>
    have hcons := List.pairwise_cons.mp h
    by_cases hu : u < cutoff
    · rw [List.dropWhile_cons_of_pos (by simpa using hu), ih hcons.2, since, since,
        List.filter_cons_of_neg (by simpa using hu)]
    · rw [List.dropWhile_cons_of_neg (by simpa using hu), since, eq_comm, List.filter_eq_self]
      intro v hv
      rw [decide_eq_true_eq]
      rcases List.mem_cons.mp hv with rfl | hv
      · exact not_lt.mp hu
      · exact (not_lt.mp hu).trans (hcons.1 v hv)

theorem since_since {cutoff cutoff' : T} (h : cutoff ≤ cutoff') (times : List T) :
    since cutoff' (since cutoff times) = since cutoff' times := by
  rw [since, since, since, List.filter_filter]
  refine List.filter_congr fun u _ ↦ ?_
  by_cases hu : cutoff' ≤ u
  · simp [hu, h.trans hu]
  · simp [hu]

variable [AddCommGroup T]

/-- What is left of the kept times at `now`. -/
def evict (w : T) (kept : List T) (now : T) : List T := kept.dropWhile (· < now - w)

/-- What is kept behind an event at `now`, and whether the event is allowed. -/
def check (w : T) (m : ℕ) (kept : List T) (now : T) : List T × Bool :=
  if m ≤ (evict w kept now).length then (evict w kept now, false)
  else (evict w kept now ++ [now], true)

/-- How many of the times are in the window from `t` to `t + w`, both ends included. -/
def inWindow (w : T) (times : List T) (t : T) : ℕ := times.countP fun u ↦ t ≤ u ∧ u ≤ t + w

/-- What is kept is enough for all events from `now` on. -/
structure Tracks (w : T) (m : ℕ) (now : T) (history kept : List T) : Prop where
  sorted : history.Pairwise (· ≤ ·)
  le_now : ∀ u ∈ history, u ≤ now
  sublist : kept.Sublist history
  recent : since (now - w) kept = since (now - w) history
  limited : ∀ t, inWindow w history t ≤ m

variable {w now now' t : T} {m : ℕ} {history kept : List T}

theorem inWindow_append (w : T) (times times' : List T) (t : T) :
    inWindow w (times ++ times') t = inWindow w times t + inWindow w times' t :=
  List.countP_append

theorem tracks_nil (w : T) (m : ℕ) (now : T) : Tracks w m now [] [] where
  sorted := List.Pairwise.nil
  le_now := fun _ hu ↦ absurd hu List.not_mem_nil
  sublist := List.Sublist.refl _
  recent := rfl
  limited := fun _ ↦ Nat.zero_le m

section

variable (h : Tracks w m now history kept)
include h

theorem Tracks.evict_eq :
    evict w kept now = since (now - w) history := by
  rw [evict, dropWhile_eq_since (h.sorted.sublist h.sublist), h.recent]

/-- The window that ends now has what is since its start. -/
theorem Tracks.inWindow_now :
    inWindow w history (now - w) = (evict w kept now).length := by
  rw [h.evict_eq, since, ← List.countP_eq_length_filter, inWindow]
  refine List.countP_congr fun u hu ↦ ?_
  rw [decide_eq_true_eq, decide_eq_true_eq, sub_add_cancel]
  exact and_iff_left (h.le_now u hu)

/-- **When an event is denied**: the window that ends with it is full. -/
theorem Tracks.denied_iff : (check w m kept now).2 = false ↔ inWindow w history (now - w) = m := by
  have hle := h.limited (now - w)
  rw [h.inWindow_now] at hle ⊢
  rw [check]
  split
  · rename_i hfull
    exact iff_of_true rfl (Nat.le_antisymm hle hfull)
  · rename_i hfree
    exact iff_of_false Bool.noConfusion fun heq ↦ hfree heq.ge

end

variable [IsOrderedAddMonoid T]

section

variable (h : Tracks w m now history kept)
include h

/-- Time may pass. -/
theorem Tracks.mono (hnow : now ≤ now') :
    Tracks w m now' history kept where
  sorted := h.sorted
  le_now := fun u hu ↦ (h.le_now u hu).trans hnow
  sublist := h.sublist
  recent := by
    have hcutoff : now - w ≤ now' - w := sub_le_sub_right hnow w
    rw [← since_since hcutoff, h.recent, since_since hcutoff]
  limited := h.limited

/-- A window that an event falls into begins behind the cutoff of the event. -/
theorem Tracks.inWindow_lt
    (hfree : ¬ m ≤ (evict w kept now).length) (ht : now ≤ t + w) : inWindow w history t < m := by
  refine lt_of_le_of_lt ?_ (Nat.lt_of_not_le hfree)
  rw [← h.inWindow_now]
  refine List.countP_mono_left fun u hu hmem ↦ ?_
  rw [decide_eq_true_eq] at hmem ⊢
  rw [sub_add_cancel]
  exact ⟨(sub_le_iff_le_add.mpr ht).trans hmem.1, h.le_now u hu⟩

/-- **The step**: what is kept tracks the history with the event, if it was allowed. -/
theorem Tracks.check :
    Tracks w m now (history ++ if (check w m kept now).2 then [now] else [])
      (check w m kept now).1 := by
  have hsince : since (now - w) (evict w kept now) = since (now - w) history := by
    rw [h.evict_eq, since_since le_rfl]
  have hevict : (evict w kept now).Sublist history := h.evict_eq ▸ List.filter_sublist
  rw [SlidingWindow.check]
  split
  · rw [if_neg Bool.false_ne_true, List.append_nil]
    exact ⟨h.sorted, h.le_now, hevict, hsince, h.limited⟩
  · rename_i hfree
    rw [if_pos rfl]
    refine ⟨?_, ?_, hevict.append_right [now], ?_, fun t ↦ ?_⟩
    · rw [List.pairwise_append]
      refine ⟨h.sorted, List.pairwise_singleton _ _, fun u hu v hv ↦ ?_⟩
      rw [List.mem_singleton.mp hv]
      exact h.le_now u hu
    · intro u hu
      rcases List.mem_append.mp hu with hu | hu
      · exact h.le_now u hu
      · exact (List.mem_singleton.mp hu).le
    · rw [since, since, List.filter_append, List.filter_append]
      exact congrArg (· ++ _) hsince
    · rw [inWindow_append]
      by_cases ht : t ≤ now ∧ now ≤ t + w
      · have hlt := h.inWindow_lt hfree ht.2
        have hone : inWindow w [now] t ≤ 1 := List.countP_le_length
        omega
      · have hzero : inWindow w [now] t = 0 := by
          rw [inWindow, List.countP_singleton, if_neg (by simpa using ht)]
        rw [hzero, Nat.add_zero]
        exact h.limited t

end

end SlidingWindow
