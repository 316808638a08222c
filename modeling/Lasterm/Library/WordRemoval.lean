import Mathlib.Data.List.Infix
import Mathlib.Data.Nat.Notation

/-!
# Taking a word out of a text

`remove` goes through a text once and leaves out every occurrence of a word. The word begins with a
letter that it has nowhere else, so that occurrences do not overlap: what is left are the letters
that no occurrence covers (`remove_eq_uncovered`).

A text may come in parts, of which each is treated by itself. Then an occurrence that begins in one
part and ends in a later one stays, and nothing else is different (`flatten_map_remove_iff`). And
the word may be in the text again when its occurrences are out, exactly if it was in it with whole
occurrences between its letters (`infix_remove_iff`).
-/

namespace WordRemoval

variable {α : Type*} {c : α} {w : List α}

/-! ## The letters of a word -/

/-- An occurrence of the word covers the place `i`. -/
def Covered (c : α) (w text : List α) (i : ℕ) : Prop :=
  ∃ j ≤ i, i < j + (c :: w).length ∧ c :: w <+: text.drop j

open Classical in
/-- The letters that no occurrence of the word covers. -/
noncomputable def uncovered (c : α) (w text : List α) : List α :=
  (List.range text.length).filterMap fun i ↦ if Covered c w text i then none else text[i]?

theorem covered_cons {b : α} {text : List α} (h : ¬(c :: w <+: b :: text)) (i : ℕ) :
    Covered c w (b :: text) (i + 1) ↔ Covered c w text i := by
  constructor
  · rintro ⟨j, hj, hi, hpre⟩
    cases j with
    | zero => exact absurd hpre h
    | succ j => exact ⟨j, Nat.le_of_succ_le_succ hj, by omega, hpre⟩
  · rintro ⟨j, hj, hi, hpre⟩
    exact ⟨j + 1, Nat.succ_le_succ hj, by omega, hpre⟩

/-- The word does not overlap with itself. -/
theorem covered_word (hc : c ∉ w) (text : List α) (i : ℕ) :
    Covered c w (c :: w ++ text) ((c :: w).length + i) ↔ Covered c w text i := by
  constructor
  · rintro ⟨j, hj, hi, hpre⟩
    by_cases hlt : j < (c :: w).length
    · exfalso
      obtain ⟨j, rfl⟩ := Nat.exists_eq_succ_of_ne_zero (show j ≠ 0 by omega)
      rw [List.cons_append, Nat.succ_eq_add_one, List.drop_succ_cons, List.drop_append_of_le_length
        (by rw [List.length_cons] at hlt; omega)] at hpre
      have hne : w.drop j ≠ [] := by
        rw [Ne, List.drop_eq_nil_iff]
        rw [List.length_cons] at hlt
        omega
      obtain ⟨b, rest, hdrop⟩ := List.exists_cons_of_ne_nil hne
      rw [hdrop] at hpre
      obtain ⟨rfl, -⟩ := List.cons_prefix_cons.mp hpre
      exact hc (List.mem_of_mem_drop (hdrop ▸ List.mem_cons_self))
    · obtain ⟨j, rfl⟩ := Nat.exists_eq_add_of_le (Nat.le_of_not_lt hlt)
      rw [List.drop_append, Nat.add_sub_cancel_left, List.drop_eq_nil_of_le (Nat.le_add_right _ _)]
        at hpre
      exact ⟨j, by omega, by omega, hpre⟩
  · rintro ⟨j, hj, hi, hpre⟩
    refine ⟨(c :: w).length + j, by omega, by omega, ?_⟩
    rwa [List.drop_append, Nat.add_sub_cancel_left, List.drop_eq_nil_of_le (Nat.le_add_right _ _)]

/-! ## Removing -/

variable [DecidableEq α]

/-- Leave out the word `c :: w`. -/
def remove (c : α) (w : List α) : List α → List α
  | [] => []
  | b :: rest =>
    if b = c ∧ w <+: rest then remove c w (rest.drop w.length) else b :: remove c w rest
termination_by text => text.length
decreasing_by all_goals simp; try omega

@[simp] theorem remove_nil : remove c w [] = [] := by rw [remove]

@[simp] theorem remove_word (text : List α) : remove c w (c :: w ++ text) = remove c w text := by
  rw [List.cons_append, remove, if_pos ⟨rfl, List.prefix_append _ _⟩, List.drop_left]

theorem remove_cons {b : α} {text : List α} (h : ¬(c :: w <+: b :: text)) :
    remove c w (b :: text) = b :: remove c w text := by
  rw [remove, if_neg]
  rintro ⟨rfl, hpre⟩
  exact h (List.cons_prefix_cons.mpr ⟨rfl, hpre⟩)

theorem remove_cons_of_ne {b : α} (hb : b ≠ c) (text : List α) :
    remove c w (b :: text) = b :: remove c w text :=
  remove_cons fun h ↦ hb (List.cons_prefix_cons.mp h).1.symm

theorem remove_replicate (k : ℕ) (text : List α) :
    remove c w ((List.replicate k (c :: w)).flatten ++ text) = remove c w text := by
  induction k with
  | zero => rfl
  | succ k ih => rw [List.replicate_succ, List.flatten_cons, List.append_assoc, remove_word, ih]

/-- The induction that follows `remove`. -/
theorem remove_induction {P : List α → Prop} (c : α) (w : List α) (nil : P [])
    (word : ∀ text, P text → P (c :: w ++ text))
    (letter : ∀ b text, ¬(c :: w <+: b :: text) → P text → P (b :: text)) (text : List α) :
    P text := by
  fun_induction remove c w text with
  | case1 => exact nil
  | case2 b rest h ih =>
    obtain ⟨rfl, text, rfl⟩ := h
    rw [List.drop_left] at ih
    exact word text ih
  | case3 b rest h ih =>
    exact letter b rest (fun hpre ↦ h ((List.cons_prefix_cons.mp hpre).imp_left Eq.symm)) ih

open Classical in
theorem remove_eq_uncovered (hc : c ∉ w) (text : List α) :
    remove c w text = uncovered c w text := by
  induction text using remove_induction c w with
  | nil => rw [remove_nil]; rfl
  | word text ih =>
    -- The letters of the occurrence are covered, and those behind it are as they were without it.
    have hcovered : ∀ i < (c :: w).length, Covered c w (c :: w ++ text) i := fun i hi ↦
      ⟨0, Nat.zero_le i, by omega, List.prefix_append _ _⟩
    rw [remove_word, ih, uncovered, uncovered, List.length_append, List.range_add,
      List.filterMap_append, List.filterMap_map]
    have hnone : (List.range (c :: w).length).filterMap
        (fun i ↦ if Covered c w (c :: w ++ text) i then none else (c :: w ++ text)[i]?) = [] := by
      rw [List.filterMap_eq_nil_iff]
      exact fun i hi ↦ if_pos (hcovered i (List.mem_range.mp hi))
    rw [hnone, List.nil_append]
    refine List.filterMap_congr fun i _ ↦ ?_
    rw [Function.comp_apply, if_congr (covered_word hc text i) rfl rfl,
      List.getElem?_append_right (Nat.le_add_right _ _), Nat.add_sub_cancel_left]
  | letter b text h ih =>
    have hzero : ¬Covered c w (b :: text) 0 := by
      rintro ⟨j, hj, -, hpre⟩
      rw [Nat.le_zero.mp hj] at hpre
      exact h hpre
    rw [remove_cons h, ih, uncovered, uncovered, List.length_cons, List.range_succ_eq_map,
      List.filterMap_cons_some (b := b) (by rw [if_neg hzero, List.getElem?_cons_zero]),
      List.filterMap_map]
    refine congrArg _ (List.filterMap_congr fun i _ ↦ ?_)
    rw [Function.comp_apply, Nat.succ_eq_add_one, if_congr (covered_cons h i) rfl rfl,
      List.getElem?_cons_succ]

theorem remove_eq_self {text : List α} (h : ¬(c :: w <:+: text)) : remove c w text = text := by
  induction text with
  | nil => exact remove_nil
  | cons b text ih =>
    rw [List.infix_cons_iff, not_or] at h
    rw [remove_cons h.1, ih h.2]

theorem remove_append_of_notMem {x : List α} (hx : c ∉ x) (y : List α) :
    remove c w (x ++ y) = x ++ remove c w y := by
  induction x with
  | nil => rfl
  | cons b x ih =>
    rw [List.mem_cons, not_or] at hx
    rw [List.cons_append, remove_cons_of_ne (Ne.symm hx.1), ih hx.2, List.cons_append]

/-! ## A text in parts -/

/-- An occurrence begins in `x` and ends in `y`. -/
def Straddles (c : α) (w x y : List α) : Prop :=
  ∃ a b, b ≠ [] ∧ a ++ b = w ∧ c :: a <:+ x ∧ b <+: y

/-- An occurrence begins in one part and ends in a later one. -/
def Straddled (c : α) (w : List α) : List (List α) → Prop
  | [] => False
  | x :: rest => Straddles c w x rest.flatten ∨ Straddled c w rest

omit [DecidableEq α] in
theorem Straddles.append_left {x y : List α} (h : Straddles c w x y) (z : List α) :
    Straddles c w (z ++ x) y := by
  obtain ⟨a, b, hb, hab, hx, hy⟩ := h
  exact ⟨a, b, hb, hab, hx.trans (List.suffix_append z x), hy⟩

omit [DecidableEq α] in
/-- What begins with the first letter does not end a word. -/
theorem not_straddles_cons (hc : c ∉ w) (x y : List α) : ¬Straddles c w x (c :: y) := by
  rintro ⟨a, b, hb, rfl, -, hy⟩
  obtain ⟨d, b, rfl⟩ := List.exists_cons_of_ne_nil hb
  obtain ⟨rfl, -⟩ := List.cons_prefix_cons.mp hy
  exact hc (List.mem_append_right a List.mem_cons_self)

theorem remove_append {x y : List α} (h : ¬Straddles c w x y) :
    remove c w (x ++ y) = remove c w x ++ remove c w y := by
  induction x using remove_induction c w with
  | nil => rw [remove_nil, List.nil_append, List.nil_append]
  | word text ih =>
    rw [List.append_assoc, remove_word, remove_word]
    exact ih fun hs ↦ h (hs.append_left _)
  | letter b text hb ih =>
    have hnot : ¬(c :: w <+: b :: (text ++ y)) := by
      intro hpre
      rcases List.prefix_or_prefix_of_prefix hpre (List.prefix_append (b :: text) y) with hle | hle
      · exact hb hle
      · -- the letters of `b :: text` begin the word, and `y` has the others
        obtain ⟨rest, hrest⟩ := hle
        refine h ⟨text, rest, ?_, (List.cons_eq_cons.mp hrest).2, ?_, ?_⟩
        · rintro rfl
          rw [← hrest, List.append_nil] at hb
          exact hb (List.prefix_refl _)
        · rw [(List.cons_eq_cons.mp hrest).1]
        · rw [← hrest] at hpre
          exact (List.prefix_append_right_inj (b :: text)).mp hpre
    rw [List.cons_append, remove_cons hnot, remove_cons hb, List.cons_append]
    exact congrArg _ (ih fun hs ↦ h (hs.append_left [b]))

/-- A straddling occurrence stays if the parts are treated by themselves. -/
theorem length_remove_append_lt (hc : c ∉ w) {x y : List α} (h : Straddles c w x y) :
    (remove c w (x ++ y)).length < (remove c w x ++ remove c w y).length := by
  obtain ⟨a, b, hne, rfl, ⟨x, rfl⟩, ⟨y, rfl⟩⟩ := h
  have ha : c ∉ a := fun hmem ↦ hc (List.mem_append_left b hmem)
  have hb : c ∉ b := fun hmem ↦ hc (List.mem_append_right a hmem)
  -- The text falls apart around the occurrence; by itself each part keeps its half.
  have hwhole : remove c (a ++ b) (x ++ c :: a ++ (b ++ y))
      = remove c (a ++ b) x ++ remove c (a ++ b) y := by
    rw [List.append_assoc, List.cons_append, remove_append (not_straddles_cons hc _ _),
      ← List.append_assoc a, ← List.cons_append, remove_word]
  have hbegin : remove c (a ++ b) (c :: a) = c :: a := by
    rw [remove_cons, ← List.append_nil a, remove_append_of_notMem ha, remove_nil]
    intro hpre
    have hlen := hpre.length_le
    have hpos := List.length_pos_of_ne_nil hne
    simp only [List.length_cons, List.length_append] at hlen
    omega
  rw [hwhole, remove_append (not_straddles_cons hc _ _), hbegin, remove_append_of_notMem hb]
  simp only [List.length_append, List.length_cons]
  omega

theorem length_remove_append_le (hc : c ∉ w) (x y : List α) :
    (remove c w (x ++ y)).length ≤ (remove c w x ++ remove c w y).length := by
  by_cases h : Straddles c w x y
  · exact (length_remove_append_lt hc h).le
  · exact Nat.le_of_eq (by rw [remove_append h])

theorem length_remove_flatten_le (hc : c ∉ w) (parts : List (List α)) :
    (remove c w parts.flatten).length ≤ (parts.map (remove c w)).flatten.length := by
  induction parts with
  | nil => exact Nat.le_of_eq (congrArg List.length remove_nil)
  | cons x rest ih =>
    have hle := length_remove_append_le hc x rest.flatten
    rw [List.length_append] at hle
    rw [List.flatten_cons, List.map_cons, List.flatten_cons, List.length_append]
    omega

/-- To treat the parts by themselves is to treat the text, unless an occurrence straddles. -/
theorem flatten_map_remove_iff (hc : c ∉ w) (parts : List (List α)) :
    (parts.map (remove c w)).flatten = remove c w parts.flatten ↔ ¬Straddled c w parts := by
  induction parts with
  | nil => exact iff_of_true remove_nil.symm not_false
  | cons x rest ih =>
    rw [List.map_cons, List.flatten_cons, List.flatten_cons, Straddled, not_or]
    by_cases h : Straddles c w x rest.flatten
    · refine iff_of_false (fun heq ↦ ?_) fun hnot ↦ hnot.1 h
      have hlt := length_remove_append_lt hc h
      have hle := length_remove_flatten_le hc rest
      rw [← heq, List.length_append, List.length_append] at hlt
      omega
    · rw [remove_append h, List.append_cancel_left_eq, ih]
      exact (and_iff_right h).symm

/-! ## A word out of two halves -/

/-- The letters `l` with any number of whole words before each. -/
inductive Padded (c : α) (w : List α) : List α → List α → Prop where
  | nil : Padded c w [] []
  | cons (k : ℕ) (b : α) {l text : List α} : Padded c w l text →
      Padded c w (b :: l) ((List.replicate k (c :: w)).flatten ++ b :: text)

/-- The letters of a word stand in the text, in order, with whole words and nothing else between
them. -/
def Interrupted (c : α) (w text : List α) : Prop := ∃ t, Padded c w w t ∧ t ≠ w ∧ c :: t <:+: text

theorem Padded.remove_append {l t : List α} (h : Padded c w l t) (hl : c ∉ l) (y : List α) :
    remove c w (t ++ y) = l ++ remove c w y := by
  induction h with
  | nil => rfl
  | @cons k b l text _ ih =>
    rw [List.mem_cons, not_or] at hl
    rw [List.append_assoc, remove_replicate, List.cons_append, remove_cons_of_ne (Ne.symm hl.1),
      ih hl.2, List.cons_append]

omit [DecidableEq α] in
/-- Only the letters themselves begin like the letters. -/
theorem Padded.eq_of_prefix {l t : List α} (h : Padded c w l t) (hl : c ∉ l) {y : List α}
    (hpre : l <+: t ++ y) : t = l := by
  induction h with
  | nil => rfl
  | @cons k b l text _ ih =>
    rw [List.mem_cons, not_or] at hl
    cases k with
    | zero =>
      rw [ih hl.2 (List.cons_prefix_cons.mp hpre).2]
      rfl
    | succ k =>
      rw [List.replicate_succ, List.flatten_cons] at hpre
      exact absurd (List.cons_prefix_cons.mp hpre).1.symm hl.1

/-- A letter that is left stood behind whole words. -/
theorem exists_of_remove_eq_cons {b : α} {s r : List α} (h : remove c w s = b :: r) :
    ∃ k s', s = (List.replicate k (c :: w)).flatten ++ b :: s' ∧ ¬(c :: w <+: b :: s') ∧
      remove c w s' = r := by
  induction s using remove_induction c w with
  | nil => rw [remove_nil] at h; cases h
  | word text ih =>
    rw [remove_word] at h
    obtain ⟨k, s', rfl, hb, hr⟩ := ih h
    refine ⟨k + 1, s', ?_, hb, hr⟩
    rw [List.replicate_succ, List.flatten_cons, List.append_assoc]
  | letter d text hd ih =>
    rw [remove_cons hd] at h
    obtain ⟨rfl, hr⟩ := List.cons_eq_cons.mp h
    exact ⟨0, text, rfl, hd, hr⟩

theorem exists_of_remove_eq_append {l s r : List α} (h : remove c w s = l ++ r) :
    ∃ t s', s = t ++ s' ∧ Padded c w l t ∧ remove c w s' = r := by
  induction l generalizing s with
  | nil => exact ⟨[], s, rfl, .nil, h⟩
  | cons b l ih =>
    obtain ⟨k, s', rfl, -, hr⟩ := exists_of_remove_eq_cons h
    obtain ⟨t, s', rfl, ht, hr⟩ := ih hr
    refine ⟨_, s', ?_, .cons k b ht, hr⟩
    rw [List.append_assoc, List.cons_append]

/-- When the occurrences are out, the word is in the text if it was interrupted by them. -/
theorem infix_remove_iff (hc : c ∉ w) (s : List α) :
    c :: w <:+: remove c w s ↔ Interrupted c w s := by
  constructor
  -- Each letter of the word that is left stood behind whole words.
  · rintro ⟨p, q, h⟩
    rw [List.append_assoc] at h
    obtain ⟨p, s, rfl, -, h⟩ := exists_of_remove_eq_append h.symm
    obtain ⟨k, s, rfl, hnot, h⟩ := exists_of_remove_eq_cons h
    obtain ⟨t, q, rfl, ht, -⟩ := exists_of_remove_eq_append h
    refine ⟨t, ht, ?_, p ++ (List.replicate k (c :: w)).flatten, q, ?_⟩
    · rintro rfl
      exact hnot (List.prefix_append (c :: t) q)
    · simp only [List.append_assoc, List.cons_append]
  · rintro ⟨t, ht, hne, p, q, rfl⟩
    refine ⟨remove c w p, remove c w q, ?_⟩
    have hnot : ¬(c :: w <+: c :: (t ++ q)) := fun hpre ↦
      hne (ht.eq_of_prefix hc (List.cons_prefix_cons.mp hpre).2)
    rw [List.append_assoc, List.append_assoc, List.cons_append, List.cons_append,
      remove_append (not_straddles_cons hc _ _), remove_cons hnot, ht.remove_append hc]

end WordRemoval
