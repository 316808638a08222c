import Mathlib.Data.List.Infix
import Mathlib.Data.Nat.Find
import Mathlib.Data.Set.Insert

/-!
# First occurrences

The first of some words in a text: the one that begins at no later place than any other
occurrence of one of them.
-/

/-- `word` is one of the words and stands between `front` and `back`, and no word of theirs begins
earlier. -/
structure FirstOccurrence {α : Type*} (words : Set (List α)) (text front word back : List α) :
    Prop where
  mem : word ∈ words
  eq : text = front ++ (word ++ back)
  le : ∀ w ∈ words, ∀ front' back', text = front' ++ (w ++ back') → front.length ≤ front'.length

namespace FirstOccurrence

variable {α : Type*} {words words' : Set (List α)}
  {text front front' word w back back' : List α} {c : α}

theorem exists_of_infix (h : w <:+: text) :
    ∃ front back, FirstOccurrence {w} text front w back := by
  classical
  obtain ⟨front, back, heq⟩ := h
  rw [List.append_assoc] at heq
  have hplace : ∃ n, ∃ front back, text = front ++ (w ++ back) ∧ front.length = n :=
    ⟨_, front, back, heq.symm, rfl⟩
  obtain ⟨front, back, heq, hlength⟩ := Nat.find_spec hplace
  refine ⟨front, back, rfl, heq, ?_⟩
  rintro _ rfl front' back' h
  rw [hlength]
  exact Nat.find_min' hplace ⟨front', back', h, rfl⟩

/-- The first of some words is the first of fewer. -/
theorem mono (h : FirstOccurrence words text front word back) (hsubset : words' ⊆ words)
    (hmem : word ∈ words') : FirstOccurrence words' text front word back :=
  ⟨hmem, h.eq, fun w hw ↦ h.le w (hsubset hw)⟩

theorem of_cons (h : FirstOccurrence words (c :: text) (c :: front) word back) :
    FirstOccurrence words text front word back := by
  refine ⟨h.mem, List.tail_eq_of_cons_eq h.eq, fun w hw front' back' heq ↦ ?_⟩
  have hle := h.le w hw (c :: front') back' (congrArg (c :: ·) heq)
  exact Nat.le_of_succ_le_succ hle

/-- Of two fronts of a text, the longer goes on with what is behind the other. -/
theorem exists_of_length_lt (heq : front ++ back = front' ++ back')
    (hlt : front'.length < front.length) :
    ∃ c y, front = front' ++ c :: y ∧ c :: (y ++ back) = back' := by
  obtain ⟨y, rfl⟩ : front' <+: front := List.prefix_of_prefix_length_le
    ⟨_, heq.symm⟩ (List.prefix_append _ _) (Nat.le_of_lt hlt)
  rw [List.append_assoc, List.append_cancel_left_eq] at heq
  cases y with
  | nil => exact absurd (congrArg List.length (List.append_nil front')) (Nat.ne_of_gt hlt)
  | cons c y => exact ⟨c, y, rfl, heq⟩

/-- The first occurrence of a letter. -/
theorem singleton (h : c ∉ front) (back : List α) :
    FirstOccurrence {[c]} (front ++ ([c] ++ back)) front [c] back := by
  refine ⟨rfl, rfl, ?_⟩
  rintro _ rfl front' back' heq
  by_contra hlt
  obtain ⟨d, y, rfl, htail⟩ := exists_of_length_lt heq (Nat.lt_of_not_le hlt)
  obtain rfl : d = c := List.head_eq_of_cons_eq htail
  exact h (List.mem_append_right _ List.mem_cons_self)

/-- No word begins in front of the first: another occurrence has all that is there in its front. -/
theorem prefix_front (h : FirstOccurrence words text front word back) (hw : w ∈ words)
    (heq : text = front' ++ (w ++ back')) : front <+: front' :=
  List.prefix_of_prefix_length_le ⟨_, h.eq.symm⟩ ⟨_, heq.symm⟩ (h.le w hw _ _ heq)

theorem not_infix_front (h : FirstOccurrence words text front word back) (hw : w ∈ words)
    (hne : w ≠ []) : ¬w <:+: front := by
  rintro ⟨s, t, rfl⟩
  have hle := h.le w hw s (t ++ (word ++ back)) (by simp only [h.eq, List.append_assoc])
  have hpos := List.length_pos_iff.mpr hne
  rw [List.length_append, List.length_append] at hle
  omega

end FirstOccurrence
