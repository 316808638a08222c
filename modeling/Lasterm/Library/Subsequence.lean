import Mathlib.Data.List.Forall2
import Mathlib.Data.List.Infix

/-!
# Words that stand in a text

A word may stand in a text in one piece, from a position on (`indexOf` is the first of these), or
with its letters in order and others between them. Of all the ways to take the letters in order, one
takes each of them as early as can be (`Leftmost`), and that is the way of a scan that takes every
letter at its first chance (`earliest`).
-/

namespace Subsequence

variable {α : Type*}

/-! ## In one piece -/

section Pieces

variable [DecidableEq α] {word text : List α} {i j : ℕ}

/-- The first position from which the word stands in the text. -/
def indexOf (word : List α) : List α → Option ℕ
  | [] => if word = [] then some 0 else none
  | c :: text => if word <+: c :: text then some 0 else (indexOf word text).map (· + 1)

theorem prefix_drop_of_indexOf (h : indexOf word text = some i) : word <+: text.drop i := by
  induction text generalizing i with
  | nil =>
    rw [indexOf, Option.ite_none_right_eq_some] at h
    rw [h.1]
    exact List.nil_prefix
  | cons c text ih =>
    rw [indexOf] at h
    split at h
    · rename_i hword
      cases h
      exact hword
    · obtain ⟨j, hj, rfl⟩ := Option.map_eq_some_iff.mp h
      exact ih hj

theorem indexOf_le (h : indexOf word text = some i) (hj : word <+: text.drop j) : i ≤ j := by
  induction text generalizing i j with
  | nil =>
    rw [indexOf, Option.ite_none_right_eq_some] at h
    exact Option.some.inj h.2 ▸ j.zero_le
  | cons c text ih =>
    rw [indexOf] at h
    split at h
    · exact Option.some.inj h ▸ j.zero_le
    · rename_i hword
      obtain ⟨k, hk, rfl⟩ := Option.map_eq_some_iff.mp h
      cases j with
      | zero => exact absurd hj hword
      | succ j => exact Nat.succ_le_succ (ih hk hj)

theorem indexOf_isSome_iff : (indexOf word text).isSome ↔ word <:+: text := by
  induction text with
  | nil =>
    rw [indexOf, List.infix_nil]
    split
    · rename_i hword
      exact iff_of_true rfl hword
    · rename_i hword
      exact iff_of_false Bool.noConfusion hword
  | cons c text ih =>
    rw [indexOf, List.infix_cons_iff]
    split
    · rename_i hword
      exact iff_of_true rfl (.inl hword)
    · rename_i hword
      rw [Option.isSome_map, ih, or_iff_right hword]

theorem indexOf_eq_none_iff : indexOf word text = none ↔ ¬word <:+: text := by
  rw [← indexOf_isSome_iff, Option.not_isSome_iff_eq_none]

end Pieces

/-! ## With others between -/

/-- The positions, one for each letter of the word, at which the letters stand in order. -/
structure Stands (word text : List α) (ps : List ℕ) : Prop where
  letters : List.Forall₂ (fun c p ↦ text[p]? = some c) word ps
  ordered : ps.Pairwise (· < ·)

/-- No letter can be taken earlier, whichever way the others are taken. -/
structure Leftmost (word text : List α) (ps : List ℕ) : Prop extends Stands word text ps where
  least : ∀ qs, Stands word text qs → List.Forall₂ (· ≤ ·) ps qs

theorem Stands.length_eq {word text : List α} {ps : List ℕ} (h : Stands word text ps) :
    ps.length = word.length := h.letters.length_eq.symm

theorem Stands.of_nil {text : List α} {qs : List ℕ} (h : Stands [] text qs) :
    List.Forall₂ (· ≤ ·) [] qs := by
  rw [List.length_eq_zero_iff.mp h.length_eq]
  exact .nil

theorem Leftmost.unique {word text : List α} {ps qs : List ℕ} (hps : Leftmost word text ps)
    (hqs : Leftmost word text qs) : ps = qs := by
  have hle := hps.least qs hqs.toStands
  have hge := hqs.least ps hps.toStands
  clear hps hqs
  induction hle with
  | nil => rfl
  | cons hpq _ ih =>
    cases hge with
    | cons hqp hge => rw [Nat.le_antisymm hpq hqp, ih hge]

/-- The letters of a word that stand from some position on, where the first of them is not there,
stand from the next. -/
private theorem lt_of_stands {c d : α} {pre word text : List α} {qs : List ℕ} (hd : d ≠ c)
    (h : Stands (c :: word) (pre ++ d :: text) qs) (hfrom : ∀ q ∈ qs, pre.length ≤ q) :
    ∀ q ∈ qs, pre.length < q := by
  obtain ⟨hletters, hordered⟩ := h
  cases hletters with
  | cons hc hletters =>
    rename_i q₀ qs
    have hfirst : pre.length < q₀ := by
      refine (hfrom q₀ List.mem_cons_self).lt_of_ne ?_
      rintro rfl
      rw [List.getElem?_append_right le_rfl, Nat.sub_self, List.getElem?_cons_zero] at hc
      exact hd (Option.some.inj hc)
    intro q hq
    rcases List.mem_cons.mp hq with rfl | hq
    · exact hfirst
    · exact hfirst.trans ((List.pairwise_cons.mp hordered).1 q hq)

section Scan

variable [DecidableEq α]

/-- Takes every letter of the word at its first chance in the text, whose first letter is at
position `start`. -/
def earliest (start : ℕ) : List α → List α → Option (List ℕ)
  | [], _ => some []
  | _ :: _, [] => none
  | c :: word, d :: text =>
    if d = c then (earliest (start + 1) word text).map (start :: ·)
    else earliest (start + 1) (c :: word) text

variable {word text : List α} {ps : List ℕ}

theorem earliest_isSome_iff (start : ℕ) :
    (earliest start word text).isSome ↔ word.Sublist text := by
  induction text generalizing start word with
  | nil =>
    cases word with
    | nil => exact iff_of_true rfl .slnil
    | cons c word => exact iff_of_false Bool.noConfusion nofun
  | cons d text ih =>
    cases word with
    | nil => exact iff_of_true rfl (List.nil_sublist _)
    | cons c word =>
      rw [earliest]
      split
      · rename_i hd
        rw [Option.isSome_map, ih, hd, List.cons_sublist_cons]
      · rename_i hd
        rw [ih, List.sublist_cons_iff, or_iff_left]
        rintro ⟨word', heq, -⟩
        exact hd (List.cons.inj heq).1.symm

/-- What a scan has found that goes on in the middle of the text. -/
private theorem earliest_append (pre : List α) (h : earliest pre.length word text = some ps) :
    Stands word (pre ++ text) ps ∧ (∀ p ∈ ps, pre.length ≤ p) ∧
      ∀ qs, Stands word (pre ++ text) qs → (∀ q ∈ qs, pre.length ≤ q) →
        List.Forall₂ (· ≤ ·) ps qs := by
  induction text generalizing word pre ps with
  | nil =>
    cases word with
    | nil =>
      cases h
      exact ⟨⟨.nil, .nil⟩, fun _ hp ↦ absurd hp List.not_mem_nil, fun qs hqs _ ↦ hqs.of_nil⟩
    | cons c word => cases h
  | cons d text ih =>
    cases word with
    | nil =>
      cases h
      exact ⟨⟨.nil, .nil⟩, fun _ hp ↦ absurd hp List.not_mem_nil, fun qs hqs _ ↦ hqs.of_nil⟩
    | cons c word =>
      have hpre : pre ++ d :: text = pre ++ [d] ++ text := List.append_cons pre d text
      have hlength : (pre ++ [d]).length = pre.length + 1 := List.length_append
      rw [earliest] at h
      split at h
      · -- the letter is here, and the rest of the word stands behind it
        rename_i hd
        subst hd
        obtain ⟨ps, hps, rfl⟩ := Option.map_eq_some_iff.mp h
        rw [← hlength] at hps
        obtain ⟨hstands, hfrom, hleast⟩ := ih (pre ++ [d]) hps
        rw [← hpre] at hstands hleast
        rw [hlength] at hfrom hleast
        refine ⟨⟨.cons ?_ hstands.letters, ?_⟩, ?_, ?_⟩
        · rw [List.getElem?_append_right le_rfl, Nat.sub_self, List.getElem?_cons_zero]
        · exact List.pairwise_cons.mpr ⟨fun p hp ↦ hfrom p hp, hstands.ordered⟩
        · intro p hp
          rcases List.mem_cons.mp hp with rfl | hp
          · exact le_rfl
          · exact (Nat.le_succ _).trans (hfrom p hp)
        · rintro qs ⟨hletters, hordered⟩ hqs
          cases hletters with
          | cons _ hletters =>
            have hrest := List.pairwise_cons.mp hordered
            refine .cons (hqs _ List.mem_cons_self) (hleast _ ⟨hletters, hrest.2⟩ fun q hq ↦ ?_)
            exact (hqs _ List.mem_cons_self).trans_lt (hrest.1 q hq)
      · -- the letter is further on
        rename_i hd
        rw [← hlength] at h
        obtain ⟨hstands, hfrom, hleast⟩ := ih (pre ++ [d]) h
        rw [← hpre] at hstands hleast
        rw [hlength] at hfrom hleast
        refine ⟨hstands, fun p hp ↦ (Nat.le_succ _).trans (hfrom p hp), fun qs hqs hle ↦ ?_⟩
        exact hleast qs hqs (lt_of_stands hd hqs hle)

theorem leftmost_of_earliest (h : earliest 0 word text = some ps) : Leftmost word text ps := by
  obtain ⟨hstands, -, hleast⟩ := earliest_append [] h
  exact ⟨hstands, fun qs hqs ↦ hleast qs hqs fun q _ ↦ q.zero_le⟩

theorem earliest_eq_some_iff (h : word.Sublist text) :
    earliest 0 word text = some ps ↔ Leftmost word text ps := by
  refine ⟨leftmost_of_earliest, fun hps ↦ ?_⟩
  obtain ⟨qs, hqs⟩ := Option.isSome_iff_exists.mp ((earliest_isSome_iff 0).mpr h)
  rw [hqs, (leftmost_of_earliest hqs).unique hps]

end Scan

end Subsequence
