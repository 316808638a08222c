import Mathlib.Data.List.Sort
import Mathlib.Data.List.Nodup

/-!
# Lists in the order of a key

`orderBy key` puts a list in the order of its keys and leaves elements with one key as they stand.
Which of two elements comes first is told by their keys and, where these are equal, by the list
(`pair_sublist_orderBy`); elements that are left out make no difference (`filter_orderBy`).

The elements of a part of a list stand next to each other where no other stands between the first
and the last of them (`isInfix_iff_none_between`).
-/

namespace OrderBy

variable {α κ : Type*} [LinearOrder κ] (key : α → κ)

def orderBy (l : List α) : List α := l.insertionSort fun a b ↦ key a ≤ key b

instance total_key : Std.Total fun a b ↦ key a ≤ key b := ⟨fun _ _ ↦ le_total _ _⟩

instance isTrans_key : IsTrans α fun a b ↦ key a ≤ key b := ⟨fun _ _ _ ↦ le_trans⟩

variable {key} {l r : List α} {a b : α}

theorem orderBy_perm : (orderBy key l).Perm l := List.perm_insertionSort _ l

theorem mem_orderBy : a ∈ orderBy key l ↔ a ∈ l := orderBy_perm.mem_iff

theorem pairwise_orderBy : (orderBy key l).Pairwise fun a b ↦ key a ≤ key b :=
  List.pairwise_insertionSort _ l

theorem nodup_orderBy (h : l.Nodup) : (orderBy key l).Nodup := orderBy_perm.nodup_iff.mpr h

/-- An element goes to the front where no key is below its own. -/
private theorem orderedInsert_eq_cons (h : ∀ b ∈ l, key a ≤ key b) :
    l.orderedInsert (fun a b ↦ key a ≤ key b) a = a :: l := by
  cases l with
  | nil => rfl
  | cons b l => exact List.orderedInsert_cons_of_le _ l (h b List.mem_cons_self)

private theorem filter_orderedInsert (p : α → Bool) (a : α)
    (h : l.Pairwise fun a b ↦ key a ≤ key b) :
    (l.orderedInsert (fun a b ↦ key a ≤ key b) a).filter p =
      if p a then (l.filter p).orderedInsert (fun a b ↦ key a ≤ key b) a else l.filter p := by
  induction l with
  | nil =>
    rw [List.orderedInsert_nil, List.filter_cons]
    rfl
  | cons b l ih =>
    rw [List.orderedInsert_cons]
    split
    · -- `a` comes first, and also before the first that is left
      rename_i hab
      have hfirst : ∀ c ∈ (b :: l).filter p, key a ≤ key c := by
        intro c hc
        rcases List.mem_cons.mp (List.mem_of_mem_filter hc) with rfl | hc
        · exact hab
        · exact hab.trans (List.rel_of_pairwise_cons h hc)
      rw [List.filter_cons, orderedInsert_eq_cons hfirst]
    · rename_i hab
      rw [List.filter_cons, List.filter_cons, ih h.of_cons]
      split
      · split
        · rw [List.orderedInsert_cons, if_neg hab]
        · rfl
      · rfl

theorem filter_orderBy (p : α → Bool) : (orderBy key l).filter p = orderBy key (l.filter p) := by
  induction l with
  | nil => rfl
  | cons a l ih =>
    rw [orderBy, List.insertionSort_cons, ← orderBy, filter_orderedInsert p a pairwise_orderBy, ih,
      List.filter_cons]
    split <;> rfl

/-- The order is the only one where no two keys are the same. -/
theorem orderBy_eq_of_pairwise_lt (hperm : r.Perm l) (h : r.Pairwise fun a b ↦ key a < key b) :
    orderBy key l = r := by
  have hle : r.Pairwise fun a b ↦ key a ≤ key b := h.imp fun hab ↦ hab.le
  have hkeys : (r.map key).Nodup := List.pairwise_map.mpr (h.imp fun hab ↦ hab.ne)
  have hmem : ∀ a ∈ orderBy key l, a ∈ r := fun a ha ↦ hperm.mem_iff.mpr (mem_orderBy.mp ha)
  refine List.Perm.eq_of_pairwise ?_ pairwise_orderBy hle (orderBy_perm.trans hperm.symm)
  intro a b ha hb hab hba
  exact List.inj_on_of_nodup_map hkeys (hmem a ha) hb (le_antisymm hab hba)

/-! ## Which comes first -/

theorem pair_sublist_total (ha : a ∈ l) (hb : b ∈ l) (hab : a ≠ b) :
    [a, b].Sublist l ∨ [b, a].Sublist l := by
  induction l with
  | nil => cases ha
  | cons c l ih =>
    rw [List.mem_cons] at ha hb
    rcases ha with rfl | ha
    · have hb : b ∈ l := hb.resolve_left hab.symm
      exact .inl ((List.singleton_sublist.mpr hb).cons_cons a)
    · rcases hb with rfl | hb
      · exact .inr ((List.singleton_sublist.mpr ha).cons_cons b)
      · exact (ih ha hb).imp (·.cons c) (·.cons c)

theorem pair_sublist_asymm (hl : l.Nodup) (hab : [a, b].Sublist l) : ¬[b, a].Sublist l := by
  induction l with
  | nil => cases hab
  | cons c l ih =>
    rw [List.nodup_cons] at hl
    intro hba
    cases hab with
    | cons _ hab =>
      cases hba with
      | cons _ hba => exact ih hl.2 hab hba
      | cons_cons _ hba => exact hl.1 (hab.subset (by simp))
    | cons_cons _ hab =>
      cases hba with
      | cons _ hba => exact hl.1 (hba.subset (by simp))
      | cons_cons _ hba => exact hl.1 (List.singleton_sublist.mp hab)

theorem pair_sublist_orderBy (hl : l.Nodup) (ha : a ∈ l) (hb : b ∈ l) (hab : a ≠ b) :
    [a, b].Sublist (orderBy key l) ↔ key a < key b ∨ key a = key b ∧ [a, b].Sublist l := by
  constructor
  · intro h
    have hle : key a ≤ key b := List.pairwise_iff_forall_sublist.mp pairwise_orderBy h
    rcases hle.lt_or_eq with hlt | heq
    · exact .inl hlt
    · refine .inr ⟨heq, (pair_sublist_total ha hb hab).resolve_right fun hba ↦ ?_⟩
      exact pair_sublist_asymm (nodup_orderBy hl) h (List.pair_sublist_insertionSort heq.ge hba)
  · rintro (hlt | ⟨heq, h⟩)
    · have ha' : a ∈ orderBy key l := mem_orderBy.mpr ha
      have htotal := pair_sublist_total ha' (mem_orderBy.mpr hb) hab
      refine htotal.resolve_right fun hba ↦ hlt.not_ge ?_
      exact List.pairwise_iff_forall_sublist.mp pairwise_orderBy hba
    · exact List.pair_sublist_insertionSort heq.le h

/-! ## Next to each other -/

theorem pair_sublist_append (ha : a ∈ l) (hb : b ∈ r) : [a, b].Sublist (l ++ r) :=
  (List.singleton_sublist.mpr ha).append (List.singleton_sublist.mpr hb)

/-- A part of the list that has every element of it is the list. -/
private theorem sublist_eq_of_subset (hl : l.Nodup) (h : r.Sublist l) (hmem : ∀ x ∈ l, x ∈ r) :
    r = l :=
  h.eq_of_length_le (List.subperm_of_subset hl hmem).length_le

private theorem cons_sublist_split (h : (a :: r).Sublist l) :
    ∃ front rest, l = front ++ a :: rest ∧ r.Sublist rest := by
  obtain ⟨l₁, l₂, rfl, ha, hr⟩ := List.cons_sublist_iff.mp h
  obtain ⟨front, m, rfl⟩ := List.append_of_mem ha
  exact ⟨front, m ++ l₂, by simp, hr.trans (List.sublist_append_right m l₂)⟩

private theorem eq_of_none_between {front inner mid back : List α}
    (hl : (front ++ a :: (inner ++ b :: back)).Nodup) (hmid : mid.Sublist inner)
    (hnone : ∀ x ∈ inner, x ∉ a :: (mid ++ [b]) →
      ¬([a, x].Sublist (front ++ a :: (inner ++ b :: back)) ∧
        [x, b].Sublist (front ++ a :: (inner ++ b :: back)))) : mid = inner := by
  have htail := List.sublist_append_right front (a :: (inner ++ b :: back))
  have hl' : a ∉ inner ++ b :: back ∧ (inner ++ b :: back).Nodup :=
    List.nodup_cons.mp (hl.sublist htail)
  have hdisjoint := (List.nodup_append.mp hl'.2).2.2
  refine sublist_eq_of_subset (List.nodup_append.mp hl'.2).1 hmid fun x hx ↦ ?_
  by_contra hxmid
  have hxa : x ≠ a := fun heq ↦ hl'.1 (heq ▸ List.mem_append_left _ hx)
  have hxb : x ≠ b := hdisjoint x hx b List.mem_cons_self
  refine hnone x hx ?_ ⟨?_, ?_⟩
  · rw [List.mem_cons, List.mem_append, List.mem_singleton, not_or, not_or]
    exact ⟨hxa, hxmid, hxb⟩
  · have hmem : x ∈ inner ++ b :: back := List.mem_append_left _ hx
    exact ((List.singleton_sublist.mpr hmem).cons_cons a).trans htail
  · exact ((pair_sublist_append hx List.mem_cons_self).cons a).trans htail

theorem isInfix_iff_none_between (hl : l.Nodup) (hr : r.Sublist l) :
    r <:+: l ↔ ∀ a ∈ r.head?, ∀ b ∈ r.getLast?, ∀ x ∈ l, x ∉ r →
      ¬([a, x].Sublist l ∧ [x, b].Sublist l) := by
  constructor
  · rintro ⟨front, back, rfl⟩ a ha b hb x hx hxr ⟨hax, hxb⟩
    have ha : a ∈ r := List.mem_of_mem_head? ha
    have hb : b ∈ r := List.mem_of_mem_getLast? hb
    have hsplit : x ∈ front ∨ x ∈ back := by
      rw [List.mem_append, List.mem_append] at hx
      exact hx.imp_left (·.resolve_right hxr)
    rcases hsplit with hx | hx
    · rw [List.append_assoc] at hl hax
      exact pair_sublist_asymm hl hax (pair_sublist_append hx (List.mem_append_left _ ha))
    · exact pair_sublist_asymm hl hxb (pair_sublist_append (List.mem_append_right _ hb) hx)
  · intro hnone
    cases r with
    | nil => exact List.nil_infix
    | cons a r =>
      obtain ⟨front, rest, rfl, hsub⟩ := cons_sublist_split hr
      rcases List.eq_nil_or_concat' r with rfl | ⟨mid, b, rfl⟩
      · exact ⟨front, rest, by rw [List.append_assoc, List.singleton_append]⟩
      · -- what stands behind `a` is split at `b`
        obtain ⟨m, n, rfl, hmid, hb⟩ := List.append_sublist_iff.mp hsub
        obtain ⟨n, back, rfl⟩ := List.append_of_mem (List.singleton_sublist.mp hb)
        rw [← List.append_assoc m n] at hl hnone ⊢
        have hinner : mid = m ++ n := by
          refine eq_of_none_between hl (hmid.trans (List.sublist_append_left m n)) fun x hx hxr ↦ ?_
          have hmem : x ∈ front ++ a :: (m ++ n ++ b :: back) :=
            List.mem_append_right _ (List.mem_cons_of_mem _ (List.mem_append_left _ hx))
          exact hnone a rfl b (List.getLast?_concat (l := a :: mid)) x hmem hxr
        exact ⟨front, back, by simp [hinner]⟩

end OrderBy
