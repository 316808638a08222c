import Mathlib.Data.List.Nodup

/-!
# Maps that remember the order of insertion

Association lists without duplicate keys. A key that is set again keeps its place and a new key goes
to the end, so that walking over `entries` visits keys in the order in which they first came in.

Callers read a map through `get` after `set` and `delete`; the equations for these two are the
interface, and the representation is only seen by code that iterates.
-/

/-- A finite map from `κ` to `ν` with its keys in order of insertion. -/
structure OrderedMap (κ ν : Type*) where
  entries : List (κ × ν)
  /-- No key occurs twice. -/
  nodup : (entries.map Prod.fst).Nodup

namespace OrderedMap

variable {κ ν : Type*}

/-- The map without entries. -/
def empty : OrderedMap κ ν := ⟨[], List.nodup_nil⟩

def keys (m : OrderedMap κ ν) : List κ := m.entries.map Prod.fst

variable [DecidableEq κ] {m : OrderedMap κ ν} {k : κ} {v : ν} {es : List (κ × ν)}

def get (m : OrderedMap κ ν) (k : κ) : Option ν := (m.entries.find? fun e ↦ e.1 = k).map Prod.snd

/-- Replace the value of a key in its place, or add the key at the end. -/
def setEntries (k : κ) (v : ν) : List (κ × ν) → List (κ × ν)
  | [] => [(k, v)]
  | e :: es => if e.1 = k then (k, v) :: es else e :: setEntries k v es

theorem mem_keys_setEntries {k k' : κ} :
    k' ∈ (setEntries k v es).map Prod.fst ↔ k' = k ∨ k' ∈ es.map Prod.fst := by
  induction es with
  | nil => simp [setEntries]
  | cons e es ih =>
    rw [setEntries]
    split
    · rename_i h
      simp [h]
    · rw [List.map_cons, List.mem_cons, ih, List.map_cons, List.mem_cons]
      tauto

theorem nodup_setEntries (h : (es.map Prod.fst).Nodup) :
    ((setEntries k v es).map Prod.fst).Nodup := by
  induction es with
  | nil => simp [setEntries]
  | cons e es ih =>
    rw [List.map_cons, List.nodup_cons] at h
    rw [setEntries]
    split
    · rename_i hk
      rw [List.map_cons, List.nodup_cons]
      exact ⟨hk ▸ h.1, h.2⟩
    · rename_i hk
      rw [List.map_cons, List.nodup_cons, mem_keys_setEntries]
      exact ⟨fun hmem ↦ hmem.elim hk h.1, ih h.2⟩

def set (m : OrderedMap κ ν) (k : κ) (v : ν) : OrderedMap κ ν :=
  ⟨setEntries k v m.entries, nodup_setEntries m.nodup⟩

def delete (m : OrderedMap κ ν) (k : κ) : OrderedMap κ ν :=
  ⟨m.entries.filter fun e ↦ e.1 ≠ k, (List.filter_sublist.map Prod.fst).nodup m.nodup⟩

@[simp] theorem get_empty (k : κ) : (empty : OrderedMap κ ν).get k = none := rfl

theorem find?_setEntries (k k' : κ) (v : ν) (es : List (κ × ν)) :
    (setEntries k v es).find? (fun e ↦ e.1 = k')
      = if k = k' then some (k, v) else es.find? fun e ↦ e.1 = k' := by
  induction es with
  | nil =>
    rw [setEntries]
    by_cases hk : k = k' <;> simp [hk]
  | cons e es ih =>
    rw [setEntries]
    by_cases he : e.1 = k
    · by_cases hk : k = k' <;> simp [he, hk]
    · by_cases hk : k = k'
      · subst hk
        rw [if_pos rfl] at ih ⊢
        rw [if_neg he, List.find?_cons_of_neg (by simpa using he), ih]
      · rw [if_neg hk] at ih ⊢
        rw [if_neg he, List.find?_cons, List.find?_cons, ih]

theorem get_set (m : OrderedMap κ ν) (k k' : κ) (v : ν) :
    (m.set k v).get k' = if k = k' then some v else m.get k' := by
  rw [get, set, find?_setEntries]
  split <;> rfl

@[simp] theorem get_set_self (m : OrderedMap κ ν) (k : κ) (v : ν) : (m.set k v).get k = some v := by
  rw [get_set, if_pos rfl]

@[simp] theorem get_set_of_ne (m : OrderedMap κ ν) {k k' : κ} (v : ν) (h : k ≠ k') :
    (m.set k v).get k' = m.get k' := by
  rw [get_set, if_neg h]

theorem get_delete (m : OrderedMap κ ν) (k k' : κ) :
    (m.delete k).get k' = if k = k' then none else m.get k' := by
  rw [get, delete, List.find?_filter]
  by_cases hk : k = k'
  · subst hk
    rw [if_pos rfl, List.find?_eq_none.mpr (by simp), Option.map_none]
  · rw [if_neg hk, get]
    congr 2
    funext e
    by_cases he : e.1 = k'
    · simp [he, Ne.symm hk]
    · simp [he]

@[simp] theorem get_delete_self (m : OrderedMap κ ν) (k : κ) : (m.delete k).get k = none := by
  rw [get_delete, if_pos rfl]

@[simp] theorem get_delete_of_ne (m : OrderedMap κ ν) {k k' : κ} (h : k ≠ k') :
    (m.delete k).get k' = m.get k' := by
  rw [get_delete, if_neg h]

theorem get_eq_some_iff :
    m.get k = some v ↔ (k, v) ∈ m.entries := by
  rw [get, Option.map_eq_some_iff]
  constructor
  · rintro ⟨e, he, rfl⟩
    have hk : e.1 = k := by simpa using List.find?_some he
    exact hk ▸ List.mem_of_find?_eq_some he
  · intro hmem
    have hfound : (m.entries.find? fun e ↦ e.1 = k).isSome := by
      rw [List.find?_isSome]
      exact ⟨(k, v), hmem, by simp⟩
    obtain ⟨e, he⟩ := Option.isSome_iff_exists.mp hfound
    have hk : e.1 = k := by simpa using List.find?_some he
    have heq : e = (k, v) := List.inj_on_of_nodup_map m.nodup (List.mem_of_find?_eq_some he) hmem hk
    exact ⟨e, he, by rw [heq]⟩

instance (m : OrderedMap κ ν) (p : κ → ν → Prop) [∀ k v, Decidable (p k v)] :
    Decidable (∀ k v, m.get k = some v → p k v) :=
  decidable_of_iff (∀ e ∈ m.entries, p e.1 e.2)
    ⟨fun h k v hget ↦ h (k, v) (get_eq_some_iff.mp hget),
      fun h e he ↦ h e.1 e.2 (get_eq_some_iff.mpr he)⟩

/-- Change the value of a key that is there. -/
def modify (m : OrderedMap κ ν) (k : κ) (f : ν → ν) : OrderedMap κ ν :=
  match m.get k with
  | none => m
  | some v => m.set k (f v)

theorem get_modify (m : OrderedMap κ ν) (k k' : κ) (f : ν → ν) :
    (m.modify k f).get k' = if k = k' then (m.get k').map f else m.get k' := by
  rw [modify]
  rcases hget : m.get k with _ | v
  · by_cases hk : k = k'
    · subst hk
      simp [hget]
    · rw [if_neg hk]
  · by_cases hk : k = k'
    · subst hk
      simp [hget]
    · simp [hk]

omit [DecidableEq κ] in
/-- Change every value in its place. -/
def mapValues (m : OrderedMap κ ν) (f : κ → ν → ν) : OrderedMap κ ν :=
  ⟨m.entries.map fun e ↦ (e.1, f e.1 e.2), by
    rw [List.map_map]
    exact m.nodup⟩

theorem get_mapValues (m : OrderedMap κ ν) (f : κ → ν → ν) (k : κ) :
    (m.mapValues f).get k = (m.get k).map (f k) := by
  rcases hget : m.get k with _ | v
  · rw [Option.map_none, ← Option.not_isSome_iff_eq_none]
    intro hsome
    obtain ⟨w, hw⟩ := Option.isSome_iff_exists.mp hsome
    rw [get_eq_some_iff, mapValues, List.mem_map] at hw
    obtain ⟨⟨k', v⟩, hmem, heq⟩ := hw
    obtain ⟨rfl, rfl⟩ := Prod.mk.inj heq
    rw [get_eq_some_iff.mpr hmem] at hget
    cases hget
  · rw [Option.map_some, get_eq_some_iff, mapValues, List.mem_map]
    exact ⟨(k, v), get_eq_some_iff.mp hget, rfl⟩

theorem map_setEntries (f : κ → ν → ν) (k : κ) (v : ν) (es : List (κ × ν)) :
    (setEntries k v es).map (fun e ↦ (e.1, f e.1 e.2)) =
      setEntries k (f k v) (es.map fun e ↦ (e.1, f e.1 e.2)) := by
  induction es with
  | nil => rfl
  | cons e es ih =>
    rw [setEntries, List.map_cons, setEntries]
    split
    · rfl
    · rw [List.map_cons, ih]

theorem mapValues_set (m : OrderedMap κ ν) (f : κ → ν → ν) (k : κ) (v : ν) :
    (m.set k v).mapValues f = (m.mapValues f).set k (f k v) := by
  rw [set, mapValues, set, OrderedMap.mk.injEq]
  exact map_setEntries f k v m.entries

theorem mapValues_delete (m : OrderedMap κ ν) (f : κ → ν → ν) (k : κ) :
    (m.delete k).mapValues f = (m.mapValues f).delete k := by
  rw [delete, mapValues, delete, OrderedMap.mk.injEq, mapValues, List.filter_map]
  rfl

omit [DecidableEq κ] in
/-- The entries with a property, in their order. -/
def filter (m : OrderedMap κ ν) (p : κ → ν → Bool) : OrderedMap κ ν :=
  ⟨m.entries.filter fun e ↦ p e.1 e.2, (List.filter_sublist.map Prod.fst).nodup m.nodup⟩

theorem get_filter_eq_some_iff {p : κ → ν → Bool} :
    (m.filter p).get k = some v ↔ m.get k = some v ∧ p k v = true := by
  rw [get_eq_some_iff, get_eq_some_iff, filter, List.mem_filter]

omit [DecidableEq κ] in
/-- The map without its `n` oldest entries. -/
def drop (m : OrderedMap κ ν) (n : ℕ) : OrderedMap κ ν :=
  ⟨m.entries.drop n, ((List.drop_sublist n m.entries).map Prod.fst).nodup m.nodup⟩

omit [DecidableEq κ] in
@[simp] theorem drop_zero (m : OrderedMap κ ν) : m.drop 0 = m := rfl

omit [DecidableEq κ] in
def size (m : OrderedMap κ ν) : ℕ := m.entries.length

theorem setEntries_of_not_mem (h : ∀ e ∈ es, e.1 ≠ k) :
    setEntries k v es = es ++ [(k, v)] := by
  induction es with
  | nil => rfl
  | cons e es ih =>
    rw [setEntries, if_neg (h e List.mem_cons_self), List.cons_append,
      ih fun e he ↦ h e (List.mem_cons_of_mem _ he)]

/-- A new key goes to the end. -/
theorem entries_set_of_get_eq_none (h : m.get k = none) (v : ν) :
    (m.set k v).entries = m.entries ++ [(k, v)] := by
  apply setEntries_of_not_mem
  intro e he heq
  rw [get_eq_some_iff.mpr (heq ▸ he : (k, e.2) ∈ m.entries)] at h
  cases h

theorem setEntries_append {v w : ν} {es es' : List (κ × ν)}
    (h : ∀ e ∈ es, e.1 ≠ k) : setEntries k w (es ++ (k, v) :: es') = es ++ (k, w) :: es' := by
  induction es with
  | nil => rw [List.nil_append, setEntries, if_pos rfl, List.nil_append]
  | cons e es ih =>
    rw [List.cons_append, setEntries, if_neg (h e List.mem_cons_self),
      ih fun e he ↦ h e (List.mem_cons_of_mem _ he), List.cons_append]

/-- A key that is set again keeps its place, and so do all others. -/
theorem exists_entries_set (h : m.get k = some v) :
    ∃ es es', m.entries = es ++ (k, v) :: es' ∧
      ∀ w, (m.set k w).entries = es ++ (k, w) :: es' := by
  obtain ⟨es, es', hentries⟩ := List.append_of_mem (get_eq_some_iff.mp h)
  have hnodup := m.nodup
  rw [hentries, List.map_append, List.map_cons, List.nodup_append] at hnodup
  refine ⟨es, es', hentries, fun w ↦ ?_⟩
  change setEntries k w m.entries = _
  rw [hentries]
  refine setEntries_append fun e he heq ↦ ?_
  exact hnodup.2.2 e.1 (List.mem_map_of_mem he) k List.mem_cons_self heq

theorem set_eq_self (h : m.get k = some v) :
    m.set k v = m := by
  obtain ⟨es, es', hentries, hset⟩ := exists_entries_set h
  have hsame : (m.set k v).entries = m.entries := (hset v).trans hentries.symm
  cases m
  exact (mk.injEq ..).mpr hsame

theorem perm_entries_delete (h : m.get k = some v) :
    m.entries.Perm ((k, v) :: (m.delete k).entries) := by
  obtain ⟨es, es', hentries⟩ := List.append_of_mem (get_eq_some_iff.mp h)
  have hnodup := m.nodup
  rw [hentries, List.map_append, List.map_cons, List.nodup_append, List.nodup_cons] at hnodup
  obtain ⟨-, ⟨hright, -⟩, hleft⟩ := hnodup
  have hes : es.filter (fun e ↦ e.1 ≠ k) = es := by
    refine List.filter_eq_self.mpr fun e he ↦ decide_eq_true fun heq ↦ ?_
    exact hleft e.1 (List.mem_map_of_mem he) k List.mem_cons_self heq
  have hes' : es'.filter (fun e ↦ e.1 ≠ k) = es' := by
    refine List.filter_eq_self.mpr fun e he ↦ decide_eq_true fun heq ↦ ?_
    have hkey := List.mem_map_of_mem (f := Prod.fst) he
    exact hright (heq ▸ hkey)
  have hdelete : (m.delete k).entries = es ++ es' := by
    change m.entries.filter (fun e ↦ e.1 ≠ k) = _
    rw [hentries, List.filter_append, hes, List.filter_cons_of_neg (by simp), hes']
  rw [hdelete, hentries]
  exact List.perm_middle

theorem filter_setEntries (k : κ) (v : ν) (es : List (κ × ν)) :
    (setEntries k v es).filter (fun e ↦ e.1 ≠ k) = es.filter (fun e ↦ e.1 ≠ k) := by
  induction es with
  | nil => exact List.filter_cons_of_neg (by simp)
  | cons e es ih =>
    rw [setEntries]
    split
    · rename_i hk
      rw [List.filter_cons_of_neg (by simp), List.filter_cons_of_neg (by simp [hk])]
    · rename_i hk
      rw [List.filter_cons_of_pos (by simp [hk]), List.filter_cons_of_pos (by simp [hk]), ih]

theorem perm_entries_set (m : OrderedMap κ ν) (k : κ) (v : ν) :
    (m.set k v).entries.Perm ((k, v) :: (m.delete k).entries) := by
  have hdelete : ((m.set k v).delete k).entries = (m.delete k).entries :=
    filter_setEntries k v m.entries
  rw [← hdelete]
  exact perm_entries_delete (m.get_set_self k v)

theorem entries_delete_of_get_eq_none (h : m.get k = none) : (m.delete k).entries = m.entries := by
  refine List.filter_eq_self.mpr fun e he ↦ decide_eq_true fun heq ↦ ?_
  have hget : m.get e.1 = some e.2 := get_eq_some_iff.mpr he
  rw [heq, h] at hget
  cases hget

theorem size_set_of_get_eq_none (h : m.get k = none) (v : ν) : (m.set k v).size = m.size + 1 := by
  rw [size, entries_set_of_get_eq_none h, List.length_append]
  rfl

/-- Some value has a property. -/
def anyValue (m : OrderedMap κ ν) (p : ν → Bool) : Bool := m.entries.any fun e ↦ p e.2

theorem anyValue_eq_true {p : ν → Bool} :
    m.anyValue p = true ↔ ∃ k v, m.get k = some v ∧ p v = true := by
  rw [anyValue, List.any_eq_true]
  constructor
  · rintro ⟨⟨k, v⟩, hmem, hp⟩
    exact ⟨k, v, get_eq_some_iff.mpr hmem, hp⟩
  · rintro ⟨k, v, hget, hp⟩
    exact ⟨(k, v), get_eq_some_iff.mp hget, hp⟩

/-! ## What holds of every entry -/

section Forall

variable {m : OrderedMap κ ν} {Q : κ → ν → Prop} {k : κ} (h : ∀ k v, m.get k = some v → Q k v)

include h

theorem forall_get_set {v : ν} (hv : Q k v) (k' : κ) (v' : ν)
    (hget : (m.set k v).get k' = some v') :
    Q k' v' := by
  rw [get_set] at hget
  split at hget
  · rename_i hk
    exact hk ▸ Option.some.inj hget ▸ hv
  · exact h k' v' hget

theorem forall_get_delete (k' : κ) (v' : ν) (hget : (m.delete k).get k' = some v') : Q k' v' := by
  rw [get_delete] at hget
  split at hget
  · cases hget
  · exact h k' v' hget

theorem forall_get_modify {f : ν → ν} (hf : ∀ v, Q k v → Q k (f v)) (k' : κ) (v' : ν)
    (hget : (m.modify k f).get k' = some v') : Q k' v' := by
  rw [get_modify] at hget
  split at hget
  · rename_i hk
    obtain ⟨v, hv, rfl⟩ := Option.map_eq_some_iff.mp hget
    exact hk ▸ hf v (hk ▸ h k' v hv)
  · exact h k' v' hget

end Forall

end OrderedMap
