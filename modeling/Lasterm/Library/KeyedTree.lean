import Lasterm.Library.OrderedMap

/-!
# Tables in tables

A document of tables: a table has entries under keys, and the value of an entry is a scalar, an
array or a table again. A path is the keys on the way to a value.

An edit sets the value at a path or takes it away (`editAt`). The tables on the way are made where
they are missing, and one that an edit leaves without entries may be dropped. What is read at the
path is what was put there (`getAt_editAt_self`), and at every path that leads elsewhere what was
there before (`getAt_editAt_of_apart`).
-/

inductive KeyedTree (κ σ : Type) where
  | scalar (s : σ)
  | array (items : List (KeyedTree κ σ))
  | table (entries : List (κ × KeyedTree κ σ))

namespace KeyedTree

open OrderedMap

abbrev Entries (κ σ : Type) := List (κ × KeyedTree κ σ)

variable {κ σ : Type} [DecidableEq κ] (drop : Bool) (es : Entries κ σ)

/-! ## What stands at a path -/

def lookup (es : Entries κ σ) (k : κ) : Option (KeyedTree κ σ) :=
  (es.find? fun e ↦ e.1 = k).map Prod.snd

/-- The entries of a table; nothing else has any. -/
def sub : Option (KeyedTree κ σ) → Entries κ σ
  | some (table es) => es
  | _ => []

def getAt : Entries κ σ → List κ → Option (KeyedTree κ σ)
  | _, [] => none
  | es, [k] => lookup es k
  | es, k :: k' :: path => getAt (sub (lookup es k)) (k' :: path)

@[simp] theorem getAt_nil (path : List κ) : getAt ([] : Entries κ σ) path = none := by
  induction path with
  | nil => rfl
  | cons k path ih =>
    cases path with
    | nil => rfl
    | cons k' path => exact ih

theorem lookup_setEntries (k k' : κ) (v : KeyedTree κ σ) (es : Entries κ σ) :
    lookup (setEntries k v es) k' = if k = k' then some v else lookup es k' := by
  rw [lookup, find?_setEntries]
  split
  · rfl
  · rfl

theorem lookup_filter (k k' : κ) (es : Entries κ σ) :
    lookup (es.filter fun e ↦ e.1 ≠ k) k' = if k = k' then none else lookup es k' := by
  rw [lookup, List.find?_filter]
  split_ifs with h
  · subst h
    rw [List.find?_eq_none.mpr fun e _ ↦ by simp]
    rfl
  · refine congrArg (fun p ↦ (es.find? p).map Prod.snd) (funext fun e ↦ ?_)
    by_cases he : e.1 = k'
    · simp [he, Ne.symm h]
    · simp [he]

theorem setEntries_of_lookup {k : κ} {v : KeyedTree κ σ} {es : Entries κ σ}
    (h : lookup es k = some v) : setEntries k v es = es := by
  induction es with
  | nil => cases h
  | cons e es ih =>
    rw [lookup, List.find?_cons] at h
    rw [setEntries]
    by_cases he : e.1 = k
    · rw [decide_eq_true he] at h
      rw [if_pos he, ← he, ← Option.some.inj h]
    · rw [decide_eq_false he] at h
      rw [if_neg he, ih h]

/-! ## Edits -/

def setAt : Entries κ σ → List κ → KeyedTree κ σ → Entries κ σ
  | es, [], _ => es
  | es, [k], v => setEntries k v es
  | es, k :: k' :: path, v =>
    setEntries k (table (setAt (sub (lookup es k)) (k' :: path) v)) es

/-- A table that was not empty and is left without entries is taken away with `drop`. -/
def removeAt (drop : Bool) : Entries κ σ → List κ → Entries κ σ
  | es, [] => es
  | es, [k] => es.filter fun e ↦ e.1 ≠ k
  | es, k :: k' :: path =>
    match lookup es k with
    | some (table entries) =>
      let left := removeAt drop entries (k' :: path)
      if drop ∧ left.isEmpty ∧ ¬entries.isEmpty then es.filter fun e ↦ e.1 ≠ k
      else setEntries k (table left) es
    | _ => es

def editAt (drop : Bool) (es : Entries κ σ) (path : List κ) : Option (KeyedTree κ σ) → Entries κ σ
  | some v => setAt es path v
  | none => removeAt drop es path

/-- Only a table has something at the rest of a path. -/
theorem eq_table_of_getAt {v : Option (KeyedTree κ σ)} {path : List κ} {u : KeyedTree κ σ}
    (h : getAt (sub v) path = some u) : v = some (table (sub v)) := by
  unfold sub at h ⊢
  split
  · rfl
  · rename_i hno
    split at h
    · exact absurd rfl (hno _)
    · rw [getAt_nil] at h
      cases h

/-- To set what stands there changes nothing. -/
theorem setAt_of_getAt {es : Entries κ σ} {path : List κ} {v : KeyedTree κ σ}
    (h : getAt es path = some v) : setAt es path v = es := by
  induction path generalizing es with
  | nil => rfl
  | cons k path ih =>
    cases path with
    | nil => exact setEntries_of_lookup h
    | cons k' path =>
      rw [setAt, ih h]
      exact setEntries_of_lookup (eq_table_of_getAt h)

/-- What an edit leaves of the first table on the way. -/
theorem lookup_editAt_of_ne {k k' : κ} (h : k ≠ k') (path : List κ) (v : Option (KeyedTree κ σ)) :
    lookup (editAt drop es (k :: path) v) k' = lookup es k' := by
  have hset : ∀ u, lookup (setEntries k u es) k' = lookup es k' := by
    intro u
    rw [lookup_setEntries, if_neg h]
  have hremove : lookup (es.filter fun e ↦ e.1 ≠ k) k' = lookup es k' := by
    rw [lookup_filter, if_neg h]
  cases v with
  | some v =>
    cases path with
    | nil => exact hset v
    | cons k'' path => exact hset _
  | none =>
    cases path with
    | nil => exact hremove
    | cons k'' path =>
      rw [editAt, removeAt]
      split
      · dsimp only
        split
        · exact hremove
        · exact hset _
      · rfl

theorem removeAt_nil (path : List κ) :
    removeAt drop ([] : Entries κ σ) path = [] := by
  cases path with
  | nil => rfl
  | cons k path =>
    cases path with
    | nil => rfl
    | cons k' path => rfl

/-- **What an edit does one table down**: it is the edit of that table. -/
theorem sub_editAt (k k' : κ) (path : List κ) (v : Option (KeyedTree κ σ)) :
    sub (lookup (editAt drop es (k :: k' :: path) v) k) =
      editAt drop (sub (lookup es k)) (k' :: path) v := by
  cases v with
  | some v =>
    rw [editAt, setAt, lookup_setEntries, if_pos rfl]
    rfl
  | none =>
    rw [editAt, editAt, removeAt]
    split
    · rename_i entries hk
      have hsub : sub (some (table entries)) = entries := rfl
      dsimp only
      split_ifs with hdrop
      · -- The table that is dropped had nothing left in it.
        rw [lookup_filter, if_pos rfl, hk, hsub, List.isEmpty_iff.mp hdrop.2.1]
        rfl
      · rw [lookup_setEntries, if_pos rfl, hk]
        rfl
    · rename_i hno
      have hsub : sub (lookup es k) = [] := by
        unfold sub
        split
        · exact absurd ‹_› (hno _)
        · rfl
      rw [hsub, removeAt_nil]

theorem getAt_cons_cons (k k' : κ) (path : List κ) :
    getAt es (k :: k' :: path) = getAt (sub (lookup es k)) (k' :: path) := rfl

/-- **What stands at the path of an edit.** -/
theorem getAt_editAt_self {path : List κ} (h : path ≠ [])
    (v : Option (KeyedTree κ σ)) : getAt (editAt drop es path v) path = v := by
  induction path generalizing es with
  | nil => exact absurd rfl h
  | cons k path ih =>
    cases path with
    | nil =>
      cases v with
      | some v => exact (lookup_setEntries k k v es).trans (if_pos rfl)
      | none => exact (lookup_filter k k es).trans (if_pos rfl)
    | cons k' path =>
      rw [getAt_cons_cons, sub_editAt]
      exact ih _ (List.cons_ne_nil k' path)

/-- **What stands at a path that leads elsewhere**: none of the two goes on from the other. -/
theorem getAt_editAt_of_apart {path path' : List κ}
    (h : ¬path <+: path') (h' : ¬path' <+: path) (v : Option (KeyedTree κ σ)) :
    getAt (editAt drop es path v) path' = getAt es path' := by
  induction path generalizing es path' with
  | nil => exact absurd (List.nil_prefix) h
  | cons k path ih =>
    cases path' with
    | nil => exact absurd (List.nil_prefix) h'
    | cons k' path' =>
      by_cases hk : k = k'
      · subst hk
        rw [List.prefix_cons_inj] at h h'
        cases path with
        | nil => exact absurd (List.nil_prefix) h
        | cons a path =>
          cases path' with
          | nil => exact absurd (List.nil_prefix) h'
          | cons a' path' =>
            rw [getAt_cons_cons, sub_editAt, getAt_cons_cons]
            exact ih _ h h'
      · have hlookup := lookup_editAt_of_ne drop es hk path v
        cases path' with
        | nil => exact hlookup
        | cons a' path' => rw [getAt_cons_cons, getAt_cons_cons, hlookup]

end KeyedTree
