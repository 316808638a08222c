import Mathlib.Data.List.Nodup

/-!
# Sets that remember the order of insertion

Lists without duplicates, for code that walks over a set in the order in which its elements came in.
Membership after `add` and `delete` is the interface.
-/

/-- A finite set with its elements in order of insertion. -/
structure OrderedSet (α : Type*) where
  elems : List α
  nodup : elems.Nodup

namespace OrderedSet

variable {α : Type*} {s : OrderedSet α}

instance : Membership α (OrderedSet α) := ⟨fun s a ↦ a ∈ s.elems⟩

def empty : OrderedSet α := ⟨[], List.nodup_nil⟩

def singleton (a : α) : OrderedSet α := ⟨[a], List.nodup_singleton a⟩

theorem mem_def {a : α} : a ∈ s ↔ a ∈ s.elems := Iff.rfl

@[simp] theorem not_mem_empty (a : α) : a ∉ (empty : OrderedSet α) := List.not_mem_nil

@[simp] theorem mem_singleton {a b : α} : b ∈ singleton a ↔ b = a := List.mem_singleton

def isEmpty (s : OrderedSet α) : Bool := s.elems.isEmpty

theorem isEmpty_iff : s.isEmpty = true ↔ ∀ a, a ∉ s := by
  rw [isEmpty, List.isEmpty_iff, List.eq_nil_iff_forall_not_mem]
  exact Iff.rfl

instance (s : OrderedSet α) (p : α → Prop) [DecidablePred p] : Decidable (∀ a, a ∈ s → p a) :=
  inferInstanceAs (Decidable (∀ a ∈ s.elems, p a))

variable [DecidableEq α]

instance (a : α) (s : OrderedSet α) : Decidable (a ∈ s) := inferInstanceAs (Decidable (a ∈ s.elems))

instance (s t : OrderedSet α) : Decidable (∀ a, a ∈ s ↔ a ∈ t) :=
  decidable_of_iff ((∀ a, a ∈ s → a ∈ t) ∧ ∀ a, a ∈ t → a ∈ s)
    ⟨fun h a ↦ ⟨h.1 a, h.2 a⟩, fun h ↦ ⟨fun a ↦ (h a).mp, fun a ↦ (h a).mpr⟩⟩

/-- An element that is there already keeps its place. -/
def add (s : OrderedSet α) (a : α) : OrderedSet α where
  elems := if a ∈ s.elems then s.elems else s.elems ++ [a]
  nodup := by
    split
    · exact s.nodup
    · rename_i hnot
      rw [List.nodup_append]
      refine ⟨s.nodup, List.nodup_singleton a, ?_⟩
      rintro b hb c hc rfl
      exact hnot (List.mem_singleton.mp hc ▸ hb)

def delete (s : OrderedSet α) (a : α) : OrderedSet α :=
  ⟨s.elems.filter (· ≠ a), s.nodup.filter _⟩

@[simp] theorem mem_add {a b : α} : b ∈ s.add a ↔ b = a ∨ b ∈ s := by
  rw [mem_def, mem_def, add]
  split
  · rename_i hmem
    constructor
    · exact Or.inr
    · rintro (rfl | hb)
      · exact hmem
      · exact hb
  · rw [List.mem_append, List.mem_singleton, or_comm]

@[simp] theorem mem_delete {a b : α} : b ∈ s.delete a ↔ b ∈ s ∧ b ≠ a := by
  rw [mem_def, mem_def, delete, List.mem_filter]
  simp

theorem delete_of_not_mem {a : α} (ha : a ∉ s) : s.delete a = s := by
  rcases s with ⟨elems, hnodup⟩
  have helems : elems.filter (· ≠ a) = elems := by
    rw [List.filter_eq_self]
    intro b hb
    rw [decide_eq_true_iff]
    rintro rfl
    exact ha hb
  simp only [delete, helems]

end OrderedSet
