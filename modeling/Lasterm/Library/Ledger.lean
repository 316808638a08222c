import Mathlib.Data.List.Infix
import Mathlib.Data.List.Indexes

/-!
# Accounting for what was sent

Things are sent one after another, and a store that is lossy by design keeps some of them.
`Accounts` says that what it has is, in order, some of what was sent, and that there is a reason for
everything else. It holds through the two things that such a store does: it takes one thing more,
and it loses one.

`numbered` gives equal things different names, so that "in order" includes "once".
-/

namespace Ledger

variable {α : Type*}

/-- A thing with its place among all that was sent. -/
structure Numbered (α : Type*) where
  number : ℕ
  value : α
  deriving DecidableEq

def numbered (xs : List α) : List (Numbered α) := xs.mapIdx Numbered.mk

theorem map_value_numbered (xs : List α) : (numbered xs).map Numbered.value = xs := by
  rw [numbered, List.mapIdx_eq_zipIdx_map, List.map_map]
  exact List.zipIdx_map_fst 0 xs

theorem numbered_concat (xs : List α) (x : α) :
    numbered (xs ++ [x]) = numbered xs ++ [⟨xs.length, x⟩] := List.mapIdx_concat

theorem pairwise_numbered (xs : List α) : (numbered xs).Pairwise (·.number < ·.number) := by
  rw [List.pairwise_iff_getElem]
  intro i j hi hj hij
  simp only [numbered, List.getElem_mapIdx]
  exact hij

/-- `present` is left of `sent`, and what is not there was lost for a reason. -/
structure Accounts (Lost : α → Prop) (sent present : List α) : Prop where
  order : present.Sublist sent
  lost : ∀ x ∈ sent, x ∉ present → Lost x

namespace Accounts

variable {Lost Lost' : α → Prop} {sent present a b : List α} {x : α}

theorem nil : Accounts Lost [] [] := ⟨List.Sublist.refl _, fun _ h ↦ absurd h List.not_mem_nil⟩

theorem mono (h : Accounts Lost sent present) (hlost : ∀ x, Lost x → Lost' x) :
    Accounts Lost' sent present :=
  ⟨h.order, fun x hx hmissing ↦ hlost x (h.lost x hx hmissing)⟩

/-- One thing more is sent and taken. -/
theorem push (h : Accounts Lost sent present) (x : α) :
    Accounts Lost (sent ++ [x]) (present ++ [x]) := by
  refine ⟨h.order.append (List.Sublist.refl _), fun y hy hmissing ↦ ?_⟩
  rw [List.mem_append, not_or] at hmissing
  rcases List.mem_append.mp hy with hy | hy
  · exact h.lost y hy hmissing.1
  · exact absurd hy hmissing.2

/-- One thing is lost. -/
theorem lose (h : Accounts Lost sent (a ++ x :: b)) (hx : Lost x) :
    Accounts Lost sent (a ++ b) := by
  refine ⟨?_, fun y hy hmissing ↦ ?_⟩
  · exact ((List.Sublist.refl a).append (List.sublist_cons_self x b)).trans h.order
  · by_cases hxy : y = x
    · exact hxy ▸ hx
    · refine h.lost y hy fun hmem ↦ hmissing ?_
      rw [List.mem_append, List.mem_cons] at hmem
      rw [List.mem_append]
      exact hmem.imp_right fun hb ↦ hb.resolve_left hxy

end Accounts

end Ledger
