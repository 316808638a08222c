import Mathlib.Data.List.Basic
import Mathlib.Data.Nat.Notation

/-!
# Trees of splits

Binary trees with a label at every split and a value at every leaf, as a region has that is cut in
two again and again.

A place in a tree is given in two ways. A *path* says which half to enter at every split, and is
what programs use: they search a tree for the path of a leaf, read what stands at a path and put
something else there. A *context* is a tree with a hole, and is what proofs use: it holds everything
that an edit at the place leaves alone. To write at the path of a context is to fill its hole
(`setAt_plug`), and the leaves of a filled context are those before the hole, those of what fills it
and those behind (`leaves_plug`).

A search goes from left to right and gives the path of the first leaf with the property;
`exists_context_of_findPath` gives the context with that path.
-/

/-- A tree with labels at the splits and values at the leaves. -/
inductive SplitTree (ν α : Type*) where
  | leaf (a : α)
  | split (label : ν) (first second : SplitTree ν α)

namespace SplitTree

variable {ν α : Type*}

/-- The half of a split that is entered. -/
inductive Turn where
  | first
  | second
  deriving DecidableEq

abbrev Path := List Turn

/-- The values of the leaves from left to right. -/
def leaves : SplitTree ν α → List α
  | leaf a => [a]
  | split _ first second => first.leaves ++ second.leaves

@[simp] theorem leaves_leaf (a : α) : (leaf a : SplitTree ν α).leaves = [a] := rfl

@[simp] theorem leaves_split (label : ν) (first second : SplitTree ν α) :
    (split label first second).leaves = first.leaves ++ second.leaves := rfl

theorem leaves_ne_nil (t : SplitTree ν α) : t.leaves ≠ [] := by
  induction t with
  | leaf a => exact List.cons_ne_nil a []
  | split label first second ihfirst ihsecond =>
    rw [leaves_split]
    exact fun h ↦ ihfirst (List.append_eq_nil_iff.mp h).1

/-! ## Paths -/

def get : SplitTree ν α → Path → Option (SplitTree ν α)
  | t, [] => some t
  | leaf _, _ :: _ => none
  | split _ first _, .first :: path => first.get path
  | split _ _ second, .second :: path => second.get path

/-- Put a tree at a path; a path that leaves the tree changes nothing. -/
def setAt : SplitTree ν α → Path → SplitTree ν α → SplitTree ν α
  | _, [], new => new
  | leaf a, _ :: _, _ => leaf a
  | split label first second, .first :: path, new => split label (first.setAt path new) second
  | split label first second, .second :: path, new => split label first (second.setAt path new)

/-- The path of the first leaf with the property. -/
def findPath (p : α → Bool) : SplitTree ν α → Option Path
  | leaf a => if p a then some [] else none
  | split _ first second =>
    match first.findPath p with
    | some path => some (.first :: path)
    | none =>
      match second.findPath p with
      | some path => some (.second :: path)
      | none => none

/-- Put a tree in the place of the first leaf with the property. -/
def replaceFirst (p : α → Bool) : SplitTree ν α → SplitTree ν α → Option (SplitTree ν α)
  | leaf a, new => if p a then some new else none
  | split label first second, new =>
    match first.replaceFirst p new with
    | some first' => some (split label first' second)
    | none =>
      match second.replaceFirst p new with
      | some second' => some (split label first second')
      | none => none

/-! ## Contexts -/

/-- A split with a hole in one half. -/
structure Frame (ν α : Type*) where
  label : ν
  /-- The half where the hole is. -/
  turn : Turn
  /-- The other half. -/
  sibling : SplitTree ν α

namespace Frame

def plug (f : Frame ν α) (t : SplitTree ν α) : SplitTree ν α :=
  match f.turn with
  | .first => split f.label t f.sibling
  | .second => split f.label f.sibling t

/-- The leaves to the left of the hole. -/
def before (f : Frame ν α) : List α :=
  match f.turn with
  | .first => []
  | .second => f.sibling.leaves

/-- The leaves to the right of the hole. -/
def after (f : Frame ν α) : List α :=
  match f.turn with
  | .first => f.sibling.leaves
  | .second => []

theorem leaves_plug (f : Frame ν α) (t : SplitTree ν α) :
    (f.plug t).leaves = f.before ++ t.leaves ++ f.after := by
  obtain ⟨label, turn, sibling⟩ := f
  cases turn with
  | first => rfl
  | second => exact (List.append_nil _).symm

theorem leaves_sibling (f : Frame ν α) : f.sibling.leaves = f.before ++ f.after := by
  obtain ⟨label, turn, sibling⟩ := f
  cases turn with
  | first => rfl
  | second => exact (List.append_nil _).symm

theorem get_plug (f : Frame ν α) (t : SplitTree ν α) (path : Path) :
    (f.plug t).get (f.turn :: path) = t.get path := by
  obtain ⟨label, turn, sibling⟩ := f
  cases turn <;> rfl

theorem setAt_plug (f : Frame ν α) (t new : SplitTree ν α) (path : Path) :
    (f.plug t).setAt (f.turn :: path) new = f.plug (t.setAt path new) := by
  obtain ⟨label, turn, sibling⟩ := f
  cases turn <;> rfl

end Frame

/-- A tree with a hole: the splits above the hole, from the root on. -/
abbrev Context (ν α : Type*) := List (Frame ν α)

namespace Context

def plug (c : Context ν α) (t : SplitTree ν α) : SplitTree ν α := c.foldr Frame.plug t

def path (c : Context ν α) : Path := c.map Frame.turn

def before : Context ν α → List α
  | [] => []
  | f :: c => f.before ++ before c

def after : Context ν α → List α
  | [] => []
  | f :: c => after c ++ f.after

@[simp] theorem plug_nil (t : SplitTree ν α) : plug [] t = t := rfl

@[simp] theorem plug_cons (f : Frame ν α) (c : Context ν α) (t : SplitTree ν α) :
    plug (f :: c) t = f.plug (plug c t) := rfl

theorem plug_append (c d : Context ν α) (t : SplitTree ν α) :
    plug (c ++ d) t = plug c (plug d t) := List.foldr_append

theorem before_append (c d : Context ν α) : before (c ++ d) = before c ++ before d := by
  induction c with
  | nil => rfl
  | cons f c ih => rw [List.cons_append, before, ih, before, List.append_assoc]

theorem after_append (c d : Context ν α) : after (c ++ d) = after d ++ after c := by
  induction c with
  | nil => exact (List.append_nil _).symm
  | cons f c ih => rw [List.cons_append, after, ih, after, List.append_assoc]

theorem leaves_plug (c : Context ν α) (t : SplitTree ν α) :
    (plug c t).leaves = before c ++ t.leaves ++ after c := by
  induction c with
  | nil => exact (List.append_nil _).symm
  | cons f c ih =>
    rw [plug_cons, Frame.leaves_plug, ih, before, after]
    simp only [List.append_assoc]

/-- The context without its innermost split, in the hole of which the other half of that split
comes.
-/
def close (c : Context ν α) : Option (SplitTree ν α) :=
  c.getLast?.map fun f ↦ plug c.dropLast f.sibling

@[simp] theorem close_nil : close ([] : Context ν α) = none := rfl

@[simp] theorem close_concat (c : Context ν α) (f : Frame ν α) :
    close (c ++ [f]) = some (plug c f.sibling) := by
  rw [close, List.getLast?_concat, List.dropLast_concat, Option.map_some]

/-- To close a hole takes away what filled it, and no other leaf. -/
theorem leaves_close {c : Context ν α} {t : SplitTree ν α} (h : close c = some t) :
    t.leaves = before c ++ after c := by
  obtain rfl | ⟨c, f, rfl⟩ := c.eq_nil_or_concat'
  · cases h
  · rw [close_concat] at h
    cases h
    rw [leaves_plug, f.leaves_sibling, before_append, after_append, before, before, after, after]
    simp only [List.append_nil, List.nil_append, List.append_assoc]

theorem close_eq_none_iff {c : Context ν α} : close c = none ↔ c = [] := by
  rw [close, Option.map_eq_none_iff, List.getLast?_eq_none_iff]

theorem get_plug (c : Context ν α) (t : SplitTree ν α) : (plug c t).get (path c) = some t := by
  induction c with
  | nil => rw [plug_nil, path, List.map_nil, get]
  | cons f c ih => rw [plug_cons, path, List.map_cons, Frame.get_plug]; exact ih

theorem setAt_plug (c : Context ν α) (t new : SplitTree ν α) :
    (plug c t).setAt (path c) new = plug c new := by
  induction c with
  | nil => rw [plug_nil, path, List.map_nil, setAt, plug_nil]
  | cons f c ih =>
    rw [plug_cons, path, List.map_cons, Frame.setAt_plug, plug_cons]
    exact congrArg f.plug ih

/-- There is something to close exactly if the leaf in the hole is not the only one. -/
theorem close_ne_none_iff {c : Context ν α} (a : α) :
    close c ≠ none ↔ 1 < (plug c (leaf a)).leaves.length := by
  rw [ne_eq, close_eq_none_iff]
  cases c with
  | nil => exact iff_of_false (fun h ↦ h rfl) (by rw [plug_nil, leaves_leaf]; exact Nat.lt_irrefl 1)
  | cons f c =>
    refine iff_of_true (List.cons_ne_nil f c) ?_
    have hsibling := congrArg List.length f.leaves_sibling
    have hpos := List.length_pos_iff.mpr f.sibling.leaves_ne_nil
    have hrest := List.length_pos_iff.mpr (plug c (leaf a)).leaves_ne_nil
    rw [List.length_append] at hsibling
    rw [plug_cons, Frame.leaves_plug, List.length_append, List.length_append]
    omega

end Context

open Context

/-! ## Searching -/

section Search

variable {p : α → Bool} {t new : SplitTree ν α} {path : Path}

theorem findPath_eq_none_iff : t.findPath p = none ↔ ∀ a ∈ t.leaves, p a = false := by
  induction t with
  | leaf a => simp [findPath]
  | split label first second ihfirst ihsecond =>
    rw [findPath, leaves_split, List.forall_mem_append, ← ihfirst, ← ihsecond]
    cases first.findPath p <;> cases second.findPath p <;> simp

/-- What is found is the first leaf with the property. -/
theorem exists_context_of_findPath (h : t.findPath p = some path) : ∃ (c : Context ν α) (a : α),
    t = plug c (leaf a) ∧ path = c.path ∧ p a = true ∧ ∀ b ∈ before c, p b = false := by
  induction t generalizing path with
  | leaf a =>
    rw [findPath] at h
    split at h
    · rename_i ha
      cases h
      exact ⟨[], a, rfl, rfl, ha, fun b hb ↦ absurd hb List.not_mem_nil⟩
    · cases h
  | split label first second ihfirst ihsecond =>
    rw [findPath] at h
    cases hfirst : first.findPath p with
    | some inFirst =>
      rw [hfirst] at h
      cases h
      obtain ⟨c, a, rfl, rfl, ha, hbefore⟩ := ihfirst hfirst
      exact ⟨⟨label, .first, second⟩ :: c, a, rfl, rfl, ha, hbefore⟩
    | none =>
      rw [hfirst] at h
      cases hsecond : second.findPath p with
      | some inSecond =>
        rw [hsecond] at h
        cases h
        obtain ⟨c, a, rfl, rfl, ha, hbefore⟩ := ihsecond hsecond
        -- Nothing was found in the first half, so all of it comes before the hole.
        have hnone := findPath_eq_none_iff.mp hfirst
        exact ⟨⟨label, .second, first⟩ :: c, a, rfl, rfl, ha,
          List.forall_mem_append.mpr ⟨hnone, hbefore⟩⟩
      | none =>
        rw [hsecond] at h
        cases h

/-- To replace is to search and to write. -/
theorem replaceFirst_eq :
    t.replaceFirst p new = (t.findPath p).map fun path ↦ t.setAt path new := by
  induction t with
  | leaf a =>
    rw [replaceFirst, findPath]
    split <;> rfl
  | split label first second ihfirst ihsecond =>
    rw [replaceFirst, findPath, ihfirst, ihsecond]
    cases first.findPath p with
    | some path => rfl
    | none => cases second.findPath p <;> rfl

end Search

end SplitTree
