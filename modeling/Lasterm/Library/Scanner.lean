import Mathlib.Data.List.Basic

/-!
# Scanners

A scanner reads a text from left to right. At each character it takes a token, which is that
character and perhaps some of those behind it, and puts out a text for it.

Also here is the delimiter that ends at the first occurrence of a character (`splitAtFirst`), and
what the parts of a text between delimiters are (`mem_splitOnP_iff`).
-/

/-- What a scanner puts out for the text that starts with a character, and what is left of it. -/
structure Scanner (α : Type*) where
  token : α → List α → List α × List α
  shortens : ∀ c cs, (token c cs).2.length ≤ cs.length

namespace Scanner

variable {α : Type*} (m : Scanner α)

def scan : List α → List α
  | [] => []
  | c :: cs => (m.token c cs).1 ++ scan (m.token c cs).2
termination_by text => text.length
decreasing_by
  have hle := m.shortens c cs
  rw [List.length_cons]
  omega

@[simp] theorem scan_nil : m.scan [] = [] := by
  rw [scan]

theorem scan_of_token {c : α} {cs out rest : List α} (h : m.token c cs = (out, rest)) :
    m.scan (c :: cs) = out ++ m.scan rest := by
  rw [scan, h]

/-- A character that is put out as it is. -/
theorem scan_of_char {c : α} {cs : List α} (h : m.token c cs = ([c], cs)) :
    m.scan (c :: cs) = c :: m.scan cs := m.scan_of_token h

end Scanner

section Delimiter

variable {α : Type*} [DecidableEq α] (d : α)

/-- The text in front of the first `d`, and the text behind it. -/
def splitAtFirst : List α → Option (List α × List α)
  | [] => none
  | c :: cs => if c = d then some ([], cs) else (splitAtFirst cs).map fun s ↦ (c :: s.1, s.2)

variable {d} {text before rest : List α}

theorem splitAtFirst_eq_some :
    splitAtFirst d text = some (before, rest) ↔ text = before ++ d :: rest ∧ d ∉ before := by
  induction text generalizing before with
  | nil =>
    refine iff_of_false nofun fun h ↦ ?_
    have hlength := congrArg List.length h.1
    simp at hlength
  | cons c cs ih =>
    rw [splitAtFirst]
    split
    · rename_i hc
      subst hc
      constructor
      · intro h
        cases h
        exact ⟨rfl, List.not_mem_nil⟩
      · rintro ⟨heq, hmem⟩
        cases before with
        | nil =>
          cases heq
          rfl
        | cons c' before =>
          cases heq
          exact absurd List.mem_cons_self hmem
    · rename_i hc
      constructor
      · intro h
        obtain ⟨⟨before', rest'⟩, hsplit, heq⟩ := Option.map_eq_some_iff.mp h
        cases heq
        obtain ⟨rfl, hmem⟩ := ih.mp hsplit
        refine ⟨rfl, ?_⟩
        rw [List.mem_cons, not_or]
        exact ⟨fun h ↦ hc h.symm, hmem⟩
      · rintro ⟨heq, hmem⟩
        cases before with
        | nil =>
          cases heq
          exact absurd rfl hc
        | cons c' before =>
          cases heq
          rw [ih.mpr ⟨rfl, fun h ↦ hmem (List.mem_cons_of_mem _ h)⟩]
          rfl

end Delimiter

section Segments

variable {α : Type*} {p : α → Bool} {w xs : List α}

/-- The parts between delimiters are what stands between two of them, or between one and an end of
the text. -/
theorem mem_splitOnP_iff (hw : ∀ a ∈ w, p a = false) :
    w ∈ xs.splitOnP p ↔ ∃ front back, xs = front ++ w ++ back ∧
      (∀ a ∈ front.getLast?, p a = true) ∧ ∀ a ∈ back.head?, p a = true := by
  constructor
  · intro hmem
    induction hn : xs.length using Nat.strongRecOn generalizing xs with
    | ind n ih =>
      subst hn
      cases hsep : xs.find? p with
      | none =>
        rw [List.find?_eq_none] at hsep
        rw [List.splitOnP_eq_singleton fun a ha ↦ by simpa using hsep a ha,
          List.mem_singleton] at hmem
        exact ⟨[], [], by simp [hmem], by simp, by simp⟩
      | some sep =>
        obtain ⟨hp, segment, rest, rfl, hsegment⟩ := List.find?_eq_some_iff_append.mp hsep
        rw [List.splitOnP_append_cons_of_forall_mem (fun a ha ↦ by simpa using hsegment a ha) sep
          hp, List.mem_cons] at hmem
        rcases hmem with rfl | hmem
        · exact ⟨[], sep :: rest, rfl, by simp, by simpa using hp⟩
        · obtain ⟨front, back, rfl, hfront, hback⟩ := ih rest.length
            (by rw [List.length_append, List.length_cons]; omega) hmem rfl
          refine ⟨segment ++ sep :: front, back, by simp, ?_, hback⟩
          rw [List.getLast?_append, List.getLast?_cons]
          cases hlast : front.getLast? with
          | none => simpa using hp
          | some a => simpa using hfront a hlast
  · rintro ⟨front, back, rfl, hfront, hback⟩
    have hmem : w ∈ (w ++ back).splitOnP p := by
      cases back with
      | nil => rw [List.append_nil, List.splitOnP_eq_singleton hw]; exact List.mem_cons_self
      | cons sep back =>
        rw [List.splitOnP_append_cons_of_forall_mem hw sep (hback sep rfl)]
        exact List.mem_cons_self
    rw [List.append_assoc]
    rcases List.eq_nil_or_concat front with rfl | ⟨front, sep, rfl⟩
    · exact hmem
    · have hsep : p sep = true := hfront sep (by simp)
      rw [List.concat_eq_append, List.append_assoc, List.singleton_append,
        List.splitOnP_append_cons _ _ hsep]
      exact List.mem_append_right _ hmem

end Segments
