import Lasterm.Library.Scanner
import Lasterm.Library.Utf16

/-!
# Paths of executables

`validateShell` and `validateCustomCommand` of `validation.ts` are two cascades of tests on the path
of an executable that a client asks for. They report what is wrong in different ways and in
different words, and they accept the same texts: those that are absolute paths in a small character
set and have no segment `..`.

A text is the list of its UTF-16 code units, which is what `length` counts and what the regular
expressions read.
-/

namespace Lasterm.Validation

open Utf16

/-- `[/\\]`. -/
def isSeparator (u : UInt16) : Bool := u = unit '/' || u = unit '\\'

/-- `[a-zA-Z0-9/\\._ :-]`. -/
def isPathUnit (u : UInt16) : Bool := isLetter u || isDigit u || u ∈ ascii "/\\._ :-"

/-- `^[a-zA-Z0-9/\\._ :-]+$`. -/
def allowlistRe (s : Units) : Bool := s ≠ [] && s.all isPathUnit

/-- `[;&|$()<>\n\r]`, and the backtick. -/
def metaRe (s : Units) : Bool := s.any (· ∈ ascii ";&|$`()<>\n\r")

/-- `^[A-Za-z]:[/\\]`. -/
def windowsAbsoluteRe : Units → Bool
  | drive :: colon :: sep :: _ => isLetter drive && colon = unit ':' && isSeparator sep
  | _ => false

def isAbsolute (s : Units) : Bool :=
  (ascii "/").isPrefixOf s || windowsAbsoluteRe s

def dotDot : Units := ascii ".."

/-- Two dots and a separator. -/
def startsWithDotDot : Units → Bool
  | a :: b :: sep :: _ => a = unit '.' && b = unit '.' && isSeparator sep
  | _ => false

/-- Two dots between separators somewhere. -/
def hasInnerDotDot : Units → Bool
  | [] => false
  | u :: s => (isSeparator u && startsWithDotDot s) || hasInnerDotDot s

/-- `(?:^|[/\\])\.\.[/\\]`. -/
def traversalRe (s : Units) : Bool := startsWithDotDot s || hasInnerDotDot s

def isTraversal (s : Units) : Bool :=
  traversalRe s || (ascii "/..").isSuffixOf s || (ascii "\\..").isSuffixOf s

structure ValidationError where
  code : String
  message : String

def invalidCustomCommand (message : String) : Except ValidationError Unit :=
  .error ⟨"INVALID_CUSTOM_COMMAND", message⟩

def validateCustomCommand (cmd : Units) : Except ValidationError Unit :=
  if cmd = [] then invalidCustomCommand "custom_command must not be empty"
  else if 4096 < cmd.length then invalidCustomCommand "custom_command exceeds maximum length"
  else if cmd.any (127 < ·) then
    invalidCustomCommand "custom_command must contain only ASCII characters"
  else if 0 ∈ cmd then invalidCustomCommand "custom_command contains invalid characters"
  else if !allowlistRe cmd then invalidCustomCommand "custom_command contains invalid characters"
  else if !isAbsolute cmd then invalidCustomCommand "custom_command must be an absolute path"
  else if isTraversal cmd then
    invalidCustomCommand "custom_command must not contain path traversal"
  else .ok ()

/-- What a message may have for `shell`. -/
inductive ShellField
  /-- `null` or `undefined`. -/
  | absent
  | string (s : Units)
  /-- A value of another type. -/
  | other

/-- `none` is for a valid field. -/
def validateShell : ShellField → Option String
  | .absent => none
  | .other => some "shell must be a string"
  | .string shell =>
    if shell = [] then some "shell must not be empty"
    else if 4096 < shell.length then some "shell must be 4096 characters or fewer"
    else if 0 ∈ shell then some "shell contains invalid characters"
    else if metaRe shell then some "shell must be an executable path, not a command"
    else if !allowlistRe shell then some "shell contains invalid characters"
    else if !isAbsolute shell then some "shell must be an absolute path"
    else if isTraversal shell then some "shell must not contain path traversal"
    else none

/-! ## The rule -/

/-- An absolute path begins with a slash, or with a drive and a separator. -/
def IsAbsolutePath (s : Units) : Prop :=
  (∃ rest, s = unit '/' :: rest) ∨
    ∃ drive sep rest, s = drive :: unit ':' :: sep :: rest ∧ isLetter drive = true ∧
      isSeparator sep = true

/-- What both functions are to accept. -/
structure IsExecutablePath (s : Units) : Prop where
  length_le : s.length ≤ 4096
  units : ∀ u ∈ s, isPathUnit u = true
  absolute : IsAbsolutePath s
  no_traversal : ∀ segment ∈ s.splitOnP isSeparator, segment ≠ dotDot

/-! ## The tests -/

variable {s : Units}

theorem isAbsolute_iff : isAbsolute s = true ↔ IsAbsolutePath s := by
  have hwindows : windowsAbsoluteRe s = true ↔ ∃ drive sep rest,
      s = drive :: unit ':' :: sep :: rest ∧ isLetter drive = true ∧ isSeparator sep = true := by
    constructor
    · intro h
      rw [windowsAbsoluteRe.eq_def] at h
      split at h
      · rename_i drive colon sep rest
        rw [Bool.and_eq_true, Bool.and_eq_true, decide_eq_true_eq] at h
        exact ⟨drive, sep, rest, by rw [h.1.2], h.1.1, h.2⟩
      · cases h
    · rintro ⟨drive, sep, rest, rfl, hdrive, hsep⟩
      rw [windowsAbsoluteRe, hdrive, hsep]
      rfl
  rw [isAbsolute, Bool.or_eq_true, hwindows, List.isPrefixOf_iff_prefix]
  refine or_congr_left ⟨?_, ?_⟩
  · rintro ⟨rest, rfl⟩
    exact ⟨rest, rfl⟩
  · rintro ⟨rest, rfl⟩
    exact ⟨rest, rfl⟩

theorem startsWithDotDot_iff :
    startsWithDotDot s = true ↔ ∃ sep rest, s = dotDot ++ sep :: rest ∧ isSeparator sep = true := by
  constructor
  · intro h
    rw [startsWithDotDot.eq_def] at h
    split at h
    · rename_i a b sep rest
      rw [Bool.and_eq_true, Bool.and_eq_true, decide_eq_true_eq, decide_eq_true_eq] at h
      exact ⟨sep, rest, by rw [h.1.1, h.1.2]; rfl, h.2⟩
    · cases h
  · rintro ⟨sep, rest, rfl, hsep⟩
    exact hsep

theorem hasInnerDotDot_iff :
    hasInnerDotDot s = true ↔ ∃ front u back, s = front ++ u :: back ∧ isSeparator u = true ∧
      startsWithDotDot back = true := by
  induction s with
  | nil =>
    refine iff_of_false Bool.false_ne_true ?_
    rintro ⟨front, u, back, h, -⟩
    exact List.append_ne_nil_of_right_ne_nil front (List.cons_ne_nil u back) h.symm
  | cons v s ih =>
    rw [hasInnerDotDot, Bool.or_eq_true, Bool.and_eq_true, ih]
    constructor
    · rintro (⟨hv, hs⟩ | ⟨front, u, back, rfl, hu, hback⟩)
      · exact ⟨[], v, s, rfl, hv, hs⟩
      · exact ⟨v :: front, u, back, rfl, hu, hback⟩
    · rintro ⟨front, u, back, heq, hu, hback⟩
      rcases List.cons_eq_append_iff.mp heq with ⟨rfl, h⟩ | ⟨front, rfl, rfl⟩
      · obtain ⟨rfl, rfl⟩ := List.cons_eq_cons.mp h
        exact .inl ⟨hu, hback⟩
      · exact .inr ⟨front, u, back, rfl, hu, hback⟩

theorem dotDot_units : ∀ u ∈ dotDot, isSeparator u = false :=
  List.all_iff_forall_prop.mp (by decide)

theorem isSeparator_iff {u : UInt16} : isSeparator u = true ↔ u = unit '/' ∨ u = unit '\\' := by
  rw [isSeparator, Bool.or_eq_true, decide_eq_true_eq, decide_eq_true_eq]

/-- The three tests find `..` where it is a segment beside another one. -/
theorem isTraversal_iff :
    isTraversal s = true ↔ s ≠ dotDot ∧ dotDot ∈ s.splitOnP isSeparator := by
  rw [mem_splitOnP_iff dotDot_units, isTraversal, traversalRe, Bool.or_eq_true, Bool.or_eq_true,
    Bool.or_eq_true, List.isSuffixOf_iff_suffix, List.isSuffixOf_iff_suffix, startsWithDotDot_iff,
    hasInnerDotDot_iff]
  have hsuffix (front : Units) (u : UInt16) (hu : isSeparator u = true) :
      front ++ u :: dotDot ≠ dotDot ∧
        ∃ front' back, front ++ u :: dotDot = front' ++ dotDot ++ back ∧
          (∀ a ∈ front'.getLast?, isSeparator a = true) ∧
            ∀ a ∈ back.head?, isSeparator a = true := by
    refine ⟨fun h ↦ ?_, front ++ [u], [], by simp, by simpa using hu, by simp⟩
    have hlength := congrArg List.length h
    rw [List.length_append, List.length_cons] at hlength
    omega
  constructor
  · rintro (((⟨sep, rest, rfl, hsep⟩ | ⟨front, u, back, rfl, hu, hback⟩) | ⟨front, rfl⟩) |
      ⟨front, rfl⟩)
    · exact ⟨by simp, [], sep :: rest, rfl, by simp, by simpa using hsep⟩
    · obtain ⟨sep, rest, rfl, hsep⟩ := startsWithDotDot_iff.mp hback
      refine ⟨fun h ↦ ?_, front ++ [u], sep :: rest, by simp, by simpa using hu,
        by simpa using hsep⟩
      have hlength := congrArg List.length h
      simp at hlength
      omega
    · exact hsuffix front (unit '/') (by decide)
    · exact hsuffix front (unit '\\') (by decide)
  · rintro ⟨hne, front, back, rfl, hfront, hback⟩
    rcases List.eq_nil_or_concat front with rfl | ⟨front, u, rfl⟩
    · cases back with
      | nil => exact absurd (by simp) hne
      | cons sep back => exact .inl (.inl (.inl ⟨sep, back, rfl, hback sep rfl⟩))
    · have hu : isSeparator u = true := hfront u (by simp)
      cases back with
      | nil =>
        rcases isSeparator_iff.mp hu with rfl | rfl
        · exact .inl (.inr ⟨front, by simp [ascii, dotDot]⟩)
        · exact .inr ⟨front, by simp [ascii, dotDot]⟩
      | cons sep back =>
        exact .inl (.inl (.inr ⟨front, u, dotDot ++ sep :: back, by simp, hu,
          startsWithDotDot_iff.mpr ⟨sep, back, rfl, hback sep rfl⟩⟩))

theorem allowlistRe_iff : allowlistRe s = true ↔ s ≠ [] ∧ ∀ u ∈ s, isPathUnit u = true := by
  rw [allowlistRe, Bool.and_eq_true, decide_eq_true_eq, List.all_eq_true]

theorem isPathUnit_le {u : UInt16} (h : isPathUnit u = true) : ¬ 127 < u := by
  have hlisted : ∀ v ∈ ascii "/\\._ :-", ¬ 127 < v := List.all_iff_forall_prop.mp (by decide)
  have hle : ∀ c : UInt16, c ≤ 127 → u ≤ c → ¬ 127 < u := fun c hc hu ↦
    UInt16.not_lt.mpr (UInt16.le_trans hu hc)
  rw [isPathUnit, Bool.or_eq_true, Bool.or_eq_true, isLetter, isDigit, Bool.or_eq_true,
    Bool.and_eq_true, Bool.and_eq_true, Bool.and_eq_true, decide_eq_true_eq, decide_eq_true_eq,
    decide_eq_true_eq, decide_eq_true_eq, decide_eq_true_eq, decide_eq_true_eq,
    decide_eq_true_eq] at h
  rcases h with ((h | h) | h) | h
  · exact hle _ (by decide) h.2
  · exact hle _ (by decide) h.2
  · exact hle _ (by decide) h.2
  · exact hlisted u h

theorem metaRe_of_units (h : ∀ u ∈ s, isPathUnit u = true) : metaRe s = false := by
  have hmeta : ∀ v ∈ ascii ";&|$`()<>\n\r", isPathUnit v = false :=
    List.all_iff_forall_prop.mp (by decide)
  rw [metaRe, List.any_eq_false]
  intro u hu hmem
  exact Bool.false_ne_true ((hmeta u (of_decide_eq_true hmem)).symm.trans (h u hu))

/-! ## What is accepted -/

theorem IsExecutablePath.ne_nil (h : IsExecutablePath s) : s ≠ [] := by
  rintro rfl
  rcases h.absolute with ⟨_, h⟩ | ⟨_, _, _, h, -⟩ <;> cases h

/-- A path by the tests that the two functions share. -/
theorem isExecutablePath_iff : IsExecutablePath s ↔
    s.length ≤ 4096 ∧ allowlistRe s = true ∧ isAbsolute s = true ∧ isTraversal s = false := by
  constructor
  · intro h
    refine ⟨h.length_le, allowlistRe_iff.mpr ⟨h.ne_nil, h.units⟩, isAbsolute_iff.mpr h.absolute, ?_⟩
    rw [Bool.eq_false_iff, Ne, isTraversal_iff]
    exact fun htraversal ↦ h.no_traversal dotDot htraversal.2 rfl
  · rintro ⟨hlength, hallowed, habsolute, htraversal⟩
    refine ⟨hlength, (allowlistRe_iff.mp hallowed).2, isAbsolute_iff.mp habsolute, ?_⟩
    rintro segment hmem rfl
    rw [Bool.eq_false_iff, Ne, isTraversal_iff] at htraversal
    refine htraversal ⟨?_, hmem⟩
    rintro rfl
    exact absurd habsolute (by decide)

/-- A test of the one cascade. -/
theorem customCommand_test_iff {p : Prop} [Decidable p] {message : String}
    {rest : Except ValidationError Unit} :
    (if p then invalidCustomCommand message else rest) = .ok () ↔ ¬p ∧ rest = .ok () := by
  split
  · rename_i hp
    exact iff_of_false nofun fun h ↦ h.1 hp
  · rename_i hp
    exact (and_iff_right hp).symm

/-- A test of the other one. -/
theorem shell_test_iff {p : Prop} [Decidable p] {message : String} {rest : Option String} :
    (if p then some message else rest) = none ↔ ¬p ∧ rest = none := by
  split
  · rename_i hp
    exact iff_of_false nofun fun h ↦ h.1 hp
  · rename_i hp
    exact (and_iff_right hp).symm

theorem validateCustomCommand_iff : validateCustomCommand s = .ok () ↔ IsExecutablePath s := by
  rw [isExecutablePath_iff, validateCustomCommand, customCommand_test_iff, customCommand_test_iff,
    customCommand_test_iff, customCommand_test_iff, customCommand_test_iff,
    customCommand_test_iff, customCommand_test_iff, Nat.not_lt, Bool.not_eq_true',
    Bool.not_eq_true', Bool.not_eq_false, Bool.not_eq_false, Bool.not_eq_true, Bool.not_eq_true,
    List.any_eq_false]
  constructor
  · rintro ⟨-, hlength, -, -, hallowed, habsolute, htraversal, -⟩
    exact ⟨hlength, hallowed, habsolute, htraversal⟩
  · rintro ⟨hlength, hallowed, habsolute, htraversal⟩
    obtain ⟨hne, hunits⟩ := allowlistRe_iff.mp hallowed
    refine ⟨hne, hlength, fun u hu hlarge ↦ ?_, fun hnul ↦ ?_, hallowed, habsolute, htraversal,
      rfl⟩
    · exact isPathUnit_le (hunits u hu) (of_decide_eq_true hlarge)
    · exact absurd (hunits 0 hnul) (by decide)

theorem validateShell_iff : validateShell (.string s) = none ↔ IsExecutablePath s := by
  rw [isExecutablePath_iff, validateShell, shell_test_iff, shell_test_iff, shell_test_iff,
    shell_test_iff, shell_test_iff, shell_test_iff, shell_test_iff, Nat.not_lt, Bool.not_eq_true',
    Bool.not_eq_true', Bool.not_eq_false, Bool.not_eq_false, Bool.not_eq_true, Bool.not_eq_true]
  constructor
  · rintro ⟨-, hlength, -, -, hallowed, habsolute, htraversal, -⟩
    exact ⟨hlength, hallowed, habsolute, htraversal⟩
  · rintro ⟨hlength, hallowed, habsolute, htraversal⟩
    obtain ⟨hne, hunits⟩ := allowlistRe_iff.mp hallowed
    refine ⟨hne, hlength, fun hnul ↦ ?_, metaRe_of_units hunits, hallowed, habsolute, htraversal,
      rfl⟩
    exact absurd (hunits 0 hnul) (by decide)

/-- **One rule**: both functions accept the paths of executables and nothing else. -/
theorem accepts_iff_isExecutablePath (s : Units) :
    (validateShell (.string s) = none ↔ validateCustomCommand s = .ok ()) ∧
      (validateShell (.string s) = none ↔ IsExecutablePath s) ∧
        (validateCustomCommand s = .ok () ↔ IsExecutablePath s) :=
  ⟨validateShell_iff.trans validateCustomCommand_iff.symm, validateShell_iff,
    validateCustomCommand_iff⟩

end Lasterm.Validation
