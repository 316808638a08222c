import Mathlib.Data.List.Basic

/-!
# How shells read the text of a command

Three readers for the text that one program puts into a command line for another machine: the words
of a POSIX shell, the `%NAME%` of `cmd.exe`, and the literals of PowerShell. Each comes with the way
to quote a text for it, and with the theorem that the reader gets the text back.

The POSIX reader knows blanks, single quotes, backslashes and characters without a special meaning.
Where it meets anything else outside of quotes it gives up, so that what it reads is read by every
POSIX shell.
-/

namespace Shell

abbrev Text := List Char

instance lawfulBEq_text : LawfulBEq Text := inferInstance

def apostrophe : Char := Char.ofNat 39

def backslash : Char := Char.ofNat 92

def quotation : Char := Char.ofNat 34

/-! ## POSIX -/

/-- A character that stands for itself outside of quotes. -/
def isPlain (c : Char) : Bool := c.isAlphanum || c ∈ "_@%+=:,./-".toList

/-- Where a reader is: in plain text, between single quotes, or behind a backslash. -/
inductive Quoting
  | unquoted
  | single
  | escaped
  deriving DecidableEq

/-- The word at the start of a command, with what comes behind it. -/
def readWord : Quoting → Text → Option (Text × Text)
  | .unquoted, [] => some ([], [])
  | .single, [] | .escaped, [] => none
  | .unquoted, c :: cs =>
    if c = ' ' then some ([], cs)
    else if c = apostrophe then readWord .single cs
    else if c = backslash then readWord .escaped cs
    else if isPlain c then (readWord .unquoted cs).map fun w ↦ (c :: w.1, w.2)
    else none
  | .single, c :: cs =>
    if c = apostrophe then readWord .unquoted cs
    else (readWord .single cs).map fun w ↦ (c :: w.1, w.2)
  | .escaped, c :: cs => (readWord .unquoted cs).map fun w ↦ (c :: w.1, w.2)

/-- A single quote is closed, written with a backslash, and opened again. -/
def escapePosix (p : Text) : Text :=
  p.flatMap fun c ↦ if c = apostrophe then [apostrophe, backslash, apostrophe, apostrophe] else [c]

def singleQuote (p : Text) : Text := apostrophe :: escapePosix p ++ [apostrophe]

variable {rest rest' : Text}

/-- Plain characters are read as they are, up to where the word ends. -/
theorem readWord_plain {p : Text} (hp : ∀ c ∈ p, isPlain c = true)
    (hrest : readWord .unquoted rest = some ([], rest')) :
    readWord .unquoted (p ++ rest) = some (p, rest') := by
  induction p with
  | nil => exact hrest
  | cons c p ih =>
    have hc : isPlain c = true := hp c List.mem_cons_self
    have hblank : c ≠ ' ' := by rintro rfl; revert hc; decide
    have hquote : c ≠ apostrophe := by rintro rfl; revert hc; decide
    have hslash : c ≠ backslash := by rintro rfl; revert hc; decide
    rw [List.cons_append, readWord, if_neg hblank, if_neg hquote, if_neg hslash, if_pos hc,
      ih fun d hd ↦ hp d (List.mem_cons_of_mem c hd)]
    rfl

theorem readWord_single (p : Text) (hrest : readWord .unquoted rest = some ([], rest')) :
    readWord .single (escapePosix p ++ apostrophe :: rest) = some (p, rest') := by
  induction p with
  | nil =>
    change readWord .single (apostrophe :: rest) = _
    rw [readWord, if_pos rfl, hrest]
  | cons c p ih =>
    rw [escapePosix, List.flatMap_cons, ← escapePosix, List.append_assoc]
    by_cases hc : c = apostrophe
    · -- The quote closes, the backslash gives the apostrophe, and the quote opens again.
      have hescaped : readWord .single ([apostrophe, backslash, apostrophe, apostrophe] ++
          (escapePosix p ++ apostrophe :: rest)) =
          (readWord .single (escapePosix p ++ apostrophe :: rest)).map fun w ↦
            (apostrophe :: w.1, w.2) := rfl
      rw [if_pos hc, hescaped, ih, hc]
      rfl
    · rw [if_neg hc, List.singleton_append, readWord, if_neg hc, ih]
      rfl

/-- **A text in single quotes is read as it is**, up to where the word ends. -/
theorem readWord_singleQuote (p : Text) (hrest : readWord .unquoted rest = some ([], rest')) :
    readWord .unquoted (singleQuote p ++ rest) = some (p, rest') := by
  have hopen : readWord .unquoted (singleQuote p ++ rest) =
      readWord .single (escapePosix p ++ apostrophe :: rest) := by
    rw [singleQuote, List.append_assoc]
    rfl
  rw [hopen, readWord_single p hrest]

/-! ## cmd.exe -/

/-- Replace each `%NAME%` of a variable that is set. The first argument is the text behind a `%`
that has not found its partner yet. -/
def expandAux (env : Text → Option Text) : Option Text → Text → Text
  | none, [] => []
  | some name, [] => '%' :: name
  | none, c :: cs => if c = '%' then expandAux env (some []) cs else c :: expandAux env none cs
  | some name, c :: cs =>
    if c = '%' then
      match env name with
      | some value => value ++ expandAux env none cs
      | none => '%' :: name ++ expandAux env (some []) cs
    else expandAux env (some (name ++ [c])) cs

def expand (env : Text → Option Text) (p : Text) : Text := expandAux env none p

variable {env : Text → Option Text}

theorem expandAux_of_not_mem {suffix : Text} (h : '%' ∉ suffix) :
    expandAux env none suffix = suffix ∧
      ∀ name, expandAux env (some name) suffix = '%' :: name ++ suffix := by
  induction suffix with
  | nil => exact ⟨rfl, fun name ↦ (List.append_nil _).symm⟩
  | cons c suffix ih =>
    rw [List.mem_cons, not_or] at h
    obtain ⟨hnone, hsome⟩ := ih h.2
    have hc : ¬ c = '%' := fun heq ↦ h.1 heq.symm
    constructor
    · rw [expandAux, if_neg hc, hnone]
    · intro name
      rw [expandAux, if_neg hc, hsome]
      simp

/-- A text without `%` stays as it is. -/
theorem expand_of_not_mem {p : Text} (h : '%' ∉ p) : expand env p = p := (expandAux_of_not_mem h).1

theorem expandAux_append {suffix : Text} (h : '%' ∉ suffix) (st : Option Text) (p : Text) :
    expandAux env st (p ++ suffix) = expandAux env st p ++ suffix := by
  induction p generalizing st with
  | nil =>
    rcases st with _ | name
    · exact (expandAux_of_not_mem h).1
    · exact (expandAux_of_not_mem h).2 name
  | cons c p ih =>
    rcases st with _ | name
    · rw [List.cons_append, expandAux, expandAux]
      split
      · exact ih _
      · rw [ih, List.cons_append]
    · rw [List.cons_append, expandAux, expandAux]
      split
      · split
        · rw [ih, List.append_assoc]
        · rw [ih, List.append_assoc]
      · exact ih _

/-- **What stands before and behind a text does not count**, if it has no `%`. -/
theorem expand_append {front suffix : Text} (hfront : '%' ∉ front) (hsuffix : '%' ∉ suffix)
    (p : Text) : expand env (front ++ (p ++ suffix)) = front ++ (expand env p ++ suffix) := by
  induction front with
  | nil => exact expandAux_append hsuffix none p
  | cons c front ih =>
    rw [List.mem_cons, not_or] at hfront
    rw [List.cons_append, expand, expandAux, if_neg fun heq ↦ hfront.1 heq.symm]
    exact congrArg (c :: ·) (ih hfront.2)

/-! ## PowerShell -/

/-- A literal whose opening quote has been read, with what comes behind it. -/
def readLiteral : Text → Option (Text × Text)
  | [] => none
  | [c] => if c = apostrophe then some ([], []) else none
  | c :: d :: cs =>
    if c = apostrophe then
      if d = apostrophe then (readLiteral cs).map fun w ↦ (apostrophe :: w.1, w.2)
      else some ([], d :: cs)
    else (readLiteral (d :: cs)).map fun w ↦ (c :: w.1, w.2)

/-- A single quote is doubled. -/
def escapePowerShell (p : Text) : Text :=
  p.flatMap fun c ↦ if c = apostrophe then [apostrophe, apostrophe] else [c]

theorem readLiteral_cons_of_ne {c : Char} (hc : c ≠ apostrophe) {cs : Text} (hcs : cs ≠ []) :
    readLiteral (c :: cs) = (readLiteral cs).map fun w ↦ (c :: w.1, w.2) := by
  obtain ⟨d, ds, rfl⟩ := List.exists_cons_of_ne_nil hcs
  rw [readLiteral, if_neg hc]

/-- **A literal with its quotes doubled is read as it is.** -/
theorem readLiteral_escapePowerShell (p : Text) {d : Char} (hd : d ≠ apostrophe) (rest : Text) :
    readLiteral (escapePowerShell p ++ apostrophe :: d :: rest) = some (p, d :: rest) := by
  induction p with
  | nil =>
    change readLiteral (apostrophe :: d :: rest) = _
    rw [readLiteral, if_pos rfl, if_neg hd]
  | cons c p ih =>
    rw [escapePowerShell, List.flatMap_cons, ← escapePowerShell, List.append_assoc]
    by_cases hc : c = apostrophe
    · rw [if_pos hc, List.cons_append, List.singleton_append, readLiteral, if_pos rfl,
        if_pos rfl, ih,
        hc]
      rfl
    · rw [if_neg hc, List.singleton_append, readLiteral_cons_of_ne hc (by simp), ih]
      rfl

end Shell
