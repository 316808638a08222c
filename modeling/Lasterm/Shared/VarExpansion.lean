import Lasterm.Library.Scanner
import Lasterm.Library.Shell

/-!
# Variable expansion in TypeScript

`expandVars` of `var-expansion.ts`: one pass of a regular expression over the text, with three forms
of a reference, of which the leftmost match wins. The environment is an object, so that a name that
it lacks can still be found on `Object.prototype`.
-/

namespace Lasterm

open Shell

/-! ## References -/

def openBrace : Char := Char.ofNat 123

def closeBrace : Char := Char.ofNat 125

/-- `${name}`. -/
def reference (name : Text) : Text := '$' :: openBrace :: name ++ [closeBrace]

/-- What is behind a `${`. -/
def afterOpen : Text → Option Text
  | c :: d :: rest => if c = '$' ∧ d = openBrace then some rest else none
  | _ => none

/-- The text in a `${…}`, which ends at the first closing brace, and what is behind it. -/
def readBraces (text : Text) : Option (Text × Text) :=
  (afterOpen text).bind (splitAtFirst closeBrace)

def isNameStart (c : Char) : Bool := c.isAlpha || c = '_'

/-- `[A-Za-z_][A-Za-z0-9_]*`. -/
def isName : Text → Bool
  | [] => false
  | c :: cs => isNameStart c && cs.all fun c ↦ isNameStart c || c.isDigit

/-- `\$\{([A-Za-z_][A-Za-z0-9_]*)\}`. A name has no brace in it. -/
def readReference (text : Text) : Option (Text × Text) :=
  (readBraces text).filter fun r ↦ isName r.1

section References

variable {text name rest : Text}

theorem afterOpen_eq_some : afterOpen text = some rest ↔ text = '$' :: openBrace :: rest := by
  constructor
  · intro h
    rw [afterOpen.eq_def] at h
    split at h
    · split at h
      · rename_i heq
        cases h
        rw [heq.1, heq.2]
      · cases h
    · cases h
  · rintro rfl
    rfl

theorem readBraces_eq_some :
    readBraces text = some (name, rest) ↔ text = reference name ++ rest ∧ closeBrace ∉ name := by
  rw [readBraces, Option.bind_eq_some_iff]
  constructor
  · rintro ⟨behind, hopen, hsplit⟩
    obtain ⟨rfl, hmem⟩ := splitAtFirst_eq_some.mp hsplit
    rw [afterOpen_eq_some.mp hopen]
    refine ⟨?_, hmem⟩
    rw [reference, List.cons_append, List.cons_append, List.append_assoc]
    rfl
  · rintro ⟨rfl, hmem⟩
    refine ⟨name ++ closeBrace :: rest, ?_, splitAtFirst_eq_some.mpr ⟨rfl, hmem⟩⟩
    rw [afterOpen_eq_some, reference, List.cons_append, List.cons_append, List.append_assoc]
    rfl

theorem closeBrace_notMem_of_isName (h : isName name = true) : closeBrace ∉ name := by
  intro hmem
  cases name with
  | nil => cases hmem
  | cons c cs =>
    rw [isName, Bool.and_eq_true, List.all_eq_true] at h
    rw [List.mem_cons] at hmem
    obtain rfl | hmem := hmem
    · exact absurd h.1 (by decide)
    · exact absurd (h.2 closeBrace hmem) (by decide)

theorem readReference_eq_some :
    readReference text = some (name, rest) ↔
      text = reference name ++ rest ∧ isName name = true := by
  rw [readReference, Option.filter_eq_some_iff, readBraces_eq_some]
  constructor
  · rintro ⟨⟨heq, -⟩, hname⟩
    exact ⟨heq, hname⟩
  · rintro ⟨heq, hname⟩
    exact ⟨⟨heq, closeBrace_notMem_of_isName hname⟩, hname⟩

theorem length_of_readBraces (h : readBraces text = some (name, rest)) :
    rest.length + 1 < text.length := by
  rw [(readBraces_eq_some.mp h).1, reference]
  simp
  omega

theorem length_of_readReference (h : readReference text = some (name, rest)) :
    rest.length + 1 < text.length := by
  rw [readReference, Option.filter_eq_some_iff] at h
  exact length_of_readBraces h.1

end References

/-! ## Environments -/

/-- What the two languages agree on. Both fold the case of letters by the rules of Unicode. -/
structure Platform where
  caseInsensitive : Bool
  toLower : Text → Text

def Platform.fold (p : Platform) (name : Text) : Text :=
  if p.caseInsensitive then p.toLower name else name

abbrev Entries := List (Text × Text)

/-- The variables of a profile, if it has any, and those of the process. A name is there once, on
Windows in whatever case: of two names in a profile that differ in case only, the hub takes the
first one and the agent whichever its `HashMap` has in front. -/
structure Variables (p : Platform) where
  env : Option Entries
  process : Entries
  env_nodup : ∀ entries, env = some entries → (entries.map fun e ↦ p.fold e.1).Nodup
  process_nodup : (process.map fun e ↦ p.fold e.1).Nodup

def Entries.find (p : Platform) (entries : Entries) (name : Text) : Option Text :=
  (entries.find? fun e ↦ p.fold e.1 = p.fold name).map Prod.snd

/-- A function of `Object.prototype`, as a text. -/
def nativeCode (name : String) : Text :=
  ("function " ++ name ++ "() ").toList ++ openBrace :: " [native code] ".toList ++ [closeBrace]

/-- The properties that an object inherits, as texts. -/
def objectPrototype : Entries :=
  ("__proto__".toList, "[object Object]".toList) ::
    ("constructor".toList, nativeCode "Object") ::
      ["__defineGetter__", "__defineSetter__", "hasOwnProperty", "__lookupGetter__",
        "__lookupSetter__", "isPrototypeOf", "propertyIsEnumerable", "toString", "valueOf",
        "toLocaleString"].map fun name ↦ (name.toList, nativeCode name)

/-- Those of `process.env`, whose constructor has no name. -/
def processPrototype : Entries := ("constructor".toList, nativeCode "") :: objectPrototype

/-- `entries[name]`. -/
def getProperty (p : Platform) (prototype entries : Entries) (name : Text) : Option Text :=
  (entries.find p name).or ((prototype.find? fun e ↦ e.1 = name).map Prod.snd)

section Lookup

variable (p : Platform) (v : Variables p)

def lookupEnv (name : Text) : Option Text :=
  if p.caseInsensitive then (v.env.bind (Entries.find p · name)).or (v.process.find p name)
  else
    (v.env.bind (getProperty p objectPrototype · name)).or
      (getProperty p processPrototype v.process name)

/-! ## The expansion -/

/-- The value, or the reference as it is. -/
def expanded (name : Text) : Text := (lookupEnv p v name).getD (reference name)

/-- The first alternative, behind the backslash at its start. -/
def readDoubleEscape (c : Char) : Text → Option (Text × Text)
  | [] => none
  | d :: rest => if c = backslash ∧ d = backslash then readReference rest else none

/-- The second one. -/
def readEscape (c : Char) (rest : Text) : Option (Text × Text) :=
  if c = backslash then readReference rest else none

def expandToken (c : Char) (cs : Text) : Text × Text :=
  match readDoubleEscape c cs, readEscape c cs, readReference (c :: cs) with
  | some (name, rest), _, _ => (backslash :: expanded p v name, rest)
  | none, some (name, rest), _ => (reference name, rest)
  | none, none, some (name, rest) => (expanded p v name, rest)
  | none, none, none => ([c], cs)

theorem expandToken_shortens (c : Char) (cs : Text) :
    (expandToken p v c cs).2.length ≤ cs.length := by
  rw [expandToken.eq_def]
  cases hdouble : readDoubleEscape c cs with
  | some r =>
    rw [readDoubleEscape.eq_def] at hdouble
    split at hdouble
    · cases hdouble
    · split at hdouble
      · have hlt := length_of_readReference hdouble
        dsimp only
        rw [List.length_cons]
        omega
      · cases hdouble
  | none =>
    cases hescape : readEscape c cs with
    | some r =>
      rw [readEscape.eq_def] at hescape
      split at hescape
      · have hlt := length_of_readReference hescape
        dsimp only
        omega
      · cases hescape
    | none =>
      cases hread : readReference (c :: cs) with
      | some r =>
        have hlt := length_of_readReference hread
        rw [List.length_cons] at hlt
        dsimp only
        omega
      | none => exact Nat.le_refl _

def expandScanner : Scanner Char := ⟨expandToken p v, expandToken_shortens p v⟩

def expandVars (input : Text) : Text := (expandScanner p v).scan input

end Lookup

end Lasterm
