import Lasterm.Library.Utf16

/-!
# Regular expressions, from their source text on

The part of JavaScript's regular expressions without flags that has no groups, alternatives and
bracketed classes: single units, `\d` and `.`, with the quantifiers `*`, `+` and `?`, and the
assertions `^` and `$`. `parse` reads a source text as one. Where it meets anything else it gives
up, so that what it accepts has no other meaning.

A match may begin at any place of the subject (`test`). How often a quantified unit is taken is
found by trying, and the assertions look at the ends of the subject only.
-/

namespace RegExp

open Utf16

/-- What one unit of the subject is compared with. -/
inductive Atom
  | unit (u : UInt16)
  | digit
  /-- Everything but a line terminator. -/
  | dot
  deriving DecidableEq

inductive Quantifier
  | one
  | star
  | plus
  | optional
  deriving DecidableEq

inductive Term
  | start
  | stop
  | units (a : Atom) (q : Quantifier)

/-! ## Matching -/

def Atom.admits : Atom → UInt16 → Bool
  | unit u, v => v = u
  | digit, v => isDigit v
  | dot, v => v ∉ [0x0A, 0x0D, 0x2028, 0x2029]

/-- A quantified unit may be taken `n` times. -/
def Quantifier.allows : Quantifier → ℕ → Bool
  | one, n => n = 1
  | star, _ => true
  | plus, n => 0 < n
  | optional, n => n ≤ 1

/-- The terms match from here on. The flag says whether this is the start of the subject. -/
def matchesAt : List Term → Bool → Units → Bool
  | [], _, _ => true
  | .start :: terms, atStart, s => atStart && matchesAt terms atStart s
  | .stop :: terms, atStart, s => s = [] && matchesAt terms atStart s
  | .units a q :: terms, atStart, s =>
    (List.range (s.length + 1)).any fun n ↦ q.allows n && (s.take n).all a.admits &&
      matchesAt terms (atStart && n = 0) (s.drop n)

def test (terms : List Term) (s : Units) : Bool :=
  (List.range (s.length + 1)).any fun n ↦ matchesAt terms (n = 0) (s.drop n)

section Matching

variable {terms : List Term} {a : Atom} {q : Quantifier} {atStart : Bool} {s : Units}

theorem matchesAt_units : matchesAt (.units a q :: terms) atStart s = true ↔
    ∃ taken rest, s = taken ++ rest ∧ q.allows taken.length = true ∧
      (∀ u ∈ taken, a.admits u = true) ∧
        matchesAt terms (atStart && taken.length = 0) rest = true := by
  rw [matchesAt, List.any_eq_true]
  constructor
  · rintro ⟨n, hn, h⟩
    rw [Bool.and_eq_true, Bool.and_eq_true, List.all_eq_true] at h
    have hlength : (s.take n).length = n :=
      List.length_take_of_le (Nat.le_of_lt_succ (List.mem_range.mp hn))
    exact ⟨s.take n, s.drop n, (List.take_append_drop n s).symm, by rw [hlength]; exact h.1.1,
      h.1.2, by rw [hlength]; exact h.2⟩
  · rintro ⟨taken, rest, rfl, hallows, hadmits, hrest⟩
    refine ⟨taken.length, List.mem_range.mpr ?_, ?_⟩
    · rw [List.length_append]
      omega
    · rw [Bool.and_eq_true, Bool.and_eq_true, List.take_left, List.drop_left, List.all_eq_true]
      exact ⟨⟨hallows, hadmits⟩, hrest⟩

/-- One unit that is to be taken once. -/
theorem matchesAt_one : matchesAt (.units a .one :: terms) atStart s = true ↔
    ∃ u rest, s = u :: rest ∧ a.admits u = true ∧ matchesAt terms false rest = true := by
  rw [matchesAt_units]
  constructor
  · rintro ⟨taken, rest, rfl, hallows, hadmits, hrest⟩
    obtain ⟨u, rfl⟩ := List.length_eq_one_iff.mp (of_decide_eq_true hallows)
    rw [List.length_singleton, decide_eq_false Nat.one_ne_zero, Bool.and_false] at hrest
    exact ⟨u, rest, rfl, hadmits u List.mem_cons_self, hrest⟩
  · rintro ⟨u, rest, rfl, hadmits, hrest⟩
    refine ⟨[u], rest, rfl, rfl, fun v hv ↦ List.mem_singleton.mp hv ▸ hadmits, ?_⟩
    rw [List.length_singleton, decide_eq_false Nat.one_ne_zero, Bool.and_false]
    exact hrest

/-- One unit or more. -/
theorem matchesAt_plus : matchesAt (.units a .plus :: terms) atStart s = true ↔
    ∃ taken rest, s = taken ++ rest ∧ taken ≠ [] ∧ (∀ u ∈ taken, a.admits u = true) ∧
      matchesAt terms false rest = true := by
  have hstart : ∀ taken : Units, taken ≠ [] →
      (atStart && decide (taken.length = 0)) = false := by
    intro taken hne
    rw [decide_eq_false fun h ↦ hne (List.length_eq_zero_iff.mp h), Bool.and_false]
  rw [matchesAt_units]
  constructor
  · rintro ⟨taken, rest, hs, hallows, hadmits, hrest⟩
    have hne := List.ne_nil_of_length_pos (of_decide_eq_true hallows)
    rw [hstart taken hne] at hrest
    exact ⟨taken, rest, hs, hne, hadmits, hrest⟩
  · rintro ⟨taken, rest, hs, hne, hadmits, hrest⟩
    refine ⟨taken, rest, hs, decide_eq_true (List.length_pos_of_ne_nil hne), hadmits, ?_⟩
    rw [hstart taken hne]
    exact hrest

/-- An expression that begins with `^` matches at the start of the subject or nowhere. -/
theorem test_start : test (.start :: terms) s = matchesAt terms true s := by
  rw [Bool.eq_iff_iff, test, List.any_eq_true]
  constructor
  · rintro ⟨n, -, h⟩
    rw [matchesAt, Bool.and_eq_true, decide_eq_true_eq] at h
    obtain ⟨rfl, h⟩ := h
    exact h
  · intro h
    refine ⟨0, List.mem_range.mpr (Nat.succ_pos _), ?_⟩
    rw [matchesAt, Bool.and_eq_true]
    exact ⟨rfl, h⟩

end Matching

/-! ## Parsing -/

inductive Token
  | start
  | stop
  | atom (a : Atom)
  | quantifier (q : Quantifier)
  deriving DecidableEq

def backslash : UInt16 := unit '\\'

/-- What a unit means behind a backslash. -/
def escape (u : UInt16) : Option Token :=
  if u = unit 'd' then some (.atom .digit)
  else if u ∈ ascii "^$\\.*+?()[]\x7b\x7d|/-" then some (.atom (.unit u))
  else none

/-- What it means by itself. -/
def single (u : UInt16) : Option Token :=
  if u = unit '^' then some .start
  else if u = unit '$' then some .stop
  else if u = unit '.' then some (.atom .dot)
  else if u = unit '*' then some (.quantifier .star)
  else if u = unit '+' then some (.quantifier .plus)
  else if u = unit '?' then some (.quantifier .optional)
  else if u ∈ ascii "\\()[]\x7b\x7d|" then none
  else some (.atom (.unit u))

def lex : Units → Option (List Token)
  | [] => some []
  | [u] => (single u).map fun t ↦ [t]
  | u :: v :: s =>
    if u = backslash then (escape v).bind fun t ↦ (lex s).map (t :: ·)
    else (single u).bind fun t ↦ (lex (v :: s)).map (t :: ·)

/-- A quantifier belongs to the atom before it. -/
def build : List Token → Option (List Term)
  | [] => some []
  | .start :: tokens => (build tokens).map (.start :: ·)
  | .stop :: tokens => (build tokens).map (.stop :: ·)
  | .atom a :: .quantifier q :: tokens => (build tokens).map (.units a q :: ·)
  | .atom a :: tokens => (build tokens).map (.units a .one :: ·)
  | .quantifier _ :: _ => none

def parse (source : Units) : Option (List Term) := (lex source).bind build

section Parsing

variable {s : Units} {tokens : List Token}

theorem lex_escape {u : UInt16} {t : Token} (h : escape u = some t) (s : Units) :
    lex (backslash :: u :: s) = (lex s).map (t :: ·) := by
  rw [lex, if_pos rfl, h, Option.bind_some]

theorem lex_single {u : UInt16} {t : Token} (hu : u ≠ backslash) (h : single u = some t)
    (s : Units) : lex (u :: s) = (lex s).map (t :: ·) := by
  cases s with
  | nil =>
    change (single u).map (fun t ↦ [t]) = _
    rw [h]
    rfl
  | cons v s => rw [lex, if_neg hu, h, Option.bind_some]

theorem build_one {a : Atom} (h : ∀ q, tokens.head? ≠ some (.quantifier q)) :
    build (.atom a :: tokens) = (build tokens).map (.units a .one :: ·) := by
  rcases tokens with _ | ⟨_ | _ | _ | q, tokens⟩
  case cons.quantifier => exact absurd rfl (h q)
  all_goals rfl

end Parsing

end RegExp
