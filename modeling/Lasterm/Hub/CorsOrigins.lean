import Lasterm.Library.RegExp

/-!
# Patterns for origins

`corsOriginsToRegexps` of `config.ts` makes a regular expression out of every pattern of the
configuration: it escapes what has a meaning there, and puts `\d+` for each `*`. What comes out is
parsed as any source text is, so that a unit that was not escaped would have its meaning.

An origin matches exactly if it fills the pattern (`corsOriginsToRegexps_fill`).
-/

namespace Lasterm.Hub.Cors

open Utf16 RegExp

/-- `[$()+.?[\\\]^{|}-]`. -/
def isSpecial (u : UInt16) : Bool := u ∈ ascii "$()+.?[\\]^\x7b|\x7d-"

/-- The two replacements. -/
def escaped (pattern : Units) : Units :=
  pattern.flatMap fun u ↦ if isSpecial u then [unit '\\', u] else [u]

def withPort (escaped : Units) : Units :=
  escaped.flatMap fun u ↦ if u = unit '*' then ascii "\\d+" else [u]

/-- `none` is for a source text that is no regular expression. -/
def corsOriginToRegexp (pattern : Units) : Option (List Term) :=
  parse (ascii "^" ++ withPort (escaped pattern) ++ ascii "$")

def corsOriginsToRegexps (patterns : List Units) : Option (List (List Term)) :=
  patterns.mapM corsOriginToRegexp

def matchCorsOrigin (origin : Units) (regexps : List (List Term)) : Bool :=
  regexps.any fun re ↦ test re origin

/-! ## What a pattern says -/

/-- The origin is the pattern with digits in place of each `*`. -/
inductive Fills : Units → Units → Prop
  | nil : Fills [] []
  | wildcard {pattern origin digits : Units} : digits ≠ [] → (∀ u ∈ digits, isDigit u = true) →
      Fills pattern origin → Fills (unit '*' :: pattern) (digits ++ origin)
  | literal {pattern origin : Units} {u : UInt16} : u ≠ unit '*' → Fills pattern origin →
      Fills (u :: pattern) (u :: origin)

theorem fills_nil {s : Units} : Fills [] s ↔ s = [] := by
  constructor
  · rintro ⟨⟩
    rfl
  · rintro rfl
    exact .nil

theorem fills_wildcard {pattern s : Units} : Fills (unit '*' :: pattern) s ↔
    ∃ digits rest, s = digits ++ rest ∧ digits ≠ [] ∧ (∀ u ∈ digits, isDigit u = true) ∧
      Fills pattern rest := by
  constructor
  · rintro (_ | ⟨hne, hdigits, h⟩ | ⟨hu, h⟩)
    · exact ⟨_, _, rfl, hne, hdigits, h⟩
    · exact absurd rfl hu
  · rintro ⟨digits, rest, rfl, hne, hdigits, h⟩
    exact .wildcard hne hdigits h

theorem fills_literal {pattern s : Units} {u : UInt16} (hu : u ≠ unit '*') :
    Fills (u :: pattern) s ↔ ∃ v rest, s = v :: rest ∧ v = u ∧ Fills pattern rest := by
  constructor
  · intro h
    cases h with
    | wildcard => exact absurd rfl hu
    | literal _ h => exact ⟨u, _, rfl, rfl, h⟩
  · rintro ⟨v, rest, rfl, rfl, h⟩
    exact .literal hu h

/-! ## The expression of a pattern -/

/-- The tokens that a unit of the pattern becomes. -/
def tokensOf (u : UInt16) : List Token :=
  if u = unit '*' then [.atom .digit, .quantifier .plus] else [.atom (.unit u)]

def termOf (u : UInt16) : Term :=
  if u = unit '*' then .units .digit .plus else .units (.unit u) .one

variable {u : UInt16} {pattern : Units}

theorem escape_of_isSpecial (h : isSpecial u = true) : escape u = some (.atom (.unit u)) := by
  have hall : ∀ v ∈ ascii "$()+.?[\\]^\x7b|\x7d-", escape v = some (.atom (.unit v)) :=
    List.all_iff_forall_prop.mp (by decide)
  exact hall u (of_decide_eq_true h)

/-- A unit that is not escaped and is no `*` has no meaning. -/
theorem single_of_not_isSpecial (h : isSpecial u = false) (hstar : u ≠ unit '*') :
    u ≠ backslash ∧ single u = some (.atom (.unit u)) := by
  have hne : ∀ v, isSpecial v = true → u ≠ v := by
    rintro v hv rfl
    rw [h] at hv
    cases hv
  have hunlisted : u ∉ ascii "\\()[]\x7b\x7d|" := by
    have hall : ∀ v ∈ ascii "\\()[]\x7b\x7d|", isSpecial v = true :=
      List.all_iff_forall_prop.mp (by decide)
    exact fun hmem ↦ hne u (hall u hmem) rfl
  refine ⟨hne _ (by decide), ?_⟩
  rw [single, if_neg (hne _ (by decide)), if_neg (hne _ (by decide)), if_neg (hne _ (by decide)),
    if_neg hstar, if_neg (hne _ (by decide)), if_neg (hne _ (by decide)), if_neg hunlisted]

theorem withPort_escaped_cons (u : UInt16) (pattern : Units) :
    withPort (escaped (u :: pattern)) =
      (if u = unit '*' then ascii "\\d+" else if isSpecial u then [backslash, u] else [u]) ++
        withPort (escaped pattern) := by
  rw [escaped, List.flatMap_cons, withPort, List.flatMap_append, ← withPort, ← withPort, ← escaped]
  congr 1
  by_cases hstar : u = unit '*'
  · rw [if_pos hstar, hstar]
    rfl
  · rw [if_neg hstar]
    by_cases hspecial : isSpecial u = true
    · rw [if_pos hspecial, if_pos hspecial, withPort, List.flatMap_cons, List.flatMap_cons,
        if_neg hstar]
      rfl
    · rw [if_neg hspecial, if_neg hspecial, withPort, List.flatMap_cons, if_neg hstar]
      rfl

theorem lex_withPort (pattern rest : Units) : lex (withPort (escaped pattern) ++ rest) =
    (lex rest).map (pattern.flatMap tokensOf ++ ·) := by
  induction pattern with
  | nil => exact Option.map_id'.symm
  | cons u pattern ih =>
    rw [withPort_escaped_cons, List.append_assoc, List.flatMap_cons, tokensOf]
    by_cases hstar : u = unit '*'
    · rw [if_pos hstar, if_pos hstar]
      have hdigits : lex (ascii "\\d+" ++ (withPort (escaped pattern) ++ rest)) =
          (lex (withPort (escaped pattern) ++ rest)).map
            ([.atom .digit, .quantifier .plus] ++ ·) := by
        change lex (backslash :: unit 'd' :: unit '+' :: (withPort (escaped pattern) ++ rest)) = _
        rw [lex_escape (t := .atom .digit) (by decide),
          lex_single (t := .quantifier .plus) (by decide) (by decide), Option.map_map]
        rfl
      rw [hdigits, ih, Option.map_map]
      rfl
    · rw [if_neg hstar, if_neg hstar]
      by_cases hspecial : isSpecial u = true
      · rw [if_pos hspecial]
        change lex (backslash :: u :: (withPort (escaped pattern) ++ rest)) = _
        rw [lex_escape (escape_of_isSpecial hspecial), ih, Option.map_map]
        rfl
      · rw [if_neg hspecial]
        rw [Bool.not_eq_true] at hspecial
        obtain ⟨hne, hsingle⟩ := single_of_not_isSpecial hspecial hstar
        change lex (u :: (withPort (escaped pattern) ++ rest)) = _
        rw [lex_single hne hsingle, ih, Option.map_map]
        rfl

/-- No quantifier stands behind the atom of another unit. -/
theorem head?_tokens_ne (pattern : Units) (q : Quantifier) :
    (pattern.flatMap tokensOf ++ [Token.stop]).head? ≠ some (.quantifier q) := by
  cases pattern with
  | nil => exact nofun
  | cons u pattern =>
    rw [List.flatMap_cons, tokensOf]
    split
    · exact nofun
    · exact nofun

theorem build_tokens (pattern : Units) : build (pattern.flatMap tokensOf ++ [.stop]) =
    some (pattern.map termOf ++ [.stop]) := by
  induction pattern with
  | nil => rfl
  | cons u pattern ih =>
    rw [List.flatMap_cons, tokensOf, List.append_assoc, List.map_cons, termOf]
    split
    · change (build (pattern.flatMap tokensOf ++ [.stop])).map _ = _
      rw [ih]
      rfl
    · change build (.atom (.unit u) :: (pattern.flatMap tokensOf ++ [.stop])) = _
      rw [build_one (head?_tokens_ne pattern), ih]
      rfl

/-- **The source text is parsed unit by unit.** -/
theorem corsOriginToRegexp_eq (pattern : Units) :
    corsOriginToRegexp pattern = some (.start :: (pattern.map termOf ++ [.stop])) := by
  have hlex : lex (ascii "^" ++ withPort (escaped pattern) ++ ascii "$") =
      some (.start :: (pattern.flatMap tokensOf ++ [.stop])) := by
    rw [List.append_assoc]
    change lex (unit '^' :: (withPort (escaped pattern) ++ ascii "$")) = _
    rw [lex_single (t := .start) (by decide) (by decide), lex_withPort]
    rfl
  rw [corsOriginToRegexp, parse, hlex, Option.bind_some]
  change (build _).map _ = _
  rw [build_tokens]
  rfl

theorem matchesAt_iff_fills (pattern : Units) (atStart : Bool) (s : Units) :
    matchesAt (pattern.map termOf ++ [.stop]) atStart s = true ↔ Fills pattern s := by
  induction pattern generalizing atStart s with
  | nil =>
    rw [fills_nil, List.map_nil, List.nil_append, matchesAt, matchesAt, Bool.and_true,
      decide_eq_true_eq]
  | cons u pattern ih =>
    rw [List.map_cons, List.cons_append, termOf]
    split
    · rename_i hstar
      rw [hstar, fills_wildcard, matchesAt_plus]
      simp only [ih]
      rfl
    · rename_i hstar
      rw [fills_literal hstar, matchesAt_one]
      simp only [ih, Atom.admits, decide_eq_true_eq]

theorem test_iff_fills (pattern origin : Units) :
    test (.start :: (pattern.map termOf ++ [.stop])) origin = true ↔ Fills pattern origin := by
  rw [test_start, matchesAt_iff_fills]

/-- **Patterns match what they say**: every list of patterns is translated, and the expression of a
pattern matches an origin exactly if the origin fills it. -/
theorem corsOriginsToRegexps_fill (patterns : List Units) :
    ∃ regexps, corsOriginsToRegexps patterns = some regexps ∧
      List.Forall₂ (fun pattern re ↦ ∀ origin, test re origin = true ↔ Fills pattern origin)
        patterns regexps := by
  induction patterns with
  | nil => exact ⟨[], rfl, .nil⟩
  | cons pattern patterns ih =>
    obtain ⟨regexps, hregexps, hfill⟩ := ih
    refine ⟨_ :: regexps, ?_, .cons (test_iff_fills pattern) hfill⟩
    rw [corsOriginsToRegexps, List.mapM_cons, corsOriginToRegexp_eq, ← corsOriginsToRegexps,
      hregexps]
    rfl

end Lasterm.Hub.Cors
