import Lasterm.Library.Subsequence
import Mathlib.Algebra.Order.Ring.Int

/-!
# The search of the command palette

Model of `fuzzyMatch` of `useCommandPalette.ts`. A text is the list of its UTF-16 code units, and a
score is a whole number. What the runtime's `toLowerCase` makes of a text is a parameter, of which
nothing is assumed.

A text in which the query stands from a late position on, or whose letters come late, scores zero or
less and is not found. The scores of texts of different tiers overlap, since a position takes from
the score and each letter adds to it.
-/

namespace Lasterm.Web.Palette

open Subsequence

abbrev CodeUnits := List UInt16

/-! ## The score -/

def exactMatchScore : ℤ := 1000

def prefixMatchScore : ℤ := 500

def substringMatchScore : ℤ := 200

def fuzzyMatchBase : ℤ := 10

def wordBoundaryBonus : ℤ := 20

/-- The units that end a word: `-`, `_` and `.`. -/
def isSeparator (c : UInt16) : Bool := c = 45 || c = 95 || c = 46

/-- A word starts at the beginning of the text and behind a separator. -/
def isWordStart (before : Option UInt16) : Bool :=
  match before with
  | none => true
  | some c => isSeparator c

def letterScore (before : Option UInt16) (ti : ℕ) : ℤ :=
  fuzzyMatchBase + (100 - ti) + if isWordStart before then wordBoundaryBonus else 0

/-- The loop of `fuzzyMatch` from the index `ti` on. `before` is the unit in front of it, `t` and
`q` are what is left of the text and of the query. -/
def scan (ti : ℕ) (before : Option UInt16) : CodeUnits → CodeUnits → ℤ → ℤ × CodeUnits
  | [], q, score => (score, q)
  | _ :: _, [], score => (score, [])
  | c :: t, d :: q, score =>
    if c = d then scan (ti + 1) (some c) t q (score + letterScore before ti)
    else scan (ti + 1) (some c) t (d :: q) score

/-- `fuzzyMatch` of texts in lower case. -/
def lowerMatch (q t : CodeUnits) : ℤ :=
  if t = q then exactMatchScore
  else if q <+: t then prefixMatchScore + q.length
  else
    match indexOf q t with
    | some subIdx => substringMatchScore + (100 - subIdx)
    | none =>
      let (score, missing) := scan 0 none t q 0
      if missing = [] then score else 0

def fuzzyMatch (toLowerCase : CodeUnits → CodeUnits) (query text : CodeUnits) : ℤ :=
  if query = [] then 0 else lowerMatch (toLowerCase query) (toLowerCase text)

/-! ## The scan -/

def startsWord (t : CodeUnits) (p : ℕ) : Bool :=
  isWordStart (if p = 0 then none else t[p - 1]?)

/-- What the letters at these positions score: 110 each, less its position, and a bonus for each
that starts a word. -/
def worth (t : CodeUnits) (ps : List ℕ) : ℤ :=
  110 * ps.length + 20 * ps.countP (startsWord t) - ps.sum

theorem worth_nil (t : CodeUnits) : worth t [] = 0 := rfl

theorem worth_cons (t : CodeUnits) (p : ℕ) (ps : List ℕ) :
    worth t (p :: ps) = letterScore (if p = 0 then none else t[p - 1]?) p + worth t ps := by
  rw [worth, worth, letterScore, List.length_cons, List.sum_cons, List.countP_cons, startsWord]
  generalize isWordStart _ = b
  cases b
  · rw [if_neg Bool.noConfusion, if_neg Bool.noConfusion, fuzzyMatchBase]
    push_cast
    omega
  · rw [if_pos rfl, if_pos rfl, fuzzyMatchBase, wordBoundaryBonus]
    push_cast
    omega

theorem scan_of_sublist (pre : CodeUnits) {t q : CodeUnits} {ps : List ℕ} {score : ℤ}
    (h : earliest pre.length q t = some ps) :
    scan pre.length pre.getLast? t q score = (score + worth (pre ++ t) ps, []) := by
  induction t generalizing pre q ps score with
  | nil =>
    cases q with
    | nil =>
      cases h
      rw [scan, worth_nil, add_zero]
    | cons d q => cases h
  | cons c t ih =>
    cases q with
    | nil =>
      cases h
      rw [scan, worth_nil, add_zero]
    | cons d q =>
      have hlength : (pre ++ [c]).length = pre.length + 1 := List.length_append
      have hlast : (pre ++ [c]).getLast? = some c := List.getLast?_concat
      rw [earliest] at h
      rw [scan, List.append_cons, ← hlength, ← hlast]
      rw [← hlength] at h
      split at h
      · rename_i hc
        obtain ⟨ps, hps, rfl⟩ := Option.map_eq_some_iff.mp h
        have hbefore : (if pre.length = 0 then none else (pre ++ [c] ++ t)[pre.length - 1]?)
            = pre.getLast? := by
          cases pre using List.reverseRecOn with
          | nil => rfl
          | append_singleton pre b =>
            rw [List.getLast?_concat, if_neg (by simp), List.length_append, List.length_singleton,
              Nat.add_sub_cancel, List.append_assoc, List.append_assoc,
              List.getElem?_append_right le_rfl, Nat.sub_self]
            rfl
        rw [if_pos hc, ih (pre ++ [c]) hps, worth_cons, hbefore, add_assoc]
      · rename_i hc
        rw [if_neg hc, ih (pre ++ [c]) h]

theorem scan_of_not_sublist {ti : ℕ} {before : Option UInt16} {t q : CodeUnits} {score : ℤ}
    (h : ¬q.Sublist t) : (scan ti before t q score).2 ≠ [] := by
  induction t generalizing ti before q score with
  | nil =>
    rw [scan]
    rintro rfl
    exact h (List.nil_sublist _)
  | cons c t ih =>
    cases q with
    | nil => exact absurd (List.nil_sublist _) h
    | cons d q =>
      rw [scan]
      split
      · rename_i hc
        exact ih fun hq ↦ h (hc ▸ hq.cons_cons c)
      · exact ih fun hq ↦ h (hq.cons c)

theorem scan_zero_of_leftmost {t q : CodeUnits} {ps : List ℕ} (h : Leftmost q t ps)
    (hsub : q.Sublist t) : scan 0 none t q 0 = (worth t ps, []) := by
  have hscan : scan 0 none t q 0 = (0 + worth t ps, []) :=
    scan_of_sublist [] ((earliest_eq_some_iff hsub).mpr h)
  rwa [zero_add] at hscan

/-! ## Tiers -/

/-- The ways in which a text can match a query, each without those before it. -/
inductive Tier
  | exact
  | start
  | substring
  | subsequence
  deriving DecidableEq

def Tier.rank : Tier → ℕ
  | .exact => 3
  | .start => 2
  | .substring => 1
  | .subsequence => 0

def outranks : Option Tier → Option Tier → Bool
  | some a, some b => b.rank < a.rank
  | _, _ => false

def tier (q t : CodeUnits) : Option Tier :=
  if t = q then some .exact
  else if q <+: t then some .start
  else if q <:+: t then some .substring
  else if q.Sublist t then some .subsequence
  else none

variable {q t t' : CodeUnits}

theorem tier_isSome_iff : (tier q t).isSome ↔ q.Sublist t := by
  rw [tier]
  split
  · rename_i heq
    exact iff_of_true rfl (heq ▸ .refl _)
  split
  · rename_i hstart
    exact iff_of_true rfl hstart.sublist
  split
  · rename_i hmid
    exact iff_of_true rfl hmid.sublist
  split
  · rename_i hsub
    exact iff_of_true rfl hsub
  · rename_i hsub
    exact iff_of_false Bool.noConfusion hsub

/-- What a text scores in its tier. -/
inductive Scores (q t : CodeUnits) : Option Tier → ℤ → Prop
  | exact : Scores q t (some .exact) 1000
  | start : Scores q t (some .start) (500 + q.length)
  | substring (i : ℕ) : indexOf q t = some i → Scores q t (some .substring) (200 + (100 - i))
  | subsequence (ps : List ℕ) : Leftmost q t ps → Scores q t (some .subsequence) (worth t ps)
  | none : Scores q t .none 0

theorem scores_lowerMatch (q t : CodeUnits) : Scores q t (tier q t) (lowerMatch q t) := by
  rw [tier, lowerMatch]
  split
  · exact .exact
  split
  · exact .start
  split
  · rename_i hmid
    obtain ⟨i, hi⟩ := Option.isSome_iff_exists.mp (indexOf_isSome_iff.mpr hmid)
    rw [hi]
    exact .substring i hi
  · rename_i hmid
    rw [indexOf_eq_none_iff.mpr hmid]
    split
    · rename_i hsub
      obtain ⟨ps, hps⟩ := Option.isSome_iff_exists.mp ((earliest_isSome_iff 0).mpr hsub)
      have hleft := leftmost_of_earliest hps
      simp only [scan_zero_of_leftmost hleft hsub]
      exact .subsequence ps hleft
    · rename_i hsub
      simp only [if_neg (scan_of_not_sublist hsub)]
      exact .none

/-! ## When a match is found -/

def Found (toLowerCase : CodeUnits → CodeUnits) (query text : CodeUnits) : Prop :=
  0 < fuzzyMatch toLowerCase query text ↔ (toLowerCase query).Sublist (toLowerCase text)

def Ranked (toLowerCase : CodeUnits → CodeUnits) (query text text' : CodeUnits) : Prop :=
  outranks (tier (toLowerCase query) (toLowerCase text))
      (tier (toLowerCase query) (toLowerCase text')) →
    fuzzyMatch toLowerCase query text' < fuzzyMatch toLowerCase query text

/-- The query stands in the text early enough to be found: in one piece from a position below 300,
or letter by letter at positions that come to less than 110 for each letter and 20 for each word
that starts with one. -/
def Early (q t : CodeUnits) : Prop :=
  match tier q t with
  | some .substring => ∃ i < 300, q <+: t.drop i
  | some .subsequence =>
    ∃ ps, Leftmost q t ps ∧ ps.sum < 110 * q.length + 20 * ps.countP (startsWord t)
  | _ => True

/-- The letters of the query come late in the text: what their positions come to, with `slack`, is
more than 110 for each letter and 20 for each word that starts with one. -/
def Late (slack : ℤ) (q t : CodeUnits) : Prop :=
  ∃ ps, Leftmost q t ps ∧ 110 * q.length + 20 * ps.countP (startsWord t) < slack + ps.sum

/-- The two texts are not so near that their tiers overlap. -/
def KeptApart (q t t' : CodeUnits) : Prop :=
  match tier q t, tier q t' with
  | some .exact, some .start => q.length < 500
  | some .exact, some .subsequence => Late 1000 q t'
  | some .start, some .subsequence => Late (500 + q.length) q t'
  | some .substring, some .subsequence => ∃ i : ℕ, q <+: t.drop i ∧ Late (300 - i) q t'
  | _, _ => True

theorem Scores.pos_iff_early {score : ℤ} (h : Scores q t (tier q t) score)
    (hsub : q.Sublist t) : 0 < score ↔ Early q t := by
  have hsome := tier_isSome_iff.mpr hsub
  rw [Early]
  revert h hsome
  generalize tier q t = a
  intro h hsome
  cases h with
  | exact => exact iff_of_true (by decide) trivial
  | start => exact iff_of_true (by omega) trivial
  | substring i hi =>
    refine ⟨fun hpos ↦ ⟨i, by omega, prefix_drop_of_indexOf hi⟩, ?_⟩
    rintro ⟨j, hj, hdrop⟩
    have hle := indexOf_le hi hdrop
    omega
  | subsequence ps hps =>
    have hlength := hps.length_eq
    rw [worth, hlength]
    refine ⟨fun hpos ↦ ⟨ps, hps, by omega⟩, ?_⟩
    rintro ⟨qs, hqs, hlt⟩
    rw [hps.unique hqs]
    omega
  | none => exact absurd hsome Bool.noConfusion

theorem worth_lt_iff_late {ps : List ℕ} (h : Leftmost q t ps) (slack : ℤ) :
    worth t ps < slack ↔ Late slack q t := by
  have hlength := h.length_eq
  rw [worth, hlength]
  refine ⟨fun hlt ↦ ⟨ps, h, by omega⟩, ?_⟩
  rintro ⟨qs, hqs, hlt⟩
  rw [h.unique hqs]
  omega

theorem Scores.lt_iff_keptApart {score score' : ℤ} (h : Scores q t (tier q t) score)
    (h' : Scores q t' (tier q t') score') :
    (outranks (tier q t) (tier q t') → score' < score) ↔ KeptApart q t t' := by
  rw [KeptApart]
  revert h h'
  generalize tier q t = a, tier q t' = b
  intro h h'
  cases h with
  | exact =>
    cases h' with
    | exact => exact iff_of_true Bool.noConfusion trivial
    | start =>
      refine (imp_iff_right rfl).trans ?_
      dsimp only
      omega
    | substring i => exact iff_of_true (fun _ ↦ by omega) trivial
    | subsequence ps hps => exact (imp_iff_right rfl).trans (worth_lt_iff_late hps 1000)
    | none => exact iff_of_true Bool.noConfusion trivial
  | start =>
    cases h' with
    | exact => exact iff_of_true Bool.noConfusion trivial
    | start => exact iff_of_true Bool.noConfusion trivial
    | substring i => exact iff_of_true (fun _ ↦ by omega) trivial
    | subsequence ps hps => exact (imp_iff_right rfl).trans (worth_lt_iff_late hps _)
    | none => exact iff_of_true Bool.noConfusion trivial
  | substring i hi =>
    cases h' with
    | exact => exact iff_of_true Bool.noConfusion trivial
    | start => exact iff_of_true Bool.noConfusion trivial
    | substring => exact iff_of_true Bool.noConfusion trivial
    | subsequence ps hps =>
      refine (imp_iff_right rfl).trans ((worth_lt_iff_late hps _).trans ?_)
      constructor
      · rintro ⟨qs, hqs, hlt⟩
        exact ⟨i, prefix_drop_of_indexOf hi, qs, hqs, by omega⟩
      · rintro ⟨j, hj, qs, hqs, hlt⟩
        have hle := indexOf_le hi hj
        exact ⟨qs, hqs, by omega⟩
    | none => exact iff_of_true Bool.noConfusion trivial
  | subsequence ps hps => cases h' <;> exact iff_of_true Bool.noConfusion trivial
  | none => exact iff_of_true Bool.noConfusion trivial

theorem fuzzyMatch_of_ne_nil {toLowerCase : CodeUnits → CodeUnits} {query : CodeUnits}
    (hquery : query ≠ []) (text : CodeUnits) :
    fuzzyMatch toLowerCase query text = lowerMatch (toLowerCase query) (toLowerCase text) := by
  rw [fuzzyMatch, if_neg hquery]

theorem lowerMatch_pos_iff : (0 < lowerMatch q t ↔ q.Sublist t) ↔ Early q t := by
  have hscores := scores_lowerMatch q t
  by_cases hsub : q.Sublist t
  · rw [iff_true_right hsub]
    exact hscores.pos_iff_early hsub
  · have hnone : tier q t = none :=
      Option.not_isSome_iff_eq_none.mp fun h ↦ hsub (tier_isSome_iff.mp h)
    have hzero : lowerMatch q t = 0 := by
      revert hscores
      rw [hnone]
      generalize lowerMatch q t = score
      rintro ⟨⟩
      rfl
    rw [Early, hnone, hzero]
    exact iff_of_true (iff_of_false (lt_irrefl 0) hsub) trivial

/-- The search finds a text that has the letters of the query in order exactly where they stand
early enough, and it ranks two texts of different tiers as documented exactly where the tiers are
kept apart. -/
theorem search_found_and_ranked_iff (toLowerCase : CodeUnits → CodeUnits) {query : CodeUnits}
    (hquery : query ≠ []) (text text' : CodeUnits) :
    (Found toLowerCase query text ↔ Early (toLowerCase query) (toLowerCase text)) ∧
      (Ranked toLowerCase query text text' ↔
        KeptApart (toLowerCase query) (toLowerCase text) (toLowerCase text')) := by
  rw [Found, Ranked, fuzzyMatch_of_ne_nil hquery, fuzzyMatch_of_ne_nil hquery]
  exact ⟨lowerMatch_pos_iff, (scores_lowerMatch _ _).lt_iff_keptApart (scores_lowerMatch _ _)⟩

/-- `toLowerCase` on texts of ASCII. -/
def asciiLowerCase (s : CodeUnits) : CodeUnits :=
  s.map fun c ↦ if 65 ≤ c ∧ c ≤ 90 then c + 32 else c

theorem search_found_and_ranked_iff_abc :
    (Found asciiLowerCase [65, 66, 67] [97, 98, 99, 100] ↔
        Early [97, 98, 99] [97, 98, 99, 100]) ∧
      (Ranked asciiLowerCase [65, 66, 67] [97, 98, 99, 100] [120, 97, 98, 99] ↔
        KeptApart [97, 98, 99] [97, 98, 99, 100] [120, 97, 98, 99]) :=
  search_found_and_ranked_iff asciiLowerCase (by decide) _ _

/-- "ab" is not found behind 300 letters, and of "xabc" and "a-b-c" the second ranks first for
"abc". -/
theorem not_search_found_and_ranked :
    ¬(∀ query text, query ≠ [] → Found asciiLowerCase query text) ∧
      ¬∀ query text text', query ≠ [] → Ranked asciiLowerCase query text text' := by
  refine ⟨fun h ↦ ?_, fun h ↦ ?_⟩
  · have hfound := h [97, 98] (List.replicate 300 120 ++ [97, 98]) (by decide)
    exact absurd (hfound.mpr (by decide +kernel)) (by decide +kernel)
  · have hranked := h [97, 98, 99] [120, 97, 98, 99] [97, 45, 98, 45, 99] (by decide)
    exact absurd (hranked (by decide)) (by decide)

end Lasterm.Web.Palette
