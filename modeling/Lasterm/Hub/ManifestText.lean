import Lasterm.Hub.AgentCache
import Mathlib.Data.List.Nodup

/-!
# What a checksum manifest says

The grammar of a line of a checksum manifest (`IsEntry`) without the expression that the code
matches, and when a manifest gives a digest for a name: every line that is not blank has to be an
entry, and no two of them for one name (`parseChecksumManifest_eq_some_iff`).
-/

namespace Lasterm.Hub

open Shell

/-! ## Lines -/

/-- A line that gives the digest for the name. The star of a binary file is no part of the name,
unless nothing stands behind it. -/
structure IsEntry (line digest name : Text) : Prop where
  parts : ∃ blanks star, line = digest ++ (blanks ++ (star ++ name)) ∧ blanks ≠ [] ∧
    blanks.all isBlank = true ∧
    (star = ['*'] ∨
      star = [] ∧ (∀ c ∈ name.head?, isBlank c = false) ∧ (name.head? = some '*' → name = ['*']))
  length_digest : digest.length = 64
  hex : digest.all isHexDigit = true
  name_ne_nil : name ≠ []
  one_line : name.any isLineTerminator = false

theorem isEntry_of_match {line digest name : Text}
    (h : matchManifestLine line = some (digest, name)) : IsEntry line digest name := by
  unfold matchManifestLine at h
  dsimp only at h
  rw [Option.ite_none_right_eq_some] at h
  obtain ⟨⟨hlength, hhex, hblanks, hne, hline⟩, hname⟩ := h
  have hcut : line = line.take 64 ++ ((line.drop 64).takeWhile isBlank ++
      (line.drop 64).dropWhile isBlank) := by
    rw [List.takeWhile_append_dropWhile, List.take_append_drop]
  have hall : ((line.drop 64).takeWhile isBlank).all isBlank = true := List.all_takeWhile
  rw [Bool.not_eq_true] at hline
  have hhead := List.head?_dropWhile_not isBlank (line.drop 64)
  generalize (line.drop 64).dropWhile isBlank = rest at *
  split at hname
  · -- a star, and a name behind it
    rename_i c rest
    obtain ⟨rfl, rfl⟩ := Prod.mk.inj (Option.some.inj hname)
    have hstar : ('*' :: c :: rest).any isLineTerminator = (c :: rest).any isLineTerminator := rfl
    exact ⟨⟨_, ['*'], hcut, hblanks, hall, .inl rfl⟩, hlength, hhex, List.cons_ne_nil _ _,
      hstar ▸ hline⟩
  · rename_i hplain
    obtain ⟨rfl, rfl⟩ := Prod.mk.inj (Option.some.inj hname)
    refine ⟨⟨_, [], hcut, hblanks, hall, .inr ⟨rfl, fun c hc ↦ ?_, fun hstar ↦ ?_⟩⟩, hlength, hhex,
      hne, hline⟩
    · rw [Option.mem_def.mp hc] at hhead
      exact hhead
    · obtain ⟨tail, rfl⟩ := List.head?_eq_some_iff.mp hstar
      cases tail with
      | nil => rfl
      | cons c tail => exact absurd rfl (hplain c tail)

theorem IsEntry.match_eq {line digest name : Text} (h : IsEntry line digest name) :
    matchManifestLine line = some (digest, name) := by
  obtain ⟨⟨blanks, star, rfl, hblanks, hall, hstar⟩, hlength, hhex, hname, hline⟩ := h
  have htake : (digest ++ (blanks ++ (star ++ name))).take 64 = digest :=
    List.take_left' hlength
  have hdrop : (digest ++ (blanks ++ (star ++ name))).drop 64 = blanks ++ (star ++ name) :=
    List.drop_left' hlength
  obtain ⟨c, rest, hrest⟩ : ∃ c rest, star ++ name = c :: rest :=
    List.exists_cons_of_ne_nil (List.append_ne_nil_of_right_ne_nil _ hname)
  have hc : ¬isBlank c = true := by
    rcases hstar with rfl | ⟨rfl, hhead, -⟩
    · cases hrest
      decide
    · rw [List.nil_append] at hrest
      rw [hhead c (by rw [hrest]; rfl)]
      exact Bool.false_ne_true
  have hblank : (blanks ++ (star ++ name)).takeWhile isBlank = blanks := by
    rw [List.takeWhile_append_of_pos (List.all_eq_true.mp hall), hrest,
      List.takeWhile_cons_of_neg hc, List.append_nil]
  have hdropWhile : (blanks ++ (star ++ name)).dropWhile isBlank = star ++ name := by
    rw [List.dropWhile_append_of_pos (List.all_eq_true.mp hall), hrest,
      List.dropWhile_cons_of_neg hc]
  have hterminator : (star ++ name).any isLineTerminator = false := by
    rcases hstar with rfl | ⟨rfl, -, -⟩ <;> exact hline
  unfold matchManifestLine
  simp only [htake, hdrop, hblank, hdropWhile]
  rw [if_pos ⟨hlength, hhex, hblanks, hrest ▸ List.cons_ne_nil c rest,
    Bool.eq_false_iff.mp hterminator⟩]
  rcases hstar with rfl | ⟨rfl, -, hstar⟩
  · obtain ⟨d, ds, rfl⟩ := List.exists_cons_of_ne_nil hname
    rfl
  · rw [List.nil_append]
    split
    · rename_i d ds
      exact absurd (hstar rfl) (by simp)
    · rfl

/-! ## All lines -/

/-- The lines that are not blank. -/
def manifestLines (manifest : Text) : List Text :=
  ((manifest.splitOn '\n').map AgentDeployer.trim).filter (· ≠ [])

def PathFree (name : Text) : Prop := name.any (fun c ↦ c = '/' || c = backslash) = false

/-- The entries of the lines, each of its own line. -/
def Lists (lines : List Text) (entries : List (Text × Text)) : Prop :=
  List.Forall₂ (fun line entry ↦ IsEntry line entry.1 entry.2 ∧ PathFree entry.2) lines entries

/-- The digest of the last entry for the name, or what was found before. -/
def foundIn (expectedBasename : Text) (found : Option Text) (entries : List (Text × Text)) :
    Option Text :=
  entries.foldl
    (fun found entry ↦
      if entry.2 = expectedBasename then some (entry.1.map Char.toLower) else found) found

variable {e : Text} {seen : List Text} {found : Option Text}

/-- What the body of the loop does with a line. -/
theorem parseManifestLine_eq_ok {raw : Text} {s : List Text × Option Text}
    (hblank : AgentDeployer.trim raw ≠ []) :
    parseManifestLine e (seen, found) raw = .ok s ↔
      ∃ digest name, IsEntry (AgentDeployer.trim raw) digest name ∧ PathFree name ∧ name ∉ seen ∧
        s = (seen ++ [name], foundIn e found [(digest, name)]) := by
  unfold parseManifestLine
  dsimp only
  rw [if_neg hblank]
  cases hmatch : matchManifestLine (AgentDeployer.trim raw) with
  | none =>
    refine iff_of_false nofun ?_
    rintro ⟨digest, name, hentry, -⟩
    cases hmatch.symm.trans hentry.match_eq
  | some entry =>
    obtain ⟨digest, name⟩ := entry
    have hentry := isEntry_of_match hmatch
    have hsame : ∀ digest' name', IsEntry (AgentDeployer.trim raw) digest' name' →
        digest' = digest ∧ name' = name := by
      intro digest' name' hentry'
      exact Prod.mk.inj (Option.some.inj (hentry'.match_eq.symm.trans hmatch))
    dsimp only
    split
    · rename_i hpath
      refine iff_of_false nofun ?_
      rintro ⟨digest', name', hentry', hfree, -⟩
      obtain ⟨rfl, rfl⟩ := hsame _ _ hentry'
      exact Bool.false_ne_true (hfree.symm.trans hpath)
    rename_i hpath
    split
    · rename_i hseen
      refine iff_of_false nofun ?_
      rintro ⟨digest', name', hentry', -, hnew, -⟩
      obtain ⟨rfl, rfl⟩ := hsame _ _ hentry'
      exact hnew hseen
    · rename_i hseen
      constructor
      · intro h
        exact ⟨digest, name, hentry, Bool.eq_false_iff.mpr hpath, hseen,
          (Except.ok.inj h).symm⟩
      · rintro ⟨digest', name', hentry', -, -, rfl⟩
        obtain ⟨rfl, rfl⟩ := hsame _ _ hentry'
        rfl

private theorem nodup_snoc {l : List Text} {name : Text} :
    (l ++ [name]).Nodup ↔ name ∉ l ∧ l.Nodup := by
  rw [← List.concat_eq_append, List.nodup_concat]

theorem foldlM_parseManifestLine {raws : List Text} {s : List Text × Option Text}
    (hseen : seen.Nodup) :
    raws.foldlM (parseManifestLine e) (seen, found) = .ok s ↔
      ∃ entries, Lists ((raws.map AgentDeployer.trim).filter (· ≠ [])) entries ∧
        (seen ++ entries.map Prod.snd).Nodup ∧
        s = (seen ++ entries.map Prod.snd, foundIn e found entries) := by
  induction raws generalizing seen found s with
  | nil =>
    constructor
    · intro h
      refine ⟨[], .nil, ?_, ?_⟩
      · rwa [List.map_nil, List.append_nil]
      · rw [List.map_nil, List.append_nil]
        exact (Except.ok.inj h).symm
    · rintro ⟨entries, hlists, -, rfl⟩
      cases hlists
      rw [List.map_nil, List.append_nil]
      rfl
  | cons raw raws ih =>
    rw [List.foldlM_cons, List.map_cons]
    by_cases hblank : AgentDeployer.trim raw = []
    · have hskip : parseManifestLine e (seen, found) raw = .ok (seen, found) := by
        unfold parseManifestLine
        exact if_pos hblank
      rw [hskip, List.filter_cons_of_neg (by simp [hblank])]
      exact ih hseen
    · rw [List.filter_cons_of_pos (by simp [hblank])]
      constructor
      · intro h
        cases hline : parseManifestLine e (seen, found) raw with
        | error failure =>
          rw [hline] at h
          cases h
        | ok s₁ =>
          obtain ⟨digest, name, hentry, hfree, hnew, rfl⟩ :=
            (parseManifestLine_eq_ok hblank).mp hline
          rw [hline] at h
          have hseen' : (seen ++ [name]).Nodup := nodup_snoc.mpr ⟨hnew, hseen⟩
          obtain ⟨entries, hlists, hnodup, rfl⟩ := (ih hseen').mp h
          rw [← List.append_cons] at hnodup ⊢
          exact ⟨(digest, name) :: entries, .cons ⟨hentry, hfree⟩ hlists, hnodup, rfl⟩
      · rintro ⟨entries, hlists, hnodup, rfl⟩
        cases hlists with
        | cons hentry hlists =>
          rename_i entry entries
          rw [List.map_cons, List.append_cons] at hnodup ⊢
          have hseen' : (seen ++ [entry.2]).Nodup := hnodup.sublist (List.sublist_append_left _ _)
          have hline : parseManifestLine e (seen, found) raw =
              .ok (seen ++ [entry.2], foundIn e found [(entry.1, entry.2)]) :=
            (parseManifestLine_eq_ok hblank).mpr
              ⟨entry.1, entry.2, hentry.1, hentry.2, (nodup_snoc.mp hseen').1, rfl⟩
          rw [hline]
          exact (ih hseen').mpr ⟨entries, hlists, hnodup, rfl⟩

theorem foundIn_eq_some_iff {entries : List (Text × Text)} {digest : Text}
    (h : (entries.map Prod.snd).Nodup) :
    foundIn e found entries = some digest ↔
      (∃ entry ∈ entries, entry.2 = e ∧ entry.1.map Char.toLower = digest) ∨
        found = some digest ∧ ∀ entry ∈ entries, entry.2 ≠ e := by
  induction entries generalizing found with
  | nil =>
    refine ⟨fun hfound ↦ .inr ⟨hfound, fun _ hentry ↦ absurd hentry List.not_mem_nil⟩, ?_⟩
    rintro (⟨entry, hentry, -⟩ | ⟨hfound, -⟩)
    · exact absurd hentry List.not_mem_nil
    · exact hfound
  | cons entry entries ih =>
    rw [List.map_cons, List.nodup_cons] at h
    rw [foundIn, List.foldl_cons, ← foundIn, ih h.2, List.exists_mem_cons_iff, List.forall_mem_cons]
    split
    · rename_i heq
      have hother : ∀ entry' ∈ entries, entry'.2 ≠ e :=
        fun entry' hmem heq' ↦ h.1 (heq.trans heq'.symm ▸ List.mem_map_of_mem hmem)
      have hnone : ¬∃ entry' ∈ entries, entry'.2 = e ∧ entry'.1.map Char.toLower = digest :=
        fun ⟨entry', hmem, heq', _⟩ ↦ hother entry' hmem heq'
      rw [or_iff_right hnone, or_iff_left hnone, Option.some.injEq, and_iff_left hother,
        and_iff_right heq, or_iff_left fun hright ↦ hright.2.1 heq]
    · rename_i hne
      rw [and_iff_right (show entry.2 ≠ e from hne), or_assoc,
        or_iff_right fun hleft : entry.2 = e ∧ _ ↦ hne hleft.1]

/-- **When a manifest gives a digest.** -/
theorem parseChecksumManifest_eq_some_iff {manifest digest : Text} :
    parseChecksumManifest manifest e = .ok (some digest) ↔
      ∃ entries, Lists (manifestLines manifest) entries ∧ (entries.map Prod.snd).Nodup ∧
        ∃ entry ∈ entries, entry.2 = e ∧ entry.1.map Char.toLower = digest := by
  have hfold : ∀ s, (manifest.splitOn '\n').foldlM (parseManifestLine e) ([], none) = .ok s ↔ _ :=
    fun s ↦ foldlM_parseManifestLine (s := s) List.nodup_nil
  rw [parseChecksumManifest]
  constructor
  · intro h
    cases hlines : (manifest.splitOn '\n').foldlM (parseManifestLine e) ([], none) with
    | error failure =>
      rw [hlines] at h
      cases h
    | ok s =>
      obtain ⟨entries, hlists, hnodup, rfl⟩ := (hfold s).mp hlines
      rw [hlines] at h
      have hfound := (foundIn_eq_some_iff hnodup).mp (Except.ok.inj h)
      exact ⟨entries, hlists, hnodup, hfound.resolve_right fun hright ↦ by cases hright.1⟩
  · rintro ⟨entries, hlists, hnodup, hentry⟩
    rw [(hfold _).mpr ⟨entries, hlists, hnodup, rfl⟩]
    exact congrArg Except.ok ((foundIn_eq_some_iff hnodup).mpr (.inl hentry))

end Lasterm.Hub
