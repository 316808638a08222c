import Mathlib.Data.List.DropRight
import Mathlib.Data.List.Infix
import Lasterm.Library.Scanner
import Lasterm.Library.Utf16

/-!
# Titles

`sanitizeTitle` of `sanitize.ts`, which hub and client put every title through that a program sets.

A tag is a `<` with everything up to the next `>`. What a reader of the raw title sees are the units
outside of tags that are no control characters (`visible`), and the first two steps leave just these
(`stripControls_stripTags`). A clean title (`IsClean`) is left as it is, so that sanitising twice
does what sanitising once does where the first pass gives a clean title.

It does so unless the cut to `maxRawLength`, which comes after the trimming, falls behind a blank
(`isClean_sanitizeTitle_iff`).
-/

namespace Lasterm.Sanitize

open Utf16

def lt : UInt16 := unit '<'

def gt : UInt16 := unit '>'

def MAX_RAW_LENGTH : ℕ := 256

/-- `[\u0000-\u001f\u007f-\u009f]`. -/
def isControl (u : UInt16) : Bool := u ≤ 0x1f || (0x7f ≤ u && u ≤ 0x9f)

/-- What `trim` removes: white space and line terminators. -/
def isBlank (u : UInt16) : Bool :=
  (0x9 ≤ u && u ≤ 0xd) || (0x2000 ≤ u && u ≤ 0x200a) ||
    u ∈ ([0x20, 0xa0, 0x1680, 0x2028, 0x2029, 0x202f, 0x205f, 0x3000, 0xfeff] : List UInt16)

/-- The matches of `<[^>]*>`: a `<` that no `>` follows stays. -/
def tags : Scanner UInt16 where
  token u us :=
    if u = lt then
      match splitAtFirst gt us with
      | some (_, rest) => ([], rest)
      | none => ([u], us)
    else ([u], us)
  shortens u us := by
    split
    · split
      · rename_i hsplit
        obtain ⟨heq, -⟩ := splitAtFirst_eq_some.mp hsplit
        rw [heq, List.length_append, List.length_cons]
        dsimp only
        omega
      · exact le_rfl
    · exact le_rfl

def stripTags (raw : Units) : Units := tags.scan raw

def stripControls (raw : Units) : Units := raw.filter fun u ↦ !isControl u

def trim (raw : Units) : Units := (raw.dropWhile isBlank).rdropWhile isBlank

def sanitizeTitle (raw : Units) (maxRawLength : ℕ) : Units :=
  (trim (stripControls (stripTags raw))).take maxRawLength

/-! ## Clean titles -/

/-- No `>` stands behind a `<`. -/
def TagFree (title : Units) : Prop := title.Pairwise fun u v ↦ u = lt → v ≠ gt

/-- What a title has to be. -/
structure IsClean (maxRawLength : ℕ) (title : Units) : Prop where
  length_le : title.length ≤ maxRawLength
  tagFree : TagFree title
  control : ∀ u ∈ title, isControl u = false
  leading : ∀ u ∈ title.head?, isBlank u = false
  trailing : ∀ u ∈ title.getLast?, isBlank u = false

/-! ## What is visible -/

/-- Whether the first unit of `back` is in a tag, with `front` before it: a `<` stands there or
since the last `>`, and a `>` there or behind. -/
def InTag (front back : Units) : Prop :=
  (lt ∈ front.rtakeWhile (· ≠ gt) ∨ back.head? = some lt) ∧ gt ∈ back

instance (front back : Units) : Decidable (InTag front back) := inferInstanceAs (Decidable (_ ∧ _))

/-- The units of `back` that are in no tag and no control characters, with `front` before them. -/
def visibleFrom (front : Units) : Units → Units
  | [] => []
  | u :: us =>
    if InTag front (u :: us) ∨ isControl u then visibleFrom (front ++ [u]) us
    else u :: visibleFrom (front ++ [u]) us

def visible (raw : Units) : Units := visibleFrom [] raw

/-- The cut falls behind a blank: with the blanks in front left out, the last visible unit that
there is room for is a blank, and one that is no blank comes behind it. -/
def CutsAtBlank (raw : Units) (maxRawLength : ℕ) : Prop :=
  ∃ blanks kept u rest, visible raw = blanks ++ (kept ++ u :: rest) ∧
    (∀ v ∈ blanks, isBlank v = true) ∧ (∃ v ∈ kept.head?, isBlank v = false) ∧
    kept.length + 1 = maxRawLength ∧ isBlank u = true ∧ ∃ v ∈ rest, isBlank v = false

variable {raw title front back inner rest : Units} {u : UInt16} {n : ℕ}

/-! ## The tags -/

theorem lt_ne_gt : lt ≠ gt := by decide

theorem tags_token_of_char (h : u = lt → gt ∉ back) : tags.token u back = ([u], back) := by
  rw [tags]
  dsimp only
  split
  · rename_i hu
    cases hsplit : splitAtFirst gt back with
    | none => rfl
    | some parts =>
      obtain ⟨heq, -⟩ := splitAtFirst_eq_some.mp hsplit
      exact absurd (by simp [heq]) (h hu)
  · rfl

theorem tags_token_of_tag (h : gt ∉ inner) :
    tags.token lt (inner ++ gt :: rest) = ([], rest) := by
  rw [tags]
  dsimp only
  rw [if_pos rfl, splitAtFirst_eq_some.mpr ⟨rfl, h⟩]

/-- A title starts with a unit that stays or with a tag. -/
theorem tags_induction {motive : Units → Prop} (nil : motive [])
    (char : ∀ u us, (u = lt → gt ∉ us) → motive us → motive (u :: us))
    (tag : ∀ inner rest, gt ∉ inner → motive rest → motive (lt :: (inner ++ gt :: rest)))
    (raw : Units) : motive raw := by
  induction hn : raw.length using Nat.strongRecOn generalizing raw with
  | ind n ih =>
    subst hn
    cases raw with
    | nil => exact nil
    | cons u us =>
      by_cases htag : u = lt ∧ gt ∈ us
      · obtain ⟨rfl, hmem⟩ := htag
        obtain ⟨inner, rest, rfl, hinner⟩ := List.eq_append_cons_of_mem hmem
        refine tag inner rest hinner (ih _ ?_ rest rfl)
        rw [List.length_cons, List.length_append, List.length_cons]
        omega
      · exact char u us (fun hu hmem ↦ htag ⟨hu, hmem⟩) (ih _ (Nat.lt_succ_self _) us rfl)

theorem stripTags_of_char (h : u = lt → gt ∉ back) :
    stripTags (u :: back) = u :: stripTags back := tags.scan_of_char (tags_token_of_char h)

theorem stripTags_of_tag (h : gt ∉ inner) :
    stripTags (lt :: (inner ++ gt :: rest)) = stripTags rest :=
  tags.scan_of_token (tags_token_of_tag h)

theorem stripTags_sublist (raw : Units) : (stripTags raw).Sublist raw := by
  induction raw using tags_induction with
  | nil => rw [stripTags, Scanner.scan_nil]
  | char u us hu ih =>
    rw [stripTags_of_char hu]
    exact ih.cons_cons u
  | tag inner rest hinner ih =>
    rw [stripTags_of_tag hinner]
    exact ((ih.cons gt).trans (List.sublist_append_right inner _)).cons lt

/-- What is deleted leaves no new tag behind. -/
theorem tagFree_stripTags (raw : Units) : TagFree (stripTags raw) := by
  induction raw using tags_induction with
  | nil =>
    rw [stripTags, Scanner.scan_nil]
    exact List.Pairwise.nil
  | char u us hu ih =>
    rw [stripTags_of_char hu]
    refine List.Pairwise.cons (fun v hv hlt hgt ↦ ?_) ih
    exact hu hlt (hgt ▸ (stripTags_sublist us).mem hv)
  | tag inner rest hinner ih =>
    rwa [stripTags_of_tag hinner]

theorem stripTags_of_tagFree (h : TagFree title) : stripTags title = title := by
  induction title with
  | nil => exact tags.scan_nil
  | cons u us ih =>
    obtain ⟨hu, hus⟩ := List.pairwise_cons.mp h
    rw [stripTags_of_char fun hlt hgt ↦ hu gt hgt hlt rfl, ih hus]

/-! ## The first two steps -/

/-- Behind a `<`, everything up to the next `>` is in a tag. -/
theorem visibleFrom_tag (hfront : lt ∈ front.rtakeWhile (· ≠ gt)) (h : gt ∉ inner) :
    visibleFrom front (inner ++ gt :: rest) = visibleFrom (front ++ (inner ++ [gt])) rest := by
  induction inner generalizing front with
  | nil =>
    have htag : InTag front (gt :: rest) := ⟨Or.inl hfront, List.mem_cons_self⟩
    rw [List.nil_append, visibleFrom, if_pos (Or.inl htag), List.nil_append]
  | cons u us ih =>
    have htag : InTag front (u :: (us ++ gt :: rest)) := ⟨Or.inl hfront, by simp⟩
    rw [List.mem_cons, not_or] at h
    have hopen : lt ∈ (front ++ [u]).rtakeWhile (· ≠ gt) := by
      rw [List.rtakeWhile_concat_pos _ _ u (by simpa using Ne.symm h.1)]
      exact List.mem_append_left _ hfront
    rw [List.cons_append, visibleFrom, if_pos (Or.inl htag), ih hopen h.2, List.append_assoc,
      List.singleton_append, List.cons_append]

theorem stripControls_stripTags_from (front : Units)
    (h : lt ∉ front.rtakeWhile (· ≠ gt) ∨ gt ∉ back) :
    stripControls (stripTags back) = visibleFrom front back := by
  induction back using tags_induction generalizing front with
  | nil =>
    rw [stripTags, Scanner.scan_nil]
    rfl
  | char u us hu ih =>
    have hout : ¬ InTag front (u :: us) := by
      rintro ⟨hlt, hgt⟩
      have hhead := hlt.resolve_left (h.resolve_right fun hnot ↦ hnot hgt)
      cases hhead
      exact hu rfl ((List.mem_cons.mp hgt).resolve_left lt_ne_gt.symm)
    have hrest : stripControls (stripTags us) = visibleFrom (front ++ [u]) us := by
      refine ih _ (or_iff_not_imp_right.mpr fun hgt ↦ ?_)
      rw [not_not] at hgt
      have hclosed := h.resolve_right fun hnot ↦ hnot (List.mem_cons_of_mem _ hgt)
      rw [List.rtakeWhile_concat]
      split
      · rw [List.mem_append, List.mem_singleton, not_or]
        exact ⟨hclosed, fun hlt ↦ hu hlt.symm hgt⟩
      · exact List.not_mem_nil
    rw [stripTags_of_char hu, visibleFrom, ← hrest, stripControls, List.filter_cons]
    cases hcontrol : isControl u <;> simp [hout, stripControls]
  | tag inner rest hinner ih =>
    have htag : InTag front (lt :: (inner ++ gt :: rest)) := ⟨Or.inr rfl, by simp⟩
    have hopen : lt ∈ (front ++ [lt]).rtakeWhile (· ≠ gt) := by
      rw [List.rtakeWhile_concat_pos _ _ lt (by decide)]
      exact List.mem_append_right _ (List.mem_singleton_self lt)
    have hclosed : lt ∉ (front ++ [lt] ++ (inner ++ [gt])).rtakeWhile (· ≠ gt) := by
      rw [← List.append_assoc, List.rtakeWhile_concat_neg _ _ gt (by simp)]
      exact List.not_mem_nil
    rw [stripTags_of_tag hinner, visibleFrom, if_pos (Or.inl htag), visibleFrom_tag hopen hinner]
    exact ih _ (Or.inl hclosed)

/-- The first two steps leave what is visible. -/
theorem stripControls_stripTags (raw : Units) : stripControls (stripTags raw) = visible raw :=
  stripControls_stripTags_from [] (Or.inl List.not_mem_nil)

/-! ## Trimming -/

theorem trim_sublist (raw : Units) : (trim raw).Sublist raw :=
  (List.rdropWhile_prefix _ _).sublist.trans (List.dropWhile_suffix _).sublist

theorem exists_trim (raw : Units) : ∃ blanks blanks', raw = blanks ++ (trim raw ++ blanks') ∧
    ∀ u ∈ blanks, isBlank u = true := by
  refine ⟨raw.takeWhile isBlank, (raw.dropWhile isBlank).rtakeWhile isBlank, ?_, ?_⟩
  · rw [trim, List.rdropWhile_append_rtakeWhile, List.takeWhile_append_dropWhile]
  · exact fun u hu ↦ List.mem_takeWhile_imp hu

theorem trim_head? (h : u ∈ (trim raw).head?) : isBlank u = false := by
  obtain ⟨back, hback⟩ := List.rdropWhile_prefix isBlank (raw.dropWhile isBlank)
  obtain ⟨rest, hrest⟩ := List.head?_eq_some_iff.mp h
  have hstop := List.head?_dropWhile_not isBlank raw
  rw [← hback, ← trim, hrest] at hstop
  simpa using hstop

theorem trim_getLast? (h : u ∈ (trim raw).getLast?) : isBlank u = false := by
  obtain ⟨hne, hlast⟩ := List.mem_getLast?_eq_getLast h
  have hstop := List.rdropWhile_last_not isBlank (raw.dropWhile isBlank) hne
  rw [Bool.not_eq_true] at hstop
  exact hlast ▸ hstop

theorem trim_of_clean (hleading : ∀ u ∈ title.head?, isBlank u = false)
    (htrailing : ∀ u ∈ title.getLast?, isBlank u = false) : trim title = title := by
  have hstart : title.dropWhile isBlank = title := by
    cases title with
    | nil => rfl
    | cons u us => rw [List.dropWhile_cons_of_neg (by simp [hleading u rfl])]
  rw [trim, hstart, List.rdropWhile_eq_self_iff]
  intro hne
  simp [htrailing _ (List.getLast_mem_getLast? hne)]

/-- Trimming stops on both sides at a unit that is no blank. -/
theorem trim_append {blanks kept : Units} (hblanks : ∀ u ∈ blanks, isBlank u = true)
    (hkept : ∃ u ∈ kept.head?, isBlank u = false) (hrest : ∃ u ∈ rest, isBlank u = false) :
    trim (blanks ++ (kept ++ u :: rest)) = kept ++ u :: rest.rdropWhile isBlank := by
  obtain ⟨v, hv, hblank⟩ := hkept
  obtain ⟨w, hw, hblank'⟩ := hrest
  obtain ⟨kept, rfl⟩ := List.head?_eq_some_iff.mp hv
  have hne : rest.reverse.dropWhile isBlank ≠ [] := by
    intro hnil
    rw [List.dropWhile_eq_nil_iff] at hnil
    exact Bool.false_ne_true (hblank'.symm.trans (hnil w (List.mem_reverse.mpr hw)))
  rw [trim, List.dropWhile_append_of_pos hblanks, List.cons_append,
    List.dropWhile_cons_of_neg (by simp [hblank]), List.rdropWhile, List.rdropWhile]
  simp [List.dropWhile_append, hne]

/-! ## The title -/

/-- A clean title is left as it is. -/
theorem IsClean.sanitizeTitle_eq (h : IsClean n title) : sanitizeTitle title n = title := by
  have hcontrols : stripControls title = title :=
    List.filter_eq_self.mpr fun u hu ↦ by simp [h.control u hu]
  rw [sanitizeTitle, stripTags_of_tagFree h.tagFree, hcontrols,
    trim_of_clean h.leading h.trailing, List.take_of_length_le h.length_le]

/-- All that a title is clean for, but for a blank at its end. -/
theorem isClean_of_trailing (h : ∀ u ∈ (sanitizeTitle raw n).getLast?, isBlank u = false) :
    IsClean n (sanitizeTitle raw n) where
  length_le := List.length_take_le _ _
  tagFree := (tagFree_stripTags raw).sublist
    ((List.take_sublist _ _).trans ((trim_sublist _).trans List.filter_sublist))
  control u hu := by
    have hmem := (trim_sublist _).mem (List.mem_of_mem_take hu)
    simpa using (List.mem_filter.mp hmem).2
  leading u hu := by
    rw [sanitizeTitle, List.head?_take] at hu
    split at hu
    · cases hu
    · exact trim_head? hu
  trailing := h

/-- Where the cut falls behind a blank, that blank ends the title. -/
theorem CutsAtBlank.exists_trailing (h : CutsAtBlank raw n) :
    ∃ u ∈ (sanitizeTitle raw n).getLast?, isBlank u = true := by
  obtain ⟨blanks, kept, u, rest, hvisible, hblanks, hkept, hn, hu, hrest⟩ := h
  refine ⟨u, ?_, hu⟩
  rw [sanitizeTitle, stripControls_stripTags, hvisible, trim_append hblanks hkept hrest, ← hn,
    List.take_append, List.take_of_length_le (Nat.le_succ _), Nat.add_sub_cancel_left,
    List.take_succ_cons, List.take_zero]
  simp

/-- A title ends with a blank only where the cut falls behind it. -/
theorem cutsAtBlank_of_trailing (hlast : u ∈ (sanitizeTitle raw n).getLast?)
    (hu : isBlank u = true) : CutsAtBlank raw n := by
  obtain ⟨blanks, blanks', hvisible, hblanks⟩ := exists_trim (visible raw)
  rw [sanitizeTitle, stripControls_stripTags] at hlast
  obtain ⟨title, htitle⟩ : ∃ title, trim (visible raw) = title := ⟨_, rfl⟩
  have hhead : ∀ v ∈ title.head?, isBlank v = false := fun v hv ↦ trim_head? (htitle ▸ hv)
  have hend : ∀ v ∈ title.getLast?, isBlank v = false := fun v hv ↦ trim_getLast? (htitle ▸ hv)
  rw [htitle] at hlast hvisible
  obtain ⟨kept, hkept⟩ := List.getLast?_eq_some_iff.mp hlast
  obtain ⟨rest, hrest⟩ : ∃ rest, title.drop n = rest := ⟨_, rfl⟩
  have hparts : title = kept ++ u :: rest := by
    rw [← List.take_append_drop n title, hkept, hrest, List.append_assoc, List.singleton_append]
  -- the blank is not the last unit of the trimmed title
  have hne : rest ≠ [] := by
    rintro rfl
    rw [hparts] at hend
    exact Bool.false_ne_true ((hend u (by simp)).symm.trans hu)
  have hn : kept.length + 1 = n := by
    have hlength := congrArg List.length hkept
    have hlt : n < title.length := List.length_lt_of_drop_ne_nil (hrest ▸ hne)
    rw [List.length_take, List.length_append, List.length_singleton] at hlength
    omega
  refine ⟨blanks, kept, u, rest ++ blanks', ?_, hblanks, ?_, hn, hu, ?_⟩
  · rw [hvisible, hparts, List.append_assoc, List.cons_append]
  · cases kept with
    | nil =>
      rw [hparts] at hhead
      exact absurd ((hhead u rfl).symm.trans hu) Bool.false_ne_true
    | cons v kept => exact ⟨v, rfl, hhead v (by rw [hparts]; rfl)⟩
  · refine ⟨rest.getLast hne, List.mem_append_left _ (List.getLast_mem hne), hend _ ?_⟩
    rw [hparts, List.getLast?_append, List.getLast?_cons, List.getLast?_eq_some_getLast hne]
    rfl

/-- **A title is clean unless the cut falls behind a blank.** -/
theorem isClean_sanitizeTitle_iff : IsClean n (sanitizeTitle raw n) ↔ ¬ CutsAtBlank raw n := by
  refine ⟨fun h hcut ↦ ?_, fun h ↦ isClean_of_trailing fun u hu ↦ ?_⟩
  · obtain ⟨u, hu, hblank⟩ := hcut.exists_trailing
    exact Bool.false_ne_true ((h.trailing u hu).symm.trans hblank)
  · rw [← Bool.not_eq_true]
    exact fun hblank ↦ h (cutsAtBlank_of_trailing hu hblank)

/-- **Sanitising is complete and stable unless the cut falls behind a blank.** -/
theorem sanitizeTitle_stable_iff (raw : Units) (n : ℕ) :
    (IsClean n (sanitizeTitle raw n) ∧
      sanitizeTitle (sanitizeTitle raw n) n = sanitizeTitle raw n) ↔ ¬ CutsAtBlank raw n := by
  rw [← isClean_sanitizeTitle_iff]
  exact ⟨And.left, fun h ↦ ⟨h, h.sanitizeTitle_eq⟩⟩

/-- A plain text is visible as a whole. -/
theorem visible_of_plain (h : ∀ u ∈ raw, u ≠ lt ∧ isControl u = false) : visible raw = raw := by
  have htagFree : TagFree raw := List.pairwise_of_forall_mem_list fun u hu _ _ hlt ↦
    absurd hlt (h u hu).1
  rw [← stripControls_stripTags, stripTags_of_tagFree htagFree]
  exact List.filter_eq_self.mpr fun u hu ↦ by simp [(h u hu).2]

/-- 255 letters, a blank and one more letter: the blank ends the title, and a second pass takes it
away. -/
theorem not_sanitizeTitle_stable :
    ¬ ∀ (raw : Units) (n : ℕ), IsClean n (sanitizeTitle raw n) ∧
      sanitizeTitle (sanitizeTitle raw n) n = sanitizeTitle raw n := by
  intro h
  have hend : ∀ u ∈ ascii " b", u ≠ lt ∧ isControl u = false :=
    List.all_iff_forall_prop.mp (by decide)
  have hplain : ∀ u ∈ List.replicate 255 (unit 'a') ++ ascii " b",
      u ≠ lt ∧ isControl u = false := by
    intro u hu
    rw [List.mem_append, List.mem_replicate] at hu
    rcases hu with ⟨-, rfl⟩ | hu
    · decide
    · exact hend u hu
  have hcut : CutsAtBlank (List.replicate 255 (unit 'a') ++ ascii " b") MAX_RAW_LENGTH := by
    refine ⟨[], List.replicate 255 (unit 'a'), unit ' ', [unit 'b'], visible_of_plain hplain,
      nofun, ⟨unit 'a', ?_, by decide⟩, ?_, by decide, unit 'b', by simp, by decide⟩
    · rw [List.head?_replicate]
      rfl
    · rw [List.length_replicate]
      rfl
  obtain ⟨u, hlast, hblank⟩ := hcut.exists_trailing
  exact Bool.false_ne_true (((h _ _).1.trailing u hlast).symm.trans hblank)

end Lasterm.Sanitize
