import Lasterm.Shared.VarExpansion
import Mathlib.Data.List.Nodup

/-!
# Variable expansion in Rust

`expand_vars` of `expand.rs`, which the agent uses where the other side has `expandVars`. It is a
loop over the text. Of two backslashes it puts out one wherever they are, and what stands between
`${` and the next closing brace is a name to it, whatever it is.

The two expanders agree under every environment exactly on the texts that are written in the grammar
that both document (`expandVars_eq_iff`): no two backslashes but in front of a reference, no `${`
with a closing brace somewhere behind it that is no reference, and no expansion of a name that every
object inherits.
-/

namespace Lasterm.Agent

open Shell

section Expand

variable (p : Platform) (v : Variables p)

def lookupVar (name : Text) : Option Text :=
  (v.env.bind (Entries.find p · name)).or (v.process.find p name)

/-- One turn of the loop of `expand_vars`. -/
def expandStep (c : Char) (cs : Text) : Text × Text :=
  if c = backslash then
    match cs with
    | [] => ([backslash], cs)
    | d :: rest =>
      -- two backslashes, with a `${` behind them or not
      if d = backslash then ([backslash], rest)
      else
        match readBraces cs with
        | some (name, rest') => (reference name, rest')
        | none => ([backslash], cs)
  else
    match readBraces (c :: cs) with
    | some (name, rest) => ((lookupVar p v name).getD (reference name), rest)
    | none => ([c], cs)

theorem expandStep_shortens (c : Char) (cs : Text) :
    (expandStep p v c cs).2.length ≤ cs.length := by
  rw [expandStep.eq_def]
  split
  · cases cs with
    | nil => exact Nat.le_refl _
    | cons d rest =>
      dsimp only
      split
      · exact Nat.le_succ _
      · cases hread : readBraces (d :: rest) with
        | none => exact Nat.le_refl _
        | some r =>
          have hlt := length_of_readBraces hread
          dsimp only
          omega
  · cases hread : readBraces (c :: cs) with
    | none => exact Nat.le_refl _
    | some r =>
      have hlt := length_of_readBraces hread
      rw [List.length_cons] at hlt
      dsimp only
      omega

def loop : Scanner Char := ⟨expandStep p v, expandStep_shortens p v⟩

def expandVars (input : Text) : Text := (loop p v).scan input

end Expand

/-! ## The grammar -/

/-- The name is found where no variable has it. -/
def IsInherited (p : Platform) (name : Text) : Prop :=
  p.caseInsensitive = false ∧ ∃ e ∈ objectPrototype, e.1 = name

/-- The text is written in the forms that both expanders document. -/
inductive InGrammar (p : Platform) : Text → Prop
  | nil : InGrammar p []
  | expand {name rest : Text} : isName name = true → ¬IsInherited p name → InGrammar p rest →
      InGrammar p (reference name ++ rest)
  | literal {name rest : Text} : isName name = true → InGrammar p rest →
      InGrammar p (backslash :: reference name ++ rest)
  | behindBackslash {name rest : Text} : isName name = true → ¬IsInherited p name →
      InGrammar p rest → InGrammar p (backslash :: backslash :: reference name ++ rest)
  | char {c : Char} {rest : Text} : readBraces (c :: rest) = none →
      (c = backslash → rest.head? ≠ some backslash ∧ readBraces rest = none) →
      InGrammar p rest → InGrammar p (c :: rest)

/-! ## One token -/

theorem dollar_ne_backslash : '$' ≠ backslash := by decide

theorem readBraces_backslash (rest : Text) : readBraces (backslash :: rest) = none := by
  cases h : readBraces (backslash :: rest) with
  | none => rfl
  | some r =>
    have heq := (readBraces_eq_some.mp h).1
    exact absurd (List.cons.inj heq).1 dollar_ne_backslash.symm

theorem readReference_eq_none {text : Text} (h : readBraces text = none) :
    readReference text = none := by
  rw [readReference, h]
  rfl

theorem readReference_of_not_isName {name rest : Text} (hclose : closeBrace ∉ name)
    (hname : isName name = false) : readReference (reference name ++ rest) = none := by
  rw [readReference, readBraces_eq_some.mpr ⟨rfl, hclose⟩, Option.filter_some,
    if_neg (by simp [hname])]

section Rust

variable {p : Platform} (v : Variables p) {name cs rest : Text} {c : Char}

theorem expandVars_twoBackslashes (rest : Text) :
    expandVars p v (backslash :: backslash :: rest) = backslash :: expandVars p v rest := by
  have htoken : (loop p v).token backslash (backslash :: rest) = ([backslash], rest) := by
    show expandStep p v backslash (backslash :: rest) = _
    rw [expandStep.eq_def, if_pos rfl]
    exact if_pos rfl
  exact (loop p v).scan_of_token htoken

theorem expandVars_literal (hread : readBraces cs = some (name, rest)) :
    expandVars p v (backslash :: cs) = reference name ++ expandVars p v rest := by
  refine (loop p v).scan_of_token ?_
  show expandStep p v backslash cs = _
  rw [expandStep.eq_def, if_pos rfl]
  cases cs with
  | nil => cases hread
  | cons d cs =>
    have hd : d ≠ backslash := by
      rintro rfl
      rw [readBraces_backslash] at hread
      cases hread
    dsimp only
    rw [if_neg hd, hread]

theorem expandVars_backslash (hhead : cs.head? ≠ some backslash) (hread : readBraces cs = none) :
    expandVars p v (backslash :: cs) = backslash :: expandVars p v cs := by
  refine (loop p v).scan_of_char ?_
  show expandStep p v backslash cs = _
  rw [expandStep.eq_def, if_pos rfl]
  cases cs with
  | nil => rfl
  | cons d rest =>
    have hd : d ≠ backslash := fun h ↦ hhead (congrArg some h)
    dsimp only
    rw [if_neg hd, hread]

theorem expandVars_reference {text : Text} (hread : readBraces text = some (name, rest)) :
    expandVars p v text = (lookupVar p v name).getD (reference name) ++ expandVars p v rest := by
  cases text with
  | nil => cases hread
  | cons c cs =>
    have hc : c ≠ backslash := by
      rintro rfl
      rw [readBraces_backslash] at hread
      cases hread
    refine (loop p v).scan_of_token ?_
    show expandStep p v c cs = _
    rw [expandStep.eq_def, if_neg hc, hread]

theorem expandVars_char (hc : c ≠ backslash) (hread : readBraces (c :: cs) = none) :
    expandVars p v (c :: cs) = c :: expandVars p v cs := by
  refine (loop p v).scan_of_char ?_
  show expandStep p v c cs = _
  rw [expandStep.eq_def, if_neg hc, hread]

end Rust

section TypeScript

variable {p : Platform} (v : Variables p) {name cs rest : Text} {c : Char}

theorem readReference_backslash (rest : Text) : readReference (backslash :: rest) = none :=
  readReference_eq_none (readBraces_backslash rest)

theorem shared_expandVars_twoBackslashes (hread : readReference cs = some (name, rest)) :
    Lasterm.expandVars p v (backslash :: backslash :: cs) =
      backslash :: expanded p v name ++ Lasterm.expandVars p v rest := by
  refine (expandScanner p v).scan_of_token ?_
  show expandToken p v backslash (backslash :: cs) = _
  have hdouble : readDoubleEscape backslash (backslash :: cs) = some (name, rest) := by
    rw [readDoubleEscape, if_pos ⟨rfl, rfl⟩, hread]
  rw [expandToken.eq_def, hdouble]

theorem shared_expandVars_literal (hread : readReference cs = some (name, rest)) :
    Lasterm.expandVars p v (backslash :: cs) = reference name ++ Lasterm.expandVars p v rest := by
  refine (expandScanner p v).scan_of_token ?_
  show expandToken p v backslash cs = _
  have hdouble : readDoubleEscape backslash cs = none := by
    cases cs with
    | nil => rfl
    | cons d cs =>
      refine if_neg fun h ↦ ?_
      rw [h.2, readReference_backslash] at hread
      cases hread
  have hescape : readEscape backslash cs = some (name, rest) := by
    rw [readEscape, if_pos rfl, hread]
  rw [expandToken.eq_def, hdouble, hescape]

theorem readDoubleEscape_of_ne (hc : c ≠ backslash) : readDoubleEscape c cs = none := by
  cases cs with
  | nil => rfl
  | cons d cs => exact if_neg fun h ↦ hc h.1

theorem shared_expandVars_reference {text : Text}
    (hread : readReference text = some (name, rest)) :
    Lasterm.expandVars p v text = expanded p v name ++ Lasterm.expandVars p v rest := by
  cases text with
  | nil => cases hread
  | cons c cs =>
    have hc : c ≠ backslash := by
      rintro rfl
      rw [readReference_backslash] at hread
      cases hread
    refine (expandScanner p v).scan_of_token ?_
    show expandToken p v c cs = _
    have hescape : readEscape c cs = none := if_neg hc
    rw [expandToken.eq_def, readDoubleEscape_of_ne hc, hescape, hread]

theorem shared_expandVars_backslash
    (htwo : ∀ rest, cs = backslash :: rest → readReference rest = none)
    (hread : readReference cs = none) :
    Lasterm.expandVars p v (backslash :: cs) = backslash :: Lasterm.expandVars p v cs := by
  refine (expandScanner p v).scan_of_char ?_
  show expandToken p v backslash cs = _
  have hdouble : readDoubleEscape backslash cs = none := by
    cases cs with
    | nil => rfl
    | cons d cs =>
      rw [readDoubleEscape]
      split
      · rename_i h
        exact htwo cs (congrArg (· :: cs) h.2)
      · rfl
  have hescape : readEscape backslash cs = none := by
    rw [readEscape, if_pos rfl, hread]
  rw [expandToken.eq_def, hdouble, hescape, readReference_backslash]

theorem shared_expandVars_char (hc : c ≠ backslash) (hread : readReference (c :: cs) = none) :
    Lasterm.expandVars p v (c :: cs) = c :: Lasterm.expandVars p v cs := by
  refine (expandScanner p v).scan_of_char ?_
  show expandToken p v c cs = _
  have hescape : readEscape c cs = none := if_neg hc
  rw [expandToken.eq_def, readDoubleEscape_of_ne hc, hescape, hread]

end TypeScript

/-! ## Texts of the grammar -/

section Grammar

variable {p : Platform} (v : Variables p)

theorem exists_mem_objectPrototype {e : Text × Text} (he : e ∈ processPrototype) :
    ∃ e' ∈ objectPrototype, e'.1 = e.1 := by
  rcases List.mem_cons.mp he with rfl | he
  · exact ⟨("constructor".toList, nativeCode "Object"), by simp [objectPrototype], rfl⟩
  · exact ⟨e, he, rfl⟩

theorem getProperty_of_not_isInherited {name : Text} {prototype : Entries}
    (hp : p.caseInsensitive = false) (h : ¬IsInherited p name)
    (hprototype : prototype ⊆ processPrototype) (entries : Entries) :
    getProperty p prototype entries name = entries.find p name := by
  have hnone : prototype.find? (fun e ↦ e.1 = name) = none := by
    rw [List.find?_eq_none]
    intro e he heq
    obtain ⟨e', he', hname⟩ := exists_mem_objectPrototype (hprototype he)
    exact h ⟨hp, e', he', hname.trans (of_decide_eq_true heq)⟩
  rw [getProperty, hnone, Option.map_none, Option.or_none]

theorem lookupEnv_eq_lookupVar {name : Text} (h : ¬IsInherited p name) :
    lookupEnv p v name = lookupVar p v name := by
  rw [lookupEnv]
  cases hp : p.caseInsensitive with
  | true => rfl
  | false =>
    rw [if_neg Bool.false_ne_true,
      getProperty_of_not_isInherited hp h (List.Subset.refl _), lookupVar]
    congr 2
    funext entries
    exact getProperty_of_not_isInherited hp h (List.subset_cons_self _ _) entries

theorem expanded_eq {name : Text} (h : ¬IsInherited p name) :
    expanded p v name = (lookupVar p v name).getD (reference name) := by
  rw [expanded, lookupEnv_eq_lookupVar v h]

/-- **In the grammar the two expanders agree.** -/
theorem expandVars_eq_of_inGrammar {input : Text} (h : InGrammar p input) :
    expandVars p v input = Lasterm.expandVars p v input := by
  induction h with
  | nil => rw [expandVars, Lasterm.expandVars, Scanner.scan_nil, Scanner.scan_nil]
  | @expand name rest hname hinherited _ ih =>
    have hclose := closeBrace_notMem_of_isName hname
    rw [expandVars_reference v (readBraces_eq_some.mpr ⟨rfl, hclose⟩),
      shared_expandVars_reference v (readReference_eq_some.mpr ⟨rfl, hname⟩),
      expanded_eq v hinherited, ih]
  | @literal name rest hname _ ih =>
    have hclose := closeBrace_notMem_of_isName hname
    rw [List.cons_append, expandVars_literal v (readBraces_eq_some.mpr ⟨rfl, hclose⟩),
      shared_expandVars_literal v (readReference_eq_some.mpr ⟨rfl, hname⟩), ih]
  | @behindBackslash name rest hname hinherited _ ih =>
    have hclose := closeBrace_notMem_of_isName hname
    rw [List.cons_append, List.cons_append, expandVars_twoBackslashes,
      shared_expandVars_twoBackslashes v (readReference_eq_some.mpr ⟨rfl, hname⟩),
      expandVars_reference v (readBraces_eq_some.mpr ⟨rfl, hclose⟩), expanded_eq v hinherited, ih]
    rfl
  | @char c rest hread hbackslash _ ih =>
    by_cases hc : c = backslash
    · subst hc
      obtain ⟨hhead, hrest⟩ := hbackslash rfl
      rw [expandVars_backslash v hhead hrest, shared_expandVars_backslash v
        (fun rest' heq ↦ absurd (congrArg List.head? heq) hhead) (readReference_eq_none hrest), ih]
    · rw [expandVars_char v hc hread, shared_expandVars_char v hc (readReference_eq_none hread), ih]

end Grammar

/-! ## Texts that are not in the grammar -/

section Differences

variable {p : Platform} {name cs rest text : Text} {c : Char}

def noVariables (p : Platform) : Variables p where
  env := none
  process := []
  env_nodup := fun _ h ↦ by cases h
  process_nodup := List.nodup_nil

def oneVariable (p : Platform) (name value : Text) : Variables p where
  env := some [(name, value)]
  process := []
  env_nodup := fun _ h ↦ by
    cases h
    exact List.nodup_singleton _
  process_nodup := List.nodup_nil

@[simp] theorem lookupVar_noVariables (name : Text) : lookupVar p (noVariables p) name = none := rfl

@[simp] theorem lookupVar_oneVariable (name value : Text) :
    lookupVar p (oneVariable p name value) name = some value := by
  simp [lookupVar, oneVariable, Entries.find]

/-- An inherited property has a text of its own. -/
theorem head?_of_mem_processPrototype :
    ∀ e ∈ processPrototype, e.2.head?.any (· ≠ '$') = true := by
  have hnative : ∀ name, (nativeCode name).head?.any (· ≠ '$') = true := by
    intro name
    rw [nativeCode, String.toList_append, String.toList_append]
    rfl
  intro e he
  simp only [processPrototype, objectPrototype, List.mem_cons, List.mem_map] at he
  rcases he with rfl | rfl | rfl | ⟨name, -, rfl⟩
  · exact hnative _
  · rfl
  · exact hnative _
  · exact hnative _

theorem head?_expanded_of_isInherited (h : IsInherited p name) (rest : Text) :
    (expanded p (noVariables p) name ++ rest).head? ≠ some '$' := by
  obtain ⟨hp, e, he, hname⟩ := h
  obtain ⟨found, hfound⟩ : ∃ found, processPrototype.find? (fun e ↦ e.1 = name) = some found := by
    rw [← Option.isSome_iff_exists, List.find?_isSome]
    exact ⟨e, List.mem_cons_of_mem _ he, decide_eq_true hname⟩
  have hlookup : lookupEnv p (noVariables p) name = some found.2 := by
    rw [lookupEnv, if_neg (by simp [hp]), noVariables, Option.bind_none, Option.none_or,
      getProperty, hfound]
    rfl
  have hhead := head?_of_mem_processPrototype found (List.mem_of_find?_eq_some hfound)
  rw [expanded, hlookup, Option.getD_some, List.head?_append]
  intro heq
  cases hfirst : found.2.head? with
  | none =>
    rw [hfirst] at hhead
    cases hhead
  | some d =>
    rw [hfirst] at hhead heq
    cases heq
    simp at hhead

/-- The expanders differ under some variables. -/
def Differ (p : Platform) (input : Text) : Prop :=
  ∃ v : Variables p, expandVars p v input ≠ Lasterm.expandVars p v input

theorem Differ.append {input : Text} (out : Variables p → Text)
    (hrust : ∀ v, expandVars p v input = out v ++ expandVars p v rest)
    (hshared : ∀ v, Lasterm.expandVars p v input = out v ++ Lasterm.expandVars p v rest)
    (h : Differ p rest) : Differ p input := by
  obtain ⟨v, hv⟩ := h
  refine ⟨v, fun heq ↦ hv ?_⟩
  rw [hrust v, hshared v] at heq
  exact List.append_cancel_left heq

/-! ### Runs of backslashes -/

/-- The number of backslashes at the start. -/
def leadingBackslashes (text : Text) : ℕ := (text.takeWhile (· = backslash)).length

theorem leadingBackslashes_cons (text : Text) :
    leadingBackslashes (backslash :: text) = leadingBackslashes text + 1 := by
  rw [leadingBackslashes, List.takeWhile_cons, if_pos (decide_eq_true rfl)]
  rfl

theorem leadingBackslashes_eq_zero (h : text.head? ≠ some backslash) :
    leadingBackslashes text = 0 := by
  cases text with
  | nil => rfl
  | cons c cs =>
    have hc : decide (c = backslash) = false := decide_eq_false fun hc ↦ h (congrArg some hc)
    rw [leadingBackslashes, List.takeWhile_cons, hc]
    rfl

theorem exists_run (text : Text) : ∃ n rest, text = List.replicate n backslash ++ rest ∧
    rest.head? ≠ some backslash := by
  induction text with
  | nil => exact ⟨0, [], rfl, by simp⟩
  | cons c cs ih =>
    by_cases hc : c = backslash
    · obtain ⟨n, rest, rfl, hrest⟩ := ih
      exact ⟨n + 1, rest, by rw [hc, List.replicate_succ, List.cons_append], hrest⟩
    · exact ⟨0, c :: cs, rfl, fun h ↦ hc (Option.some.inj h)⟩

theorem readReference_run (n : ℕ) (rest : Text) :
    readReference (List.replicate (n + 1) backslash ++ rest) = none := by
  rw [List.replicate_succ, List.cons_append]
  exact readReference_backslash _

/-- The loop of the agent puts out at most half of a run, rounded up, or down in front of braces. -/
theorem leadingBackslashes_expandVars (hrest : rest.head? ≠ some backslash) : ∀ n : ℕ,
    leadingBackslashes (expandVars p (noVariables p) (List.replicate n backslash ++ rest)) ≤
      if (readBraces rest).isSome then n / 2 else (n + 1) / 2
  | 0 => by
    refine Nat.le_trans (Nat.le_of_eq (leadingBackslashes_eq_zero ?_)) (Nat.zero_le _)
    rw [List.replicate_zero, List.nil_append]
    cases hread : readBraces rest with
    | some r =>
      rw [expandVars_reference _ hread]
      simp [reference, dollar_ne_backslash]
    | none =>
      cases rest with
      | nil => simp [expandVars]
      | cons c cs =>
        rw [expandVars_char _ (fun hc ↦ hrest (congrArg some hc)) hread]
        exact hrest
  | 1 => by
    rw [List.replicate_one, List.singleton_append]
    cases hread : readBraces rest with
    | some r =>
      rw [expandVars_literal _ hread]
      refine Nat.le_trans (Nat.le_of_eq (leadingBackslashes_eq_zero ?_)) (Nat.zero_le _)
      simp [reference, dollar_ne_backslash]
    | none =>
      have hzero := leadingBackslashes_expandVars hrest 0
      rw [hread, List.replicate_zero, List.nil_append] at hzero
      rw [expandVars_backslash _ hrest hread, leadingBackslashes_cons]
      simpa using hzero
  | n + 2 => by
    have ih := leadingBackslashes_expandVars hrest n
    rw [List.replicate_succ, List.replicate_succ, List.cons_append, List.cons_append,
      expandVars_twoBackslashes, leadingBackslashes_cons]
    split at ih <;> rename_i hsome
    · rw [if_pos hsome]
      omega
    · rw [if_neg hsome]
      omega

/-- Behind the first backslash of a run there is a reference only if the run has one or two. -/
theorem readReference_tail {n : ℕ} (hrest : rest.head? ≠ some backslash)
    (hn : n = 1 → readReference rest = none) {tail : Text}
    (h : List.replicate n backslash ++ rest = backslash :: tail) : readReference tail = none := by
  match n with
  | 0 => exact absurd (congrArg List.head? h) hrest
  | 1 =>
    cases h
    exact hn rfl
  | n + 2 =>
    rw [List.replicate_succ, List.cons_append] at h
    cases h
    exact readReference_run n rest

/-- The regular expression takes one backslash of a run at most. -/
theorem le_leadingBackslashes_shared (v : Variables p) (hrest : rest.head? ≠ some backslash) :
    ∀ n : ℕ, n ≤ leadingBackslashes
      (Lasterm.expandVars p v (List.replicate n backslash ++ rest)) +
        if (readReference rest).isSome then 1 else 0
  | 0 => Nat.zero_le _
  | n + 1 => by
    have ih := le_leadingBackslashes_shared v hrest n
    -- where the first backslash is put out by itself
    have hstep : (n = 1 → readReference rest = none) → (n = 0 → readReference rest = none) →
        n + 1 ≤ leadingBackslashes (Lasterm.expandVars p v
          (List.replicate (n + 1) backslash ++ rest)) +
            if (readReference rest).isSome then 1 else 0 := by
      intro hone hzero
      have hread : readReference (List.replicate n backslash ++ rest) = none := by
        cases n with
        | zero => exact hzero rfl
        | succ n => exact readReference_run n rest
      rw [List.replicate_succ, List.cons_append, shared_expandVars_backslash v
        (fun tail h ↦ readReference_tail hrest hone h) hread, leadingBackslashes_cons]
      omega
    cases hread : readReference rest with
    | none => exact hread ▸ hstep (fun _ ↦ hread) (fun _ ↦ hread)
    | some r =>
      match n with
      | 0 => exact Nat.le_add_left _ _
      | 1 =>
        rw [List.replicate_succ, List.replicate_one, List.cons_append, List.singleton_append,
          shared_expandVars_twoBackslashes v hread, List.cons_append, leadingBackslashes_cons]
        simp
      | n + 2 =>
        rw [← hread]
        exact hstep (fun h ↦ by omega) (fun h ↦ by omega)

/-- **Two backslashes** that are not in front of a reference are where the expanders part. -/
theorem differ_of_twoBackslashes (hread : readReference rest = none) :
    Differ p (backslash :: backslash :: rest) := by
  refine ⟨noVariables p, fun heq ↦ ?_⟩
  rw [expandVars_twoBackslashes, shared_expandVars_backslash _
    (fun tail h ↦ by cases h; exact hread) (readReference_backslash rest)] at heq
  have hlead := congrArg leadingBackslashes (List.cons.inj heq).2
  obtain ⟨n, behind, rfl, hbehind⟩ := exists_run rest
  have hrust := leadingBackslashes_expandVars (p := p) hbehind n
  have hshared := le_leadingBackslashes_shared (noVariables p) hbehind (n + 1)
  rw [List.replicate_succ, List.cons_append, ← hlead] at hshared
  cases hreference : readReference behind with
  | none =>
    rw [hreference] at hshared
    split at hrust <;> simp at hshared <;> omega
  | some r =>
    have hbraces : (readBraces behind).isSome = true := by
      rw [readReference, Option.filter_eq_some_iff] at hreference
      rw [hreference.1]
      rfl
    rw [hreference] at hshared
    rw [if_pos hbraces] at hrust
    cases n with
    | zero =>
      rw [List.replicate_zero, List.nil_append, hreference] at hread
      cases hread
    | succ n =>
      simp only [Option.isSome_some, if_true] at hshared
      omega

/-! ### Every text -/

theorem head?_expandVars_reference (hread : readBraces text = some (name, rest)) :
    (expandVars p (noVariables p) text).head? = some '$' := by
  rw [expandVars_reference _ hread, lookupVar_noVariables, Option.getD_none, reference]
  rfl

theorem expandVars_ne_expanded (hinherited : IsInherited p name)
    (hread : readReference text = some (name, rest)) :
    expandVars p (noVariables p) text ≠
      expanded p (noVariables p) name ++ Lasterm.expandVars p (noVariables p) rest := by
  have hname := (readReference_eq_some.mp hread).2
  have hbraces : readBraces text = some (name, rest) :=
    readBraces_eq_some.mpr ⟨(readReference_eq_some.mp hread).1, closeBrace_notMem_of_isName hname⟩
  intro heq
  refine head?_expanded_of_isInherited hinherited (Lasterm.expandVars p (noVariables p) rest) ?_
  rw [← heq]
  exact head?_expandVars_reference hbraces

theorem differ_of_isInherited (hinherited : IsInherited p name)
    (hread : readReference text = some (name, rest)) : Differ p text := by
  refine ⟨noVariables p, fun heq ↦ expandVars_ne_expanded hinherited hread ?_⟩
  exact heq.trans (shared_expandVars_reference _ hread)

theorem differ_of_isInherited_behind (hinherited : IsInherited p name)
    (hread : readReference text = some (name, rest)) :
    Differ p (backslash :: backslash :: text) := by
  refine ⟨noVariables p, fun heq ↦ expandVars_ne_expanded hinherited hread ?_⟩
  rw [expandVars_twoBackslashes, shared_expandVars_twoBackslashes _ hread, List.cons_append] at heq
  exact (List.cons.inj heq).2

/-- What is no name can be one to the agent. -/
theorem differ_of_braces (hc : c ≠ backslash) (hread : readBraces (c :: cs) = some (name, rest))
    (hreference : readReference (c :: cs) = none) : Differ p (c :: cs) := by
  refine ⟨oneVariable p name ['x'], fun heq ↦ ?_⟩
  rw [expandVars_reference _ hread, shared_expandVars_char _ hc hreference,
    lookupVar_oneVariable] at heq
  have hdollar : c = '$' := (List.cons.inj (readBraces_eq_some.mp hread).1).1
  rw [hdollar] at heq
  exact absurd (List.cons.inj heq).1 (by decide)

theorem differ_of_escaped_braces (hhead : cs.head? ≠ some backslash)
    (hread : readBraces cs = some (name, rest)) (hreference : readReference cs = none) :
    Differ p (backslash :: cs) := by
  refine ⟨noVariables p, fun heq ↦ ?_⟩
  rw [expandVars_literal _ hread, shared_expandVars_backslash _
    (fun tail h ↦ absurd (congrArg List.head? h) hhead) hreference] at heq
  exact absurd (List.cons.inj heq).1 dollar_ne_backslash

theorem inGrammar_or_differ_behind (hread : readReference text = some (name, rest))
    (ih : InGrammar p rest ∨ Differ p rest) :
    InGrammar p (backslash :: backslash :: text) ∨ Differ p (backslash :: backslash :: text) := by
  by_cases hinherited : IsInherited p name
  · exact .inr (differ_of_isInherited_behind hinherited hread)
  · obtain ⟨rfl, hname⟩ := readReference_eq_some.mp hread
    refine ih.imp (.behindBackslash hname hinherited) fun h ↦ ?_
    refine h.append (fun v ↦ backslash :: expanded p v name) (fun v ↦ ?_) fun v ↦
      shared_expandVars_twoBackslashes v hread
    rw [expandVars_twoBackslashes, expandVars_reference v (readBraces_eq_some.mpr
      ⟨rfl, closeBrace_notMem_of_isName hname⟩), expanded_eq v hinherited]
    rfl

theorem inGrammar_or_differ_escaped (hhead : cs.head? ≠ some backslash)
    (hread : readBraces cs = some (name, rest)) (ih : InGrammar p rest ∨ Differ p rest) :
    InGrammar p (backslash :: cs) ∨ Differ p (backslash :: cs) := by
  obtain ⟨rfl, hclose⟩ := readBraces_eq_some.mp hread
  cases hname : isName name with
  | true =>
    refine ih.imp (.literal hname) fun h ↦ ?_
    exact h.append (fun _ ↦ reference name) (fun v ↦ expandVars_literal v hread) fun v ↦
      shared_expandVars_literal v (readReference_eq_some.mpr ⟨rfl, hname⟩)
  | false =>
    exact .inr (differ_of_escaped_braces hhead hread (readReference_of_not_isName hclose hname))

theorem inGrammar_or_differ_reference (hread : readBraces (c :: cs) = some (name, rest))
    (hc : c ≠ backslash) (ih : InGrammar p rest ∨ Differ p rest) :
    InGrammar p (c :: cs) ∨ Differ p (c :: cs) := by
  obtain ⟨heq, hclose⟩ := readBraces_eq_some.mp hread
  cases hname : isName name with
  | true =>
    have hreference : readReference (c :: cs) = some (name, rest) :=
      readReference_eq_some.mpr ⟨heq, hname⟩
    by_cases hinherited : IsInherited p name
    · exact .inr (differ_of_isInherited hinherited hreference)
    · refine ih.imp (fun h ↦ heq ▸ .expand hname hinherited h) fun h ↦ ?_
      refine h.append (expanded p · name) (fun v ↦ ?_) fun v ↦
        shared_expandVars_reference v hreference
      rw [expandVars_reference v hread, expanded_eq v hinherited]
  | false =>
    exact .inr (differ_of_braces hc hread (heq ▸ readReference_of_not_isName hclose hname))

/-- **A text is in the grammar, or the expanders differ on it.** The two are followed up to where
they part. -/
theorem inGrammar_or_differ (p : Platform) (input : Text) : InGrammar p input ∨ Differ p input := by
  match input with
  | [] => exact .inl .nil
  | c :: cs =>
    by_cases hc : c = backslash
    · subst hc
      by_cases hhead : cs.head? = some backslash
      · obtain ⟨text, htext⟩ := List.head?_eq_some_iff.mp hhead
        cases hread : readReference text with
        | none => exact htext ▸ .inr (differ_of_twoBackslashes hread)
        | some r =>
          have hlt : r.2.length < cs.length := by
            rw [htext, List.length_cons]
            exact Nat.lt_of_succ_lt (Nat.lt_succ_of_lt (length_of_readReference hread))
          exact htext ▸ inGrammar_or_differ_behind hread (inGrammar_or_differ p r.2)
      · cases hread : readBraces cs with
        | none =>
          refine (inGrammar_or_differ p cs).imp
            (.char (readBraces_backslash cs) fun _ ↦ ⟨hhead, hread⟩) fun h ↦ ?_
          exact h.append (fun _ ↦ [backslash]) (fun v ↦ expandVars_backslash v hhead hread) fun v ↦
            shared_expandVars_backslash v (fun tail h ↦ absurd (congrArg List.head? h) hhead)
              (readReference_eq_none hread)
        | some r =>
          have hlt := length_of_readBraces hread
          exact inGrammar_or_differ_escaped hhead hread (inGrammar_or_differ p r.2)
    · cases hread : readBraces (c :: cs) with
      | none =>
        refine (inGrammar_or_differ p cs).imp (.char hread fun h ↦ absurd h hc) fun h ↦ ?_
        exact h.append (fun _ ↦ [c]) (fun v ↦ expandVars_char v hc hread) fun v ↦
          shared_expandVars_char v hc (readReference_eq_none hread)
      | some r =>
        have hlt := length_of_readBraces hread
        exact inGrammar_or_differ_reference hread hc (inGrammar_or_differ p r.2)
termination_by input.length
decreasing_by all_goals simp only [List.length_cons] at *; omega

end Differences

/-- **Where the two expanders agree**: a text is expanded to the same by both under every
environment, exactly if it is written in the grammar. Two names in a profile that are one on Windows
are left out, see `Variables`. -/
theorem expandVars_eq_iff (p : Platform) (input : Text) :
    (∀ v : Variables p, expandVars p v input = Lasterm.expandVars p v input) ↔
      InGrammar p input := by
  constructor
  · intro h
    refine (inGrammar_or_differ p input).resolve_right fun hdiffer ↦ ?_
    obtain ⟨v, hv⟩ := hdiffer
    exact hv (h v)
  · intro h v
    exact expandVars_eq_of_inGrammar v h

/-- The agent takes a backslash from the start of a UNC path. -/
theorem expandVars_uncPath :
    ¬ ∀ (p : Platform) (v : Variables p) (input : Text),
      expandVars p v input = Lasterm.expandVars p v input := by
  intro hall
  have heq := hall ⟨true, id⟩ (noVariables _) (backslash :: backslash :: "srv".toList)
  rw [expandVars_twoBackslashes, shared_expandVars_backslash _ (fun tail h ↦ by cases h; rfl) rfl,
    show "srv".toList = 's' :: "rv".toList from rfl, expandVars_char _ (by decide) rfl,
    shared_expandVars_backslash _ (fun tail h ↦ by cases h) rfl] at heq
  exact absurd (List.cons.inj (List.cons.inj heq).2).1 (by decide)

end Lasterm.Agent
