import Lasterm.Library.Shell

/-!
# Command lines

What becomes of a whole command line. A POSIX shell splits it into words (`posixWords`). On Windows
two programs read it: `cmd.exe` puts the values of variables in and looks for the end of the command
(`cmdTail`), and the program that is called splits the rest into arguments, by the documented rules
of `CommandLineToArgvW` (`splitArgs`).

A text that has neither a quotation mark nor a line end and does not end in a backslash is one
argument when it stands in quotation marks (`windowsArgs_quoted`).
-/

namespace Shell

/-! ## Words of a POSIX shell -/

variable {line text rest rest' w : Text}

private theorem exists_of_map_cons {r : Option (Text × Text)} {c : Char}
    (h : r.map (fun w ↦ (c :: w.1, w.2)) = some (w, rest)) : ∃ w, r = some (w, rest) := by
  obtain ⟨⟨w', rest'⟩, hr, heq⟩ := Option.map_eq_some_iff.mp h
  cases heq
  exact ⟨w', hr⟩

theorem length_of_readWord {q : Quoting} (h : readWord q text = some (w, rest)) :
    rest.length ≤ text.length - 1 := by
  fun_induction readWord q text generalizing w with
  | case1 => cases h; exact Nat.le_refl _
  | case2 => cases h
  | case3 => cases h
  | case4 => cases h; exact Nat.le_refl _
  | case5 cs hblank ih => exact Nat.le_trans (ih h) (Nat.pred_le _)
  | case6 cs hblank hquote ih => exact Nat.le_trans (ih h) (Nat.pred_le _)
  | case7 c cs hblank hquote hslash hplain ih =>
    obtain ⟨w', hr⟩ := exists_of_map_cons h
    exact Nat.le_trans (ih hr) (Nat.pred_le _)
  | case8 => cases h
  | case9 cs ih => exact Nat.le_trans (ih h) (Nat.pred_le _)
  | case10 c cs hquote ih =>
    obtain ⟨w', hr⟩ := exists_of_map_cons h
    exact Nat.le_trans (ih hr) (Nat.pred_le _)
  | case11 c cs ih =>
    obtain ⟨w', hr⟩ := exists_of_map_cons h
    exact Nat.le_trans (ih hr) (Nat.pred_le _)

/-- The words of a line, where every shell reads it the same way. -/
def posixWords : Text → Option (List Text)
  | [] => some []
  | c :: cs =>
    if c = ' ' then posixWords cs
    else match _h : readWord .unquoted (c :: cs) with
      | none => none
      | some (w, rest) => (posixWords rest).map (w :: ·)
termination_by line => line.length
decreasing_by
  · exact Nat.lt_succ_self _
  · exact Nat.lt_succ_of_le (length_of_readWord _h)

@[simp] theorem posixWords_nil : posixWords [] = some [] := by
  rw [posixWords]

theorem posixWords_of_readWord (hblank : text.head? ≠ some ' ') (hne : text ≠ [])
    (h : readWord .unquoted text = some (w, rest)) :
    posixWords text = (posixWords rest).map (w :: ·) := by
  obtain ⟨c, cs, rfl⟩ := List.exists_cons_of_ne_nil hne
  rw [posixWords, if_neg fun hc ↦ hblank (congrArg some hc)]
  split
  · rename_i hnone
    rw [h] at hnone
    cases hnone
  · rename_i hsome
    rw [h] at hsome
    cases hsome
    rfl

/-! ## cmd.exe -/

/-- The characters that end a command or redirect it, where they are not quoted. -/
def isOperator (c : Char) : Bool := c ∈ "&|<>()".toList

/-- Where the reader is: in plain text, behind a quotation mark that is open, or behind a `^`. -/
inductive CmdState
  | plain
  | quoted
  | caret
  deriving DecidableEq

/-- What a command gets of the rest of its line, quotation marks included. There is none where
something else than this command is on the line. -/
def cmdTail : CmdState → Text → Option Text
  | _, [] => some []
  | .plain, c :: cs =>
    if c = '\r' then cmdTail .plain cs
    else if c = '\n' then some []
    else if c = quotation then (cmdTail .quoted cs).map (c :: ·)
    else if c = '^' then cmdTail .caret cs
    else if isOperator c then none
    else (cmdTail .plain cs).map (c :: ·)
  | .quoted, c :: cs =>
    if c = '\r' then cmdTail .quoted cs
    else if c = '\n' then some []
    else if c = quotation then (cmdTail .plain cs).map (c :: ·)
    else (cmdTail .quoted cs).map (c :: ·)
  | .caret, c :: cs =>
    if c = '\r' then cmdTail .caret cs
    else if c = '\n' then none
    else (cmdTail .plain cs).map (c :: ·)

/-! ## Arguments of a program -/

/-- An argument read up to some backslashes, whose meaning the next character decides. -/
def flushSlashes (word : Option Text) (slashes : ℕ) : Option Text :=
  if slashes = 0 then word else some (word.getD [] ++ List.replicate slashes backslash)

/-- The rules of `CommandLineToArgvW`: blanks separate arguments outside of quotation marks, and in
front of a quotation mark two backslashes are one, and a last one takes the mark its meaning. There
is no word before something of it has been read. -/
def splitArgs : Bool → ℕ → Option Text → Text → List Text
  | _, slashes, word, [] => (flushSlashes word slashes).toList
  | quoted, slashes, word, c :: cs =>
    if c = backslash then splitArgs quoted (slashes + 1) word cs
    else if c = quotation then
      let word := word.getD [] ++ List.replicate (slashes / 2) backslash
      if slashes % 2 = 1 then splitArgs quoted 0 (some (word ++ [quotation])) cs
      else splitArgs (!quoted) 0 (some word) cs
    else if !quoted && (c = ' ' || c = '\t') then
      (flushSlashes word slashes).toList ++ splitArgs false 0 none cs
    else splitArgs quoted 0 (some ((flushSlashes word slashes).getD [] ++ [c])) cs

/-- The arguments of a program that `cmd.exe` runs, from the text behind its name. -/
def windowsArgs (env : Text → Option Text) (line : Text) : Option (List Text) :=
  (cmdTail .plain (expand env line)).map (splitArgs false 0 none)

/-- A text that can stand in quotation marks. -/
structure IsQuotable (text : Text) : Prop where
  quotation : quotation ∉ text
  newline : '\n' ∉ text
  carriageReturn : '\r' ∉ text
  backslash : text.getLast? ≠ some backslash

theorem cmdTail_quoted (h : IsQuotable text) :
    cmdTail .plain (quotation :: (text ++ [quotation])) =
      some (quotation :: (text ++ [quotation])) := by
  have hinner {text : Text} (hquotation : quotation ∉ text) (hnewline : '\n' ∉ text)
      (hreturn : '\r' ∉ text) :
      cmdTail .quoted (text ++ [quotation]) = some (text ++ [quotation]) := by
    induction text with
    | nil => rfl
    | cons c cs ih =>
      rw [List.mem_cons, not_or] at hquotation hnewline hreturn
      rw [List.cons_append, cmdTail, if_neg (Ne.symm hreturn.1), if_neg (Ne.symm hnewline.1),
        if_neg (Ne.symm hquotation.1), ih hquotation.2 hnewline.2 hreturn.2]
      rfl
  have hopen : cmdTail .plain (quotation :: (text ++ [quotation])) =
      (cmdTail .quoted (text ++ [quotation])).map (quotation :: ·) := rfl
  rw [hopen, hinner h.quotation h.newline h.carriageReturn]
  rfl

theorem splitArgs_quoted (hquotation : quotation ∉ text) (slashes : ℕ) (word : Text)
    (hlast : (List.replicate slashes backslash ++ text).getLast? ≠ some backslash) :
    splitArgs true slashes (some word) (text ++ [quotation]) =
      [word ++ (List.replicate slashes backslash ++ text)] := by
  induction text generalizing slashes word with
  | nil =>
    have hslashes : slashes = 0 := by
      rcases slashes with _ | n
      · rfl
      · rw [List.append_nil, List.getLast?_replicate, if_neg (Nat.succ_ne_zero n)] at hlast
        exact absurd rfl hlast
    subst hslashes
    rw [List.nil_append, splitArgs, if_neg (by decide), if_pos rfl]
    simp [splitArgs, flushSlashes]
  | cons c cs ih =>
    rw [List.mem_cons, not_or] at hquotation
    rw [List.cons_append, splitArgs]
    by_cases hc : c = backslash
    · subst hc
      have hmore : List.replicate (slashes + 1) backslash ++ cs =
          List.replicate slashes backslash ++ backslash :: cs := by
        rw [List.replicate_succ', List.append_assoc, List.singleton_append]
      rw [if_pos rfl, ih hquotation.2 _ _ (hmore ▸ hlast), hmore]
    · have hflush : (flushSlashes (some word) slashes).getD [] =
          word ++ List.replicate slashes backslash := by
        rw [flushSlashes]
        split
        · rename_i hzero
          rw [hzero, List.replicate_zero, List.append_nil, Option.getD_some]
        · rfl
      have hrest : (List.replicate 0 backslash ++ cs).getLast? ≠ some backslash := by
        rw [List.replicate_zero, List.nil_append]
        intro h
        exact hlast (by simp [List.getLast?_append, List.getLast?_cons, h])
      rw [if_neg hc, if_neg (Ne.symm hquotation.1), if_neg (by simp), ih hquotation.2 0 _ hrest,
        hflush]
      simp

/-- **A quotable text in quotation marks is one argument.** -/
theorem windowsArgs_quoted {env : Text → Option Text} (h : IsQuotable (expand env text)) :
    windowsArgs env (quotation :: text ++ [quotation]) = some [expand env text] := by
  have hquotation : '%' ∉ [quotation] := by decide
  have hexpand : expand env (quotation :: text ++ [quotation]) =
      quotation :: (expand env text ++ [quotation]) :=
    expand_append hquotation hquotation text
  rw [windowsArgs, hexpand, cmdTail_quoted h, Option.map_some, splitArgs, if_neg (by decide),
    if_pos rfl]
  exact congrArg some ((splitArgs_quoted h.quotation 0 [] h.backslash).trans rfl)

end Shell
