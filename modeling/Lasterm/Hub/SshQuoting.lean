import Lasterm.Library.CommandLine
import Lasterm.Hub.AgentDeployer

/-!
# The arguments of the remote command

`quotePosixShellArg` and `quoteWindowsCmdArg` of `ssh-agent.ts` against the readers of the command.
A POSIX shell gets every list of values back from the command that they are joined to.

On Windows the values of variables are meant to be put in: the path of the agent begins with
`%LOCALAPPDATA%`. So what the program gets is the expanded text (`quoteArg_spec`).
-/

namespace Lasterm.Hub.AgentDeployer

open Shell

variable {value : Text}

/-- `args.join(" ")`. -/
def joinArgs (args : List Text) : Text := List.intercalate [' '] args

theorem head?_quotePosixShellArg (value : Text) : (quotePosixShellArg value).head? ≠ some ' ' := by
  rw [quotePosixShellArg]
  split
  · rename_i hplain
    intro hhead
    have hmem := List.all_eq_true.mp hplain.2 ' ' (List.mem_of_mem_head? hhead)
    revert hmem
    decide
  · exact fun h ↦ absurd (Option.some.inj h) (by decide)

theorem posixWords_quotePosixShellArg (value : Text) :
    posixWords (quotePosixShellArg value) = some [value] := by
  have hend : readWord .unquoted [] = some ([], []) := rfl
  have hread : readWord .unquoted (quotePosixShellArg value) = some (value, []) := by
    rw [quotePosixShellArg]
    split
    · rename_i hplain
      have hread := readWord_plain (List.all_eq_true.mp hplain.2) hend
      rwa [List.append_nil] at hread
    · have hread := readWord_singleQuote value hend
      rwa [List.append_nil] at hread
  rw [posixWords_of_readWord (head?_quotePosixShellArg value) (quotePosixShellArg_ne_nil value)
    hread, posixWords_nil, Option.map_some]

theorem posixWords_quotePosixShellArg_append (value args : Text) :
    posixWords (quotePosixShellArg value ++ ' ' :: args) =
      (posixWords args).map (value :: ·) := by
  have hhead : (quotePosixShellArg value ++ ' ' :: args).head? ≠ some ' ' := by
    rw [List.head?_append_of_ne_nil _ (quotePosixShellArg_ne_nil value)]
    exact head?_quotePosixShellArg value
  exact posixWords_of_readWord hhead (List.append_ne_nil_of_left_ne_nil
    (quotePosixShellArg_ne_nil value) _) (readWord_quotePosixShellArg value args)

/-- **Every list of values is read back from the command.** -/
theorem posixWords_joinArgs (values : List Text) :
    posixWords (joinArgs (values.map quotePosixShellArg)) = some values := by
  induction values with
  | nil => exact posixWords_nil
  | cons value values ih =>
    cases values with
    | nil =>
      rw [List.map_cons, List.map_nil, joinArgs, List.intercalate_singleton,
        posixWords_quotePosixShellArg]
    | cons value' values =>
      rw [List.map_cons, List.map_cons, joinArgs, List.intercalate_cons_cons, List.append_assoc,
        List.singleton_append, posixWords_quotePosixShellArg_append, ← List.map_cons, ← joinArgs,
        ih]
      rfl

theorem quotePosixShellArg_injective : Function.Injective quotePosixShellArg := by
  intro v v' h
  have hwords := posixWords_quotePosixShellArg v
  rw [h, posixWords_quotePosixShellArg] at hwords
  cases hwords
  rfl

/-- What is escaped never starts with a quotation mark. -/
theorem head?_escapeWindowsCmd (value : Text) :
    (escapeWindowsCmd value).head? ≠ some quotation := by
  cases value with
  | nil => exact nofun
  | cons c cs =>
    rw [escapeWindowsCmd, List.flatMap_cons]
    split
    · exact fun h ↦ absurd (Option.some.inj h) (by decide)
    · rename_i hc
      exact fun h ↦ hc (Option.some.inj h)

theorem escapeWindowsCmd_cons (c : Char) (cs : Text) : escapeWindowsCmd (c :: cs) =
    if c = quotation then '^' :: quotation :: escapeWindowsCmd cs
    else c :: escapeWindowsCmd cs := by
  rw [escapeWindowsCmd, List.flatMap_cons, ← escapeWindowsCmd]
  split <;> rfl

theorem escapeWindowsCmd_injective : Function.Injective escapeWindowsCmd := by
  intro v v' h
  induction v generalizing v' with
  | nil =>
    cases v' with
    | nil => rfl
    | cons d ds =>
      rw [escapeWindowsCmd_cons] at h
      split at h <;> cases h
  | cons c cs ih =>
    cases v' with
    | nil =>
      rw [escapeWindowsCmd_cons] at h
      split at h <;> cases h
    | cons d ds =>
      rw [escapeWindowsCmd_cons, escapeWindowsCmd_cons] at h
      split at h <;> rename_i hc <;> split at h <;> rename_i hd
      · rw [hc, hd, ih (List.cons.inj (List.cons.inj h).2).2]
      · exact absurd (congrArg List.head? (List.cons.inj h).2.symm) (head?_escapeWindowsCmd ds)
      · exact absurd (congrArg List.head? (List.cons.inj h).2) (head?_escapeWindowsCmd cs)
      · rw [(List.cons.inj h).1, ih (List.cons.inj h).2]

theorem quoteWindowsCmdArg_injective : Function.Injective quoteWindowsCmdArg := by
  intro v v' h
  exact escapeWindowsCmd_injective (List.append_cancel_right (List.cons.inj h).2)

/-- **A POSIX shell gets every value back**, and every list of them. On Windows a value without
quotation marks is one argument, with the values of the variables that it names put in. Two values
are never quoted alike. -/
theorem quoteArg_spec :
    (∀ value, posixWords (quotePosixShellArg value) = some [value]) ∧
    (∀ values, posixWords (joinArgs (values.map quotePosixShellArg)) = some values) ∧
    Function.Injective quotePosixShellArg ∧ Function.Injective quoteWindowsCmdArg ∧
    ∀ env value, quotation ∉ value → IsQuotable (expand env value) →
      windowsArgs env (quoteWindowsCmdArg value) = some [expand env value] := by
  refine ⟨posixWords_quotePosixShellArg, posixWords_joinArgs, quotePosixShellArg_injective,
    quoteWindowsCmdArg_injective, fun env value hquotation hquotable ↦ ?_⟩
  rw [quoteWindowsCmdArg, escapeWindowsCmd_of_not_mem hquotation, windowsArgs_quoted hquotable]

/-- The path where the agent is put, with the variable that it names. -/
theorem quoteArg_spec_agentPath :
    windowsArgs (fun name ↦ if name = "LOCALAPPDATA".toList then some "C:".toList else none)
        (quoteWindowsCmdArg windowsAgentPath) = some ["C:\\lasterm\\lasterm-agent.exe".toList] :=
  quoteArg_spec.2.2.2.2 _ _ (by decide) ⟨by decide, by decide, by decide, by decide⟩

/-- What the program gets is not that path itself. -/
theorem not_quoteArg_exact :
    ¬ ((∀ value, posixWords (quotePosixShellArg value) = some [value]) ∧
      ∀ env value, windowsArgs env (quoteWindowsCmdArg value) = some [value]) := by
  rintro ⟨-, h⟩
  have hargs := h (fun name ↦ if name = "LOCALAPPDATA".toList then some "C:".toList else none)
    windowsAgentPath
  revert hargs
  decide

end Lasterm.Hub.AgentDeployer
