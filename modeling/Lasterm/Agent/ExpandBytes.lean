import Lasterm.Library.Utf8
import Lasterm.Agent.Expand

/-!
# Variable expansion over bytes

`expand_vars` as it runs: a loop over the bytes of the input with an index, which takes slices of
the input at places that it computes. A slice that does not begin and end with a character is a
panic, and so is an index out of range.

What is at a place decides which piece of the text is taken there (`piece`), and the loop steps from
piece to piece (`turn_eq`). Pieces depend on the text alone, so that no value is scanned again. The
only panic left is in the lookup of a variable: on Windows it goes through `std::env::vars`, which
panics at a variable that is not Unicode.
-/

namespace Lasterm.Agent.ExpandBytes

open Shell Utf8

inductive Panic
  | outOfBounds
  | notBoundary
  | unwrapNone
  | notUnicode
  deriving DecidableEq

/-! ## Variables -/

/-- A variable of the process. What is not Unicode is `none`. -/
structure ProcessVar where
  name : Option Text
  value : Option Text

structure Environment where
  /-- `cfg(windows)`. -/
  windows : Bool
  toLowercase : Text → Text
  /-- The argument `env`, in the order in which the map is read. -/
  env : Option Entries
  process : List ProcessVar

/-- `std::env::vars().find(..)`, with names compared in lower case. -/
def findVar (toLowercase : Text → Text) (name : Text) :
    List ProcessVar → Except Panic (Option Text)
  | [] => .ok none
  | ⟨some k, some v⟩ :: rest =>
    if toLowercase k = toLowercase name then .ok (some v) else findVar toLowercase name rest
  | _ :: _ => .error .notUnicode

def lookupVar (e : Environment) (name : Text) : Except Panic (Option Text) :=
  if e.windows then
    match e.env.bind fun map ↦ map.find? fun kv ↦ e.toLowercase kv.1 = e.toLowercase name with
    | some kv => .ok (some kv.2)
    | none => findVar e.toLowercase name e.process
  else
    match e.env.bind fun map ↦ map.find? fun kv ↦ kv.1 = name with
    | some kv => .ok (some kv.2)
    | none => .ok ((e.process.find? fun var ↦ var.name = some name).bind ProcessVar.value)

/-! ## The loop -/

section Loop

variable (e : Environment) (input : Text)

/-- `i < len && bytes[i] == d`. -/
def isAt (i : ℕ) (d : Char) : Bool := (bytes input)[i]? = some (byte d)

/-- `&input[start..stop]`. -/
def sliceAt (start stop : ℕ) : Except Panic Text :=
  match slice input start stop with
  | some text => .ok text
  | none => .error .notBoundary

def findClosingBrace (start : ℕ) : Except Panic (Option ℕ) :=
  if start ≤ size input then
    .ok ((((bytes input).drop start).findIdx? (· = byte closeBrace)).map (start + ·))
  else .error .outOfBounds

/-- The last lines of a turn: the next character is copied. -/
def copyChar (i : ℕ) : Except Panic (Text × ℕ) :=
  match dropBytes i input with
  | none => .error .notBoundary
  | some [] => .error .unwrapNone
  | some (c :: _) => .ok ([c], i + c.utf8Size)

/-- One turn of the loop: what is pushed, and the next index. -/
def turn (i : ℕ) : Except Panic (Text × ℕ) :=
  if isAt input i backslash then
    -- two backslashes, with a `${` behind them or not
    if isAt input (i + 1) backslash then .ok ([backslash], i + 2)
    else if isAt input (i + 1) '$' && isAt input (i + 2) openBrace then do
      match ← findClosingBrace input (i + 3) with
      | some close => return (← sliceAt input (i + 1) (close + 1), close + 1)
      | none => return ([backslash], i + 1)
    else .ok ([backslash], i + 1)
  else if isAt input i '$' && isAt input (i + 1) openBrace then do
    match ← findClosingBrace input (i + 2) with
    | some close =>
      match ← lookupVar e (← sliceAt input (i + 2) close) with
      | some v => return (v, close + 1)
      | none => return (← sliceAt input i (close + 1), close + 1)
    | none => copyChar input i
  else copyChar input i

/-- The loop from an index on, with what has been put out. `none` is a loop that needs more turns
than it is given. -/
def run : ℕ → ℕ → Text → Option (Except Panic Text)
  | 0, _, _ => none
  | fuel + 1, i, out =>
    if i < size input then
      match turn e input i with
      | .error p => some (.error p)
      | .ok (text, i') => run fuel i' (out ++ text)
    else some (.ok out)

def expandVars (fuel : ℕ) : Option (Except Panic Text) := run e input fuel 0 []

end Loop

/-! ## Pieces -/

/-- What the loop takes in one turn. -/
inductive Piece
  | char (c : Char)
  | twoBackslashes
  | escaped (name : Text)
  | reference (name : Text)

namespace Piece

def source : Piece → Text
  | char c => [c]
  | twoBackslashes => [backslash, backslash]
  | escaped name => backslash :: Lasterm.reference name
  | reference name => Lasterm.reference name

/-- What is put out for a piece, by the values of the variables. -/
def output (value : Text → Option Text) : Piece → Text
  | char c => [c]
  | twoBackslashes => [backslash]
  | escaped name => Lasterm.reference name
  | reference name => (value name).getD (Lasterm.reference name)

end Piece

/-- The piece at the start of a text, and what comes behind it. -/
def piece (c : Char) (cs : Text) : Piece × Text :=
  if c = backslash then
    if cs.head? = some backslash then (.twoBackslashes, cs.tail)
    else
      match readBraces cs with
      | some (name, rest) => (.escaped name, rest)
      | none => (.char c, cs)
  else
    match readBraces (c :: cs) with
    | some (name, rest) => (.reference name, rest)
    | none => (.char c, cs)

theorem source_append (c : Char) (cs : Text) :
    (piece c cs).1.source ++ (piece c cs).2 = c :: cs := by
  rw [piece]
  split
  · rename_i hc
    subst hc
    split
    · rename_i hhead
      obtain ⟨rest, rfl⟩ := List.head?_eq_some_iff.mp hhead
      rfl
    · cases hread : readBraces cs with
      | none => rfl
      | some r => exact congrArg (backslash :: ·) (readBraces_eq_some.mp hread).1.symm
  · cases hread : readBraces (c :: cs) with
    | none => rfl
    | some r => exact (readBraces_eq_some.mp hread).1.symm

theorem source_ne_nil (p : Piece) : p.source ≠ [] := by
  cases p <;> exact List.cons_ne_nil _ _

theorem length_piece (c : Char) (cs : Text) : (piece c cs).2.length ≤ cs.length := by
  have hlength := congrArg List.length (source_append c cs)
  have hpos := List.length_pos_iff.mpr (source_ne_nil (piece c cs).1)
  rw [List.length_append, List.length_cons] at hlength
  omega

/-- The pieces of a text. -/
def pieces : Text → List Piece
  | [] => []
  | c :: cs => (piece c cs).1 :: pieces (piece c cs).2
termination_by text => text.length
decreasing_by exact Nat.lt_succ_of_le (length_piece c cs)

theorem pieces_cons (c : Char) (cs : Text) :
    pieces (c :: cs) = (piece c cs).1 :: pieces (piece c cs).2 := by
  rw [pieces]

/-- The pieces make up the text. -/
theorem flatMap_source (text : Text) : (pieces text).flatMap Piece.source = text := by
  fun_induction pieces text with
  | case1 => rfl
  | case2 c cs ih => rw [List.flatMap_cons, ih, source_append]

theorem expandStep_eq {p : Platform} (v : Variables p) (c : Char) (cs : Text) :
    expandStep p v c cs =
      ((piece c cs).1.output (Agent.lookupVar p v), (piece c cs).2) := by
  rw [expandStep.eq_def, piece]
  by_cases hc : c = backslash
  · rw [if_pos hc, if_pos hc]
    cases cs with
    | nil => rw [hc]; rfl
    | cons d rest =>
      dsimp only
      by_cases hd : d = backslash
      · rw [if_pos hd, List.head?_cons, if_pos (congrArg some hd)]
        rfl
      · rw [if_neg hd, List.head?_cons, if_neg fun h ↦ hd (Option.some.inj h)]
        cases readBraces (d :: rest) with
        | none => rw [hc]; rfl
        | some r => rfl
  · rw [if_neg hc, if_neg hc]
    cases readBraces (c :: cs) <;> rfl

/-- The expansion of a text of characters is what is put out for its pieces. -/
theorem expandVars_eq_flatMap_pieces {p : Platform} (v : Variables p) (text : Text) :
    Agent.expandVars p v text = (pieces text).flatMap (Piece.output (Agent.lookupVar p v)) := by
  fun_induction pieces text with
  | case1 => exact Scanner.scan_nil _
  | case2 c cs ih =>
    rw [List.flatMap_cons, ← ih]
    exact (Agent.loop p v).scan_of_token (expandStep_eq v c cs)

/-! ## One turn -/

theorem size_reference (name : Text) : size (reference name) = size name + 3 := by
  rw [reference, List.cons_append, List.cons_append, size_cons, size_cons, size_append,
    size_singleton]
  have hdollar : '$'.utf8Size = 1 := by decide
  have hopen : openBrace.utf8Size = 1 := by decide
  have hclose : closeBrace.utf8Size = 1 := by decide
  omega

section Turn

variable {e : Environment} {input front back rest name : Text} {i : ℕ} {c d : Char}
  (hinput : input = front ++ back) (hi : size front = i)
include hinput hi

theorem isAt_iff (hd : d.toNat < 0x80) : isAt input i d = true ↔ back.head? = some d := by
  rw [isAt, decide_eq_true_iff, hinput, ← hi, getElem?_bytes_iff hd]

theorem findClosingBrace_eq : findClosingBrace input i =
    .ok ((splitAtFirst closeBrace back).map fun s ↦ i + size s.1) := by
  have hdrop : (bytes input).drop i = bytes back := by
    rw [hinput, bytes, List.flatMap_append, ← hi, size, bytes, List.drop_left]
    rfl
  have hle : i ≤ size input := by
    rw [hinput, size_append, hi]
    exact Nat.le_add_right _ _
  rw [findClosingBrace, if_pos hle, hdrop, findIdx?_bytes (by decide), Option.map_map]
  rfl

/-- The two tests for `${`. -/
theorem isOpen_eq :
    (isAt input i '$' && isAt input (i + 1) openBrace) = (afterOpen back).isSome := by
  have hnext (cs : Text) (hback : back = '$' :: cs) :
      isAt input (i + 1) openBrace = true ↔ cs.head? = some openBrace := by
    have hinput' : input = (front ++ ['$']) ++ cs := by
      rw [hinput, hback, List.append_assoc, List.singleton_append]
    have hi' : size (front ++ ['$']) = i + 1 := by
      rw [size_append, hi]
      rfl
    exact isAt_iff hinput' hi' (by decide)
  rw [Bool.eq_iff_iff, Bool.and_eq_true, isAt_iff hinput hi (by decide), Option.isSome_iff_exists]
  constructor
  · rintro ⟨hdollar, hbrace⟩
    obtain ⟨cs, hcs⟩ := List.head?_eq_some_iff.mp hdollar
    obtain ⟨rest, hrest⟩ := List.head?_eq_some_iff.mp ((hnext cs hcs).mp hbrace)
    exact ⟨rest, afterOpen_eq_some.mpr (hrest ▸ hcs)⟩
  · rintro ⟨rest, hopen⟩
    rw [afterOpen_eq_some] at hopen
    exact ⟨congrArg List.head? hopen, (hnext _ hopen).mpr rfl⟩

theorem findClosingBrace_of_open (h : afterOpen back = some rest) :
    findClosingBrace input (i + 2) = .ok ((readBraces back).map fun s ↦ i + 2 + size s.1) := by
  have hread : readBraces back = splitAtFirst closeBrace rest := by
    rw [readBraces, h, Option.bind_some]
  rw [hread]
  have hinput' : input = (front ++ ['$', openBrace]) ++ rest := by
    rw [hinput, afterOpen_eq_some.mp h, List.append_assoc]
    rfl
  have hi' : size (front ++ ['$', openBrace]) = i + 2 := by
    rw [size_append, hi]
    rfl
  exact findClosingBrace_eq hinput' hi'

theorem sliceAt_reference (h : readBraces back = some (name, rest)) :
    sliceAt input i (i + 2 + size name + 1) = .ok (reference name) := by
  have hsize : i + 2 + size name + 1 = size front + size (reference name) := by
    rw [size_reference, hi]
    omega
  rw [sliceAt, hsize, ← hi, hinput, (readBraces_eq_some.mp h).1, slice_append]

theorem sliceAt_name (h : readBraces back = some (name, rest)) :
    sliceAt input (i + 2) (i + 2 + size name) = .ok name := by
  have hfront : size (front ++ ['$', openBrace]) = i + 2 := by
    rw [size_append, hi]
    rfl
  have hback : input = (front ++ ['$', openBrace]) ++ (name ++ closeBrace :: rest) := by
    rw [hinput, (readBraces_eq_some.mp h).1, reference, List.append_assoc, List.cons_append,
      List.cons_append, List.append_assoc]
    rfl
  rw [sliceAt, ← hfront, hback, slice_append]

theorem copyChar_eq (h : back = c :: rest) : copyChar input i = .ok ([c], i + c.utf8Size) := by
  rw [copyChar, hinput, ← hi, dropBytes_append, h]

end Turn

/-- What is put out for a piece, or the panic in the lookup of its variable. -/
def Piece.outputs (e : Environment) : Piece → Except Panic Text
  | .reference name => (lookupVar e name).map fun v ↦ v.getD (Lasterm.reference name)
  | p => .ok (p.output fun _ ↦ none)

/-- A turn at a backslash. -/
theorem turn_backslash (e : Environment) {input front cs : Text} {i : ℕ}
    (hinput : input = front ++ backslash :: cs) (hi : size front = i) :
    turn e input i = ((piece backslash cs).1.outputs e).map fun text ↦
      (text, i + size (piece backslash cs).1.source) := by
  have hat : isAt input i backslash = true := (isAt_iff hinput hi (by decide)).mpr rfl
  have hnext : input = (front ++ [backslash]) ++ cs := by
    rw [hinput, List.append_assoc, List.singleton_append]
  have hsize : size (front ++ [backslash]) = i + 1 := by
    rw [size_append, hi]
    rfl
  have hcopy : (.ok ([backslash], i + 1) : Except Panic (Text × ℕ)) =
      ((Piece.char backslash).outputs e).map fun text ↦
        (text, i + size (Piece.char backslash).source) := rfl
  rw [turn, piece, if_pos hat, if_pos rfl]
  by_cases hhead : cs.head? = some backslash
  · rw [if_pos ((isAt_iff hnext hsize (by decide)).mpr hhead), if_pos hhead]
    rfl
  · rw [if_neg fun h ↦ hhead ((isAt_iff hnext hsize (by decide)).mp h), if_neg hhead,
      isOpen_eq hnext hsize]
    cases hopen : afterOpen cs with
    | none =>
      rw [readBraces, hopen]
      exact hcopy
    | some rest =>
      have hfind : findClosingBrace input (i + 3) = _ :=
        findClosingBrace_of_open hnext hsize hopen
      rw [Option.isSome_some, if_pos rfl, hfind]
      cases hread : readBraces cs with
      | none => exact hcopy
      | some r =>
        have hslice : sliceAt input (i + 1) _ = _ := sliceAt_reference hnext hsize hread
        have hend : i + 1 + 2 + size r.1 + 1 = i + size (Piece.escaped r.1).source := by
          rw [Piece.source, size_cons, size_reference, show backslash.utf8Size = 1 by decide]
          omega
        change (sliceAt input (i + 1) (i + 1 + 2 + size r.1 + 1)).bind
          (fun text ↦ .ok (text, i + 1 + 2 + size r.1 + 1)) = _
        rw [hslice, hend]
        rfl

/-- A turn at any other character. -/
theorem turn_of_ne_backslash (e : Environment) {input front cs : Text} {i : ℕ} {c : Char}
    (hinput : input = front ++ c :: cs) (hi : size front = i) (hc : c ≠ backslash) :
    turn e input i = ((piece c cs).1.outputs e).map fun text ↦
      (text, i + size (piece c cs).1.source) := by
  have hat : ¬ isAt input i backslash = true := by
    rw [isAt_iff hinput hi (by decide)]
    exact fun h ↦ hc (Option.some.inj h)
  have hcopy : copyChar input i =
      ((Piece.char c).outputs e).map fun text ↦ (text, i + size (Piece.char c).source) := by
    rw [copyChar_eq hinput hi rfl, Piece.source, size_singleton]
    rfl
  rw [turn, piece, if_neg hat, if_neg hc, isOpen_eq hinput hi]
  cases hopen : afterOpen (c :: cs) with
  | none =>
    rw [readBraces, hopen]
    exact hcopy
  | some rest =>
    rw [Option.isSome_some, if_pos rfl, findClosingBrace_of_open hinput hi hopen]
    cases hread : readBraces (c :: cs) with
    | none => exact hcopy
    | some r =>
      have hslice : sliceAt input i _ = _ := sliceAt_reference hinput hi hread
      have hname := sliceAt_name hinput hi hread
      have hend : i + 2 + size r.1 + 1 = i + size (Piece.reference r.1).source := by
        rw [Piece.source, size_reference]
        omega
      change (sliceAt input (i + 2) (i + 2 + size r.1)).bind (fun name ↦
        (lookupVar e name).bind fun v ↦ match v with
          | some v => .ok (v, i + 2 + size r.1 + 1)
          | none => (sliceAt input i (i + 2 + size r.1 + 1)).bind fun text ↦
            .ok (text, i + 2 + size r.1 + 1)) = _
      rw [hname, hslice, hend]
      change (lookupVar e r.1).bind _ = ((lookupVar e r.1).map _).map _
      cases lookupVar e r.1 with
      | error p => rfl
      | ok v => cases v <;> rfl

/-- **A turn takes the piece that is there.** -/
theorem turn_eq (e : Environment) (front : Text) (c : Char) (cs : Text) :
    turn e (front ++ c :: cs) (size front) = ((piece c cs).1.outputs e).map fun text ↦
      (text, size (front ++ (piece c cs).1.source)) := by
  rw [size_append]
  by_cases hc : c = backslash
  · subst hc
    exact turn_backslash e rfl rfl
  · exact turn_of_ne_backslash e rfl rfl hc

/-! ## The whole loop -/

/-- What is put out for some pieces, up to the first panic. -/
def outputsOf (e : Environment) : List Piece → Except Panic Text
  | [] => .ok []
  | p :: ps => (p.outputs e).bind fun text ↦ (outputsOf e ps).map (text ++ ·)

theorem length_pieces_le (text : Text) : (pieces text).length ≤ text.length := by
  fun_induction pieces text with
  | case1 => exact Nat.le_refl _
  | case2 c cs ih =>
    have hle := length_piece c cs
    rw [List.length_cons, List.length_cons]
    omega

/-- From a place where a piece begins, the loop takes one piece a turn. -/
theorem run_eq (e : Environment) (front back : Text) {fuel : ℕ}
    (hfuel : (pieces back).length < fuel) (out : Text) :
    run e (front ++ back) fuel (size front) out =
      some ((outputsOf e (pieces back)).map (out ++ ·)) := by
  obtain ⟨fuel, rfl⟩ := Nat.exists_eq_succ_of_ne_zero (Nat.ne_zero_of_lt hfuel)
  fun_induction pieces back generalizing front fuel out with
  | case1 =>
    rw [List.append_nil, run, if_neg (Nat.lt_irrefl _), outputsOf, Except.map, List.append_nil]
  | case2 c cs ih =>
    have hlt : size front < size (front ++ c :: cs) := by
      have hpos := c.utf8Size_pos
      rw [size_append, size_cons]
      omega
    rw [List.length_cons] at hfuel
    rw [run, if_pos hlt, turn_eq, outputsOf]
    cases (piece c cs).1.outputs e with
    | error p => rfl
    | ok text =>
      have hrest := Nat.lt_of_succ_lt_succ hfuel
      obtain ⟨fuel, rfl⟩ := Nat.exists_eq_succ_of_ne_zero (Nat.ne_zero_of_lt hrest)
      have hih := ih (front ++ (piece c cs).1.source) (out ++ text) fuel hrest
      rw [List.append_assoc, source_append] at hih
      refine hih.trans ?_
      cases outputsOf e (pieces (piece c cs).2) with
      | error p => rfl
      | ok texts =>
        exact congrArg (fun out : Text ↦ some (Except.ok out : Except Panic Text))
          (List.append_assoc out text texts)

/-- The loop comes to an end, and it puts out what is put out for the pieces. -/
theorem expandVars_eq (e : Environment) (input : Text) {fuel : ℕ} (hfuel : size input < fuel) :
    expandVars e input fuel = some (outputsOf e (pieces input)) := by
  have hle := Nat.le_trans (length_pieces_le input) (length_le_size input)
  have hrun := run_eq e [] input (Nat.lt_of_le_of_lt hle hfuel) []
  refine hrun.trans ?_
  cases outputsOf e (pieces input) <;> rfl

/-! ## Lookups -/

/-- The lookup of a name comes to a variable that is not Unicode. -/
def Stops (e : Environment) (name : Text) : Prop :=
  e.windows = true ∧ (∀ map ∈ e.env, ∀ kv ∈ map, e.toLowercase kv.1 ≠ e.toLowercase name) ∧
    ∃ front var rest, e.process = front ++ var :: rest ∧ (var.name = none ∨ var.value = none) ∧
      ∀ x ∈ front, ∀ k ∈ x.name, e.toLowercase k ≠ e.toLowercase name

theorem findVar_eq_error_iff {toLowercase : Text → Text} {name : Text} {process : List ProcessVar}
    {p : Panic} : findVar toLowercase name process = .error p ↔ p = .notUnicode ∧
      ∃ front var rest, process = front ++ var :: rest ∧ (var.name = none ∨ var.value = none) ∧
        ∀ x ∈ front, ∀ k ∈ x.name, toLowercase k ≠ toLowercase name := by
  induction process with
  | nil =>
    refine iff_of_false nofun ?_
    rintro ⟨-, front, var, rest, heq, -⟩
    cases front <;> cases heq
  | cons var process ih =>
    have hstop (hvar : var.name = none ∨ var.value = none) :
        findVar toLowercase name (var :: process) = .error .notUnicode := by
      rcases var with ⟨_ | k, _ | v⟩
      case some.some => exact absurd hvar (by simp)
      all_goals rfl
    by_cases hvar : var.name = none ∨ var.value = none
    · rw [hstop hvar, Except.error.injEq, eq_comm]
      exact (and_iff_left ⟨[], var, process, rfl, hvar, nofun⟩).symm
    · rcases var with ⟨_ | k, _ | v⟩
      case some.some =>
        rw [findVar]
        split
        · rename_i hmatch
          refine iff_of_false nofun ?_
          rintro ⟨-, front, var, rest, heq, hnone, hfront⟩
          rcases front with _ | ⟨x, front⟩
          · cases heq
            exact hvar hnone
          · cases heq
            exact hfront _ List.mem_cons_self k rfl hmatch
        · rename_i hmatch
          rw [ih]
          refine and_congr_right fun _ ↦ ⟨?_, ?_⟩
          · rintro ⟨front, var, rest, rfl, hnone, hfront⟩
            refine ⟨⟨some k, some v⟩ :: front, var, rest, rfl, hnone, ?_⟩
            rintro x hx k' hk'
            rcases List.mem_cons.mp hx with rfl | hx
            · cases hk'
              exact hmatch
            · exact hfront x hx k' hk'
          · rintro ⟨front, var, rest, heq, hnone, hfront⟩
            rcases front with _ | ⟨x, front⟩
            · cases heq
              exact absurd hnone hvar
            · cases heq
              exact ⟨front, var, rest, rfl, hnone, fun x hx ↦ hfront x (List.mem_cons_of_mem _ hx)⟩
      all_goals exact absurd (by simp) hvar

variable {e : Environment}

theorem lookupVar_eq_error_iff {name : Text} {p : Panic} :
    lookupVar e name = .error p ↔ p = .notUnicode ∧ Stops e name := by
  rw [lookupVar, Stops]
  cases hwindows : e.windows with
  | false =>
    rw [if_neg Bool.false_ne_true]
    refine iff_of_false ?_ fun h ↦ Bool.false_ne_true h.2.1
    split <;> exact nofun
  | true =>
    rw [if_pos rfl, eq_self_iff_true, true_and]
    cases hfind : e.env.bind fun map ↦
        map.find? fun kv ↦ e.toLowercase kv.1 = e.toLowercase name with
    | none =>
      have hnone : ∀ map ∈ e.env, ∀ kv ∈ map, e.toLowercase kv.1 ≠ e.toLowercase name := by
        intro map hmap kv hkv
        rw [Option.bind_eq_none_iff] at hfind
        have hmiss := List.find?_eq_none.mp (hfind map hmap) kv hkv
        simpa using hmiss
      dsimp only
      rw [findVar_eq_error_iff, and_iff_right hnone]
    | some kv =>
      refine iff_of_false nofun ?_
      rintro ⟨-, hnone, -⟩
      obtain ⟨map, hmap, hkv⟩ := Option.bind_eq_some_iff.mp hfind
      have hmatch := List.find?_some hkv
      exact hnone map hmap kv (List.mem_of_find?_eq_some hkv) (of_decide_eq_true hmatch)

/-! ## No panic but in a lookup -/

/-- The value of a variable, where the lookup comes to an end. -/
def Environment.value (e : Environment) (name : Text) : Option Text :=
  match lookupVar e name with
  | .ok v => v
  | .error _ => none

theorem outputs_of_not_stops {p : Piece} (h : ∀ name, p = Piece.reference name → ¬ Stops e name) :
    p.outputs e = .ok (p.output e.value) := by
  cases p with
  | char c => rfl
  | twoBackslashes => rfl
  | escaped name => rfl
  | reference name =>
    rw [Piece.outputs, Piece.output, Environment.value]
    cases hlookup : lookupVar e name with
    | error q => exact absurd (lookupVar_eq_error_iff.mp hlookup).2 (h name rfl)
    | ok v => rfl

theorem eq_notUnicode_of_outputs {p : Piece} {q : Panic}
    (h : p.outputs e = .error q) : q = .notUnicode := by
  cases p with
  | reference name =>
    rw [Piece.outputs] at h
    cases hlookup : lookupVar e name with
    | error q' =>
      rw [hlookup] at h
      cases h
      exact (lookupVar_eq_error_iff.mp hlookup).1
    | ok v =>
      rw [hlookup] at h
      cases h
  | char c => cases h
  | twoBackslashes => cases h
  | escaped name => cases h

theorem outputsOf_of_not_stops {ps : List Piece}
    (h : ∀ name, Piece.reference name ∈ ps → ¬ Stops e name) :
    outputsOf e ps = .ok (ps.flatMap (Piece.output e.value)) := by
  induction ps with
  | nil => rfl
  | cons p ps ih =>
    rw [outputsOf, outputs_of_not_stops fun name hp ↦ h name (hp ▸ List.mem_cons_self),
      ih fun name hmem ↦ h name (List.mem_cons_of_mem _ hmem), List.flatMap_cons]
    rfl

theorem outputsOf_of_stops {ps : List Piece} {name : Text}
    (hmem : Piece.reference name ∈ ps) (h : Stops e name) :
    outputsOf e ps = .error .notUnicode := by
  induction ps with
  | nil => cases hmem
  | cons p ps ih =>
    rw [outputsOf]
    cases houtput : p.outputs e with
    | error q =>
      rw [eq_notUnicode_of_outputs houtput]
      rfl
    | ok text =>
      have hmem' : Piece.reference name ∈ ps := by
        refine (List.mem_cons.mp hmem).resolve_left ?_
        rintro rfl
        rw [Piece.outputs, lookupVar_eq_error_iff.mpr ⟨rfl, h⟩] at houtput
        cases houtput
      rw [ih hmem']
      rfl

/-- **The loop comes to an end without a panic, with every piece of the text copied or replaced in
its place, exactly if no reference comes to a variable that is not Unicode.** -/
theorem expandVars_iff (e : Environment) (input : Text) :
    ((pieces input).flatMap Piece.source = input ∧ ∀ fuel, size input < fuel →
      expandVars e input fuel = some (.ok ((pieces input).flatMap (Piece.output e.value)))) ↔
    ∀ name, Piece.reference name ∈ pieces input → ¬ Stops e name := by
  rw [and_iff_right (flatMap_source input)]
  constructor
  · intro h name hmem hstops
    have hrun := h (size input + 1) (Nat.lt_succ_self _)
    rw [expandVars_eq e input (Nat.lt_succ_self _), outputsOf_of_stops hmem hstops] at hrun
    cases hrun
  · intro h fuel hfuel
    rw [expandVars_eq e input hfuel, outputsOf_of_not_stops h]

/-- On Windows, with a variable of the process that is not Unicode, `${X}` is a panic. -/
theorem not_expandVars_total :
    ¬ ∀ (e : Environment) (input : Text), ∀ fuel, size input < fuel →
      ∃ out, expandVars e input fuel = some (.ok out) := by
  intro h
  obtain ⟨e, he⟩ : ∃ e : Environment, e = ⟨true, id, none, [⟨some ['A'], none⟩]⟩ := ⟨_, rfl⟩
  obtain ⟨out, hout⟩ := h e (reference ['X']) _ (Nat.lt_succ_self _)
  have hstops : Stops e ['X'] := by
    subst he
    exact ⟨rfl, nofun, [], _, [], rfl, Or.inr rfl, nofun⟩
  have hmem : Piece.reference ['X'] ∈ pieces (reference ['X']) := by
    rw [show reference ['X'] = '$' :: openBrace :: ['X', closeBrace] from rfl, pieces_cons]
    exact List.mem_cons_self
  rw [expandVars_eq e _ (Nat.lt_succ_self _), outputsOf_of_stops hmem hstops] at hout
  cases hout

/-! ## Variables that are Unicode -/

section Unicode

variable {p : Platform} (v : Variables p)

def ofVariables : Environment where
  windows := p.caseInsensitive
  toLowercase := p.toLower
  env := v.env
  process := v.process.map fun kv ↦ ⟨some kv.1, some kv.2⟩

theorem findVar_map (toLowercase : Text → Text) (name : Text) (entries : Entries) :
    findVar toLowercase name (entries.map fun kv ↦ ⟨some kv.1, some kv.2⟩) =
      .ok ((entries.find? fun kv ↦ toLowercase kv.1 = toLowercase name).map Prod.snd) := by
  induction entries with
  | nil => rfl
  | cons kv entries ih =>
    rw [List.map_cons, findVar, ih, List.find?_cons]
    split
    · rename_i hmatch
      rw [decide_eq_true hmatch]
      rfl
    · rename_i hmatch
      rw [decide_eq_false hmatch]

theorem find?_map_some (name : Text) (entries : Entries) :
    ((entries.map fun kv ↦ (⟨some kv.1, some kv.2⟩ : ProcessVar)).find?
        fun var ↦ var.name = some name).bind ProcessVar.value =
      (entries.find? fun kv ↦ kv.1 = name).map Prod.snd := by
  induction entries with
  | nil => rfl
  | cons kv entries ih =>
    rw [List.map_cons, List.find?_cons, List.find?_cons]
    by_cases hmatch : kv.1 = name
    · rw [decide_eq_true (congrArg some hmatch), decide_eq_true hmatch]
      rfl
    · rw [decide_eq_false fun h ↦ hmatch (Option.some.inj h), decide_eq_false hmatch]
      exact ih

theorem lookupVar_ofVariables (name : Text) :
    lookupVar (ofVariables v) name = .ok (Agent.lookupVar p v name) := by
  have hfind (entries : Entries) : entries.find p name =
      (entries.find? fun kv ↦ p.fold kv.1 = p.fold name).map Prod.snd := rfl
  rw [lookupVar, Agent.lookupVar, ofVariables]
  dsimp only
  cases hwindows : p.caseInsensitive with
  | true =>
    have hfold : p.fold = p.toLower := funext fun text ↦ if_pos hwindows
    rw [if_pos rfl, findVar_map, hfind, hfold]
    cases henv : v.env with
    | none => rfl
    | some map =>
      rw [Option.bind_some, Option.bind_some, hfind, hfold]
      cases map.find? fun kv ↦ p.toLower kv.1 = p.toLower name <;> rfl
  | false =>
    have hfold : p.fold = id := funext fun text ↦ if_neg (Bool.not_eq_true _ ▸ hwindows)
    have hexact (entries : Entries) :
        entries.find p name = (entries.find? fun kv ↦ kv.1 = name).map Prod.snd := by
      rw [hfind, hfold]
      rfl
    rw [if_neg Bool.false_ne_true, find?_map_some, hexact]
    cases henv : v.env with
    | none => rfl
    | some map =>
      rw [Option.bind_some, Option.bind_some, hexact]
      cases map.find? fun kv ↦ kv.1 = name <;> rfl

/-- **The loop over bytes does what the scanner over characters does**, under variables as both
languages have them: without two names in the map of a profile that are one on Windows. -/
theorem expandVars_ofVariables (input : Text) {fuel : ℕ} (hfuel : size input < fuel) :
    expandVars (ofVariables v) input fuel = some (.ok (Agent.expandVars p v input)) := by
  have hvalue : (ofVariables v).value = Agent.lookupVar p v := by
    funext name
    rw [Environment.value, lookupVar_ofVariables]
  have hstops (name : Text) : ¬ Stops (ofVariables v) name := by
    intro h
    have herror := lookupVar_eq_error_iff.mpr ⟨rfl, h⟩
    rw [lookupVar_ofVariables] at herror
    cases herror
  rw [expandVars_eq _ input hfuel, outputsOf_of_not_stops fun name _ ↦ hstops name, hvalue,
    expandVars_eq_flatMap_pieces]

theorem expandVars_ofVariables_reference :
    expandVars (ofVariables (oneVariable ⟨false, id⟩ ['X'] ['€'])) ('é' :: reference ['X']) 9 =
      some (.ok ['é', '€']) :=
  (expandVars_ofVariables _ _ (by decide)).trans (by
    have hread : readBraces (reference ['X']) = some (['X'], []) := rfl
    rw [expandVars_char _ (by decide) rfl, expandVars_reference _ hread, lookupVar_oneVariable,
      Agent.expandVars, Scanner.scan_nil]
    rfl)

end Unicode

end Lasterm.Agent.ExpandBytes
