import Lasterm.Hub.AgentCache

/-!
# Reading an SSH configuration

`parseSshConfig` of `ssh/ssh-config-parser.ts` goes through the lines of a configuration with the
blocks of the last `Host` line at hand, and every directive is written into all of them.

What `ssh_config` says is `sshEntries`: a block ends at the next `Host` or `Match` line, the first
value that is given for a directive counts, and between the keyword and the argument there are
blanks or one `=` with blanks around it. The code overwrites, does not know `Match`, and takes a `=`
behind blanks for a part of the value. So it follows `ssh_config` (`parseSshConfig_follows_iff`) if
and only if under each `Host` line that names a host what the code read last is what is to be read
first, and no `Host` line names other hosts by such a `=`.

The home directory, and what `resolve` makes of a path under it, are parameters.
-/

namespace Lasterm.Hub.SshConfig

open AgentDeployer Shell

/-! ## The parser -/

/-- `toLowerCase`, as far as an ASCII letter comes out. -/
def toLowerCase (t : Text) : Text :=
  t.map fun c ↦ if c.toNat = 0x212A then 'k' else c.toLower

def GIT_HOSTS : List Text :=
  ["github.com".toList, "gitlab.com".toList, "bitbucket.org".toList, "ssh.dev.azure.com".toList,
    "vs-ssh.visualstudio.com".toList]

structure HostFields where
  hostname : Option Text
  port : ℕ
  user : Option Text
  identityFile : Option Text
  proxyJump : Option Text
  deriving DecidableEq

structure HostBlock extends HostFields where
  name : Text
  deriving DecidableEq

structure SshConfigEntry extends HostBlock where
  isGitHost : Bool
  deriving DecidableEq

def isWildcard (pattern : Text) : Bool := pattern.any fun c ↦ c = '*' || c = '?'

def isGitHost (name : Text) (hostname : Option Text) : Bool :=
  (hostname.any fun hostname ↦ hostname ≠ [] && toLowerCase hostname ∈ GIT_HOSTS) ||
    toLowerCase name ∈ GIT_HOSTS

/-- `homedir()`, and `resolve(homedir(), path)`. -/
structure Home where
  dir : Text
  resolve : Text → Text

def resolveIdentityFile (home : Home) : Text → Text
  | ['~'] => home.dir
  | '~' :: '/' :: path => home.resolve path
  | path => path

def finalizeBlock (block : HostBlock) : SshConfigEntry :=
  ⟨block, isGitHost block.name block.hostname⟩

def makeBlock (name : Text) : HostBlock := ⟨⟨none, 22, none, none, none⟩, name⟩

/-- `Number.parseInt(value, 10)`, for what it makes a port of. -/
def parsePort (value : Text) : Option ℕ :=
  let digits := (match value with
    | '+' :: rest => rest
    | _ => value).takeWhile Char.isDigit
  let port := Nat.ofDigitChars 10 digits 0
  if digits ≠ [] ∧ 0 < port ∧ port ≤ 65535 then some port else none

def tab : Char := Char.ofNat 9

/-- The first of each separator, if it does not stand at the start. -/
def separatorIdx (line : Text) : Option ℕ :=
  ((['=', ' ', tab].filterMap fun c ↦ line.idxOf? c).filter (0 < ·)).min?

/-- The key and the value of a line. -/
def splitDirective (line : Text) : Option (Text × Text) :=
  (separatorIdx line).map fun i ↦ (toLowerCase (line.take i), trim (line.drop (i + 1)))

def words (value : Text) : List Text := (value.splitOnP isSpace).filter (· ≠ [])

/-- The names in a `Host` line. -/
def patterns (value : Text) : List Text := (words value).filter fun p ↦ ¬isWildcard p

structure ParseState where
  entries : List SshConfigEntry
  hasInclude : Bool
  currentBlocks : List HostBlock

/-- The branch of the `switch`, on one block. -/
def applyDirective (home : Home) (key value : Text) (block : HostBlock) : HostBlock :=
  if key = "hostname".toList then { block with hostname := some value }
  else if key = "port".toList then { block with port := (parsePort value).getD block.port }
  else if key = "user".toList then { block with user := some value }
  else if key = "identityfile".toList then
    { block with identityFile := some (resolveIdentityFile home value) }
  else if key = "proxyjump".toList then { block with proxyJump := some value }
  else block

def parseDirective (home : Home) (s : ParseState) (directive : Text × Text) : ParseState :=
  let (key, value) := directive
  if key = "include".toList then { s with hasInclude := true }
  else if key = "host".toList then
    { s with
      entries := s.entries ++ s.currentBlocks.map finalizeBlock
      currentBlocks := (patterns value).map makeBlock }
  else { s with currentBlocks := s.currentBlocks.map (applyDirective home key value) }

/-- The line without white space, if it is no comment. -/
def stripLine (rawLine : Text) : Option Text :=
  let line := trim rawLine
  if line = [] ∨ line.head? = some '#' then none else some line

def parseLine (home : Home) (s : ParseState) (rawLine : Text) : ParseState :=
  match (stripLine rawLine).bind splitDirective with
  | some directive => parseDirective home s directive
  | none => s

structure ParseResult where
  entries : List SshConfigEntry
  hasInclude : Bool

def parseSshConfig (home : Home) (content : Text) : ParseResult :=
  let s := (content.splitOn '\n').foldl (parseLine home) ⟨[], false, []⟩
  ⟨s.entries ++ s.currentBlocks.map finalizeBlock, s.hasInclude⟩

/-! ## What `ssh_config` says -/

/-- Where a keyword ends. -/
def isSeparator (c : Char) : Bool := c = '=' || isBlank c

/-- A line cut in two: the keyword, what is behind the first separator, and whether that is a
blank. -/
structure Reading where
  keyword : Text
  value : Text
  spaced : Bool

namespace Reading

/-- The argument: a `=` behind blanks belongs to the separator. -/
def argument (r : Reading) : Text :=
  match r.spaced, r.value with
  | true, '=' :: rest => rest.dropWhile isSpace
  | _, value => value

def IsHost (r : Reading) : Prop := r.keyword = "host".toList

instance (r : Reading) : Decidable r.IsHost := inferInstanceAs (Decidable (_ = _))

def IsMatch (r : Reading) : Prop := r.keyword = "match".toList

instance (r : Reading) : Decidable r.IsMatch := inferInstanceAs (Decidable (_ = _))

end Reading

def reading (line : Text) : Option Reading :=
  let keyword := line.takeWhile (!isSeparator ·)
  match line.dropWhile (!isSeparator ·) with
  | separator :: rest =>
    if keyword = [] then none
    else some ⟨toLowerCase keyword, trim rest, isBlank separator⟩
  | [] => none

def readings (content : Text) : List Reading :=
  (content.splitOn '\n').filterMap fun rawLine ↦ (stripLine rawLine).bind reading

/-- The value of a directive that has the keyword. -/
def valueOf (keyword : Text) (directive : Text × Text) : Option Text :=
  if directive.1 = keyword then some directive.2 else none

def portOf (directive : Text × Text) : Option ℕ :=
  (valueOf "port".toList directive).bind parsePort

/-- The fields that directives give, where `pick` chooses among the values for one field. -/
def fieldsOf (pick : {α : Type} → List α → Option α) (home : Home)
    (directives : List (Text × Text)) : HostFields where
  hostname := pick (directives.filterMap (valueOf "hostname".toList))
  port := (pick (directives.filterMap portOf)).getD 22
  user := pick (directives.filterMap (valueOf "user".toList))
  identityFile := pick (directives.filterMap fun d ↦
    (valueOf "identityfile".toList d).map (resolveIdentityFile home))
  proxyJump := pick (directives.filterMap (valueOf "proxyjump".toList))

def entryOf (fields : HostFields) (name : Text) : SshConfigEntry := finalizeBlock ⟨fields, name⟩

namespace Reading

/-- The directive as the parser takes it. -/
def parsed (r : Reading) : Text × Text := (r.keyword, r.value)

/-- The directive as `ssh_config` has it. -/
def given (r : Reading) : Text × Text := (r.keyword, r.argument)

end Reading

/-- Up to the next `Host` line. -/
def upToHost (rs : List Reading) : List Reading := rs.takeWhile fun r ↦ ¬r.IsHost

/-- Up to the next `Host` or `Match` line. -/
def upToBlock (rs : List Reading) : List Reading := rs.takeWhile fun r ↦ ¬r.IsHost ∧ ¬r.IsMatch

/-- What the code reads last under a `Host` line. -/
def lastFields (home : Home) (rs : List Reading) : HostFields :=
  fieldsOf List.getLast? home ((upToHost rs).map Reading.parsed)

/-- What is to be read first under a `Host` line. -/
def firstFields (home : Home) (rs : List Reading) : HostFields :=
  fieldsOf List.head? home ((upToBlock rs).map Reading.given)

/-- **The entries that a configuration has by `ssh_config`.** -/
def sshEntries (home : Home) : List Reading → List SshConfigEntry
  | [] => []
  | r :: rs =>
    if r.IsHost then (patterns r.argument).map (entryOf (firstFields home rs)) ++ sshEntries home rs
    else sshEntries home rs

/-- The entries that the code makes. -/
def parsedEntries (home : Home) : List Reading → List SshConfigEntry
  | [] => []
  | r :: rs =>
    if r.IsHost then (patterns r.value).map (entryOf (lastFields home rs)) ++ parsedEntries home rs
    else parsedEntries home rs

/-! ## What the loop does -/

/-- Setters that are called one after another: the last one counts. -/
theorem get_foldl {α β δ : Type} {op : β → δ → β} (get : β → Option α) {f : δ → Option α}
    (h : ∀ b d, get (op b d) = (f d).or (get b)) (ds : List δ) (b : β) :
    get (ds.foldl op b) = (ds.filterMap f).getLast?.or (get b) := by
  induction ds generalizing b with
  | nil => rfl
  | cons d ds ih =>
    rw [List.foldl_cons, ih, h]
    cases hd : f d with
    | none => rw [List.filterMap_cons_none hd, Option.none_or]
    | some a =>
      rw [List.filterMap_cons_some hd, List.getLast?_cons, Option.some_or, Option.some_or]
      cases (ds.filterMap f).getLast? <;> rfl

/-- A directive sets the field that it is for. -/
theorem applyDirective_eq (home : Home) (key value : Text) (block : HostBlock) :
    applyDirective home key value block =
      ⟨⟨(valueOf "hostname".toList (key, value)).or block.hostname,
        (portOf (key, value)).getD block.port, (valueOf "user".toList (key, value)).or block.user,
        ((valueOf "identityfile".toList (key, value)).map (resolveIdentityFile home)).or
          block.identityFile,
        (valueOf "proxyjump".toList (key, value)).or block.proxyJump⟩, block.name⟩ := by
  unfold applyDirective
  split_ifs with h₁ h₂ h₃ h₄ h₅
  · subst h₁
    rfl
  · subst h₂
    rfl
  · subst h₃
    rfl
  · subst h₄
    rfl
  · subst h₅
    rfl
  · unfold portOf valueOf
    rw [if_neg h₁, if_neg h₂, if_neg h₃, if_neg h₄, if_neg h₅]
    rfl

/-- **The directives of a block**, one after another on a new block: the last one counts. -/
theorem foldl_applyDirective (home : Home) (name : Text) (ds : List (Text × Text)) :
    ds.foldl (fun block d ↦ applyDirective home d.1 d.2 block) (makeBlock name) =
      ⟨fieldsOf List.getLast? home ds, name⟩ := by
  have hset := fun block (d : Text × Text) ↦ applyDirective_eq home d.1 d.2 block
  have hport : ∀ block (d : Text × Text),
      some (applyDirective home d.1 d.2 block).port = (portOf d).or (some block.port) := by
    intro block d
    rw [hset]
    cases portOf d <;> rfl
  have hname : ∀ block (d : Text × Text), some (applyDirective home d.1 d.2 block).name =
      (none : Option Text).or (some block.name) := by
    intro block d
    rw [hset]
    rfl
  have h₁ := get_foldl (·.hostname) (fun block d ↦ congrArg (·.hostname) (hset block d)) ds
    (makeBlock name)
  have h₂ := get_foldl (fun block ↦ some block.port) hport ds (makeBlock name)
  have h₃ := get_foldl (·.user) (fun block d ↦ congrArg (·.user) (hset block d)) ds (makeBlock name)
  have h₄ := get_foldl (·.identityFile) (fun block d ↦ congrArg (·.identityFile) (hset block d)) ds
    (makeBlock name)
  have h₅ := get_foldl (·.proxyJump) (fun block d ↦ congrArg (·.proxyJump) (hset block d)) ds
    (makeBlock name)
  have h₆ := get_foldl (fun block ↦ some block.name) hname ds (makeBlock name)
  generalize ds.foldl (fun block d ↦ applyDirective home d.1 d.2 block) (makeBlock name) = block
    at *
  obtain ⟨⟨hostname, port, user, identityFile, proxyJump⟩, name'⟩ := block
  have hport' : port = (ds.filterMap portOf).getLast?.getD 22 := by
    refine Option.some.inj (Eq.trans (show some port = _ from h₂) ?_)
    cases (ds.filterMap portOf).getLast? <;> rfl
  have hname' : name' = name := by
    refine Option.some.inj (Eq.trans (show some name' = _ from h₆) ?_)
    rw [List.filterMap_none]
    rfl
  rw [makeBlock, Option.or_none] at h₁ h₃ h₄ h₅
  dsimp only at h₁ h₃ h₄ h₅
  rw [h₁, hport', h₃, h₄, h₅, hname']
  rfl

/-! ### The loop -/

def finish (s : ParseState) : List SshConfigEntry := s.entries ++ s.currentBlocks.map finalizeBlock

theorem upToHost_cons_of_isHost {r : Reading} (h : r.IsHost) (rs : List Reading) :
    upToHost (r :: rs) = [] :=
  List.takeWhile_cons_of_neg (by simp [h])

theorem upToHost_cons {r : Reading} (h : ¬r.IsHost) (rs : List Reading) :
    upToHost (r :: rs) = r :: upToHost rs :=
  List.takeWhile_cons_of_pos (by simp [h])

theorem parseDirective_of_isHost (home : Home) (s : ParseState) {r : Reading} (h : r.IsHost) :
    parseDirective home s r.parsed =
      { s with entries := finish s, currentBlocks := (patterns r.value).map makeBlock } := by
  unfold parseDirective Reading.parsed
  dsimp only
  rw [show r.keyword = _ from h]
  rfl

theorem blocks_parseDirective (home : Home) (s : ParseState) {r : Reading} (h : ¬r.IsHost) :
    (parseDirective home s r.parsed).currentBlocks =
      s.currentBlocks.map (applyDirective home r.keyword r.value) ∧
      (parseDirective home s r.parsed).entries = s.entries := by
  unfold parseDirective Reading.parsed
  dsimp only
  split_ifs with hinclude hhost
  · rw [hinclude]
    exact ⟨(List.map_id s.currentBlocks).symm, rfl⟩
  · exact absurd hhost h
  · exact ⟨rfl, rfl⟩

/-- **What the loop leaves behind**: the blocks at hand take what comes up to the next `Host` line.
-/
theorem finish_foldl (home : Home) (rs : List Reading) (s : ParseState) :
    finish ((rs.map Reading.parsed).foldl (parseDirective home) s) =
      s.entries ++ s.currentBlocks.map (fun block ↦ finalizeBlock
        (((upToHost rs).map Reading.parsed).foldl (fun block d ↦ applyDirective home d.1 d.2 block)
          block)) ++ parsedEntries home rs := by
  induction rs generalizing s with
  | nil => exact (List.append_nil _).symm
  | cons r rs ih =>
    rw [List.map_cons, List.foldl_cons, ih, parsedEntries]
    by_cases hhost : r.IsHost
    · rw [parseDirective_of_isHost home s hhost, upToHost_cons_of_isHost hhost, if_pos hhost,
        List.map_map]
      have hentries : (patterns r.value).map ((fun block ↦ finalizeBlock
          (((upToHost rs).map Reading.parsed).foldl
            (fun block d ↦ applyDirective home d.1 d.2 block) block)) ∘ makeBlock) =
          (patterns r.value).map (entryOf (lastFields home rs)) := by
        refine List.map_congr_left fun name _ ↦ ?_
        exact congrArg finalizeBlock (foldl_applyDirective home name _)
      rw [hentries, List.append_assoc]
      rfl
    · obtain ⟨hblocks, hentries⟩ := blocks_parseDirective home s hhost
      rw [hblocks, hentries, upToHost_cons hhost, if_neg hhost, List.map_map]
      rfl

/-! ### The cut of a line -/

variable {c : Char} {p : Char → Bool}

theorem isSeparator_iff : isSeparator c = true ↔ c ∈ ['=', ' ', tab] := by
  have htab : c.toNat = 9 ↔ c = tab := by
    refine ⟨fun h ↦ ?_, fun h ↦ h ▸ rfl⟩
    rw [← Char.ofNat_toNat c, h, tab]
  rw [isSeparator, isBlank, Bool.or_eq_true, Bool.or_eq_true, decide_eq_true_iff,
    decide_eq_true_iff, decide_eq_true_iff, htab, List.mem_cons, List.mem_cons, List.mem_singleton]

theorem idxOf?_append_of_not_mem {front : Text} (h : c ∉ front) (rest : Text) :
    (front ++ rest).idxOf? c = (rest.idxOf? c).map (· + front.length) := by
  induction front with
  | nil => exact Option.map_id'.symm
  | cons a front ih =>
    rw [List.mem_cons, not_or] at h
    rw [List.cons_append, List.idxOf?_cons, if_neg (by simpa using Ne.symm h.1), ih h.2,
      Option.map_map]
    rfl

/-- The first separator, in a line that does not start with one. -/
theorem separatorIdx_append {keyword rest : Text} (hne : keyword ≠ [])
    (hkeyword : ∀ c ∈ keyword, isSeparator c = false) {separator : Char}
    (hseparator : isSeparator separator = true) :
    separatorIdx (keyword ++ separator :: rest) = some keyword.length := by
  have hnot : ∀ c ∈ ['=', ' ', tab], c ∉ keyword := by
    intro c hc hmem
    have hno := hkeyword c hmem
    rw [isSeparator_iff.mpr hc] at hno
    cases hno
  have hidx : ∀ c ∈ ['=', ' ', tab], (keyword ++ separator :: rest).idxOf? c =
      ((separator :: rest).idxOf? c).map (· + keyword.length) :=
    fun c hc ↦ idxOf?_append_of_not_mem (hnot c hc) _
  rw [separatorIdx, List.min?_eq_some_iff]
  constructor
  · have hmem := isSeparator_iff.mp hseparator
    refine List.mem_filter.mpr ⟨List.mem_filterMap.mpr ⟨separator, hmem, ?_⟩,
      decide_eq_true (List.length_pos_iff.mpr hne)⟩
    rw [hidx separator hmem, List.idxOf?_cons, if_pos (beq_self_eq_true _), Option.map_some,
      Nat.zero_add]
  · intro i hi
    obtain ⟨c, hc, hi⟩ := List.mem_filterMap.mp (List.mem_filter.mp hi).1
    rw [hidx c hc, Option.map_eq_some_iff] at hi
    obtain ⟨j, -, rfl⟩ := hi
    exact Nat.le_add_left _ _

theorem separatorIdx_eq_none {line : Text} (h : ∀ c ∈ line, isSeparator c = false) :
    separatorIdx line = none := by
  have hnone : (['=', ' ', tab].filterMap fun c ↦ line.idxOf? c) = [] := by
    refine List.filterMap_eq_nil_iff.mpr fun c hc ↦ List.idxOf?_eq_none_iff.mpr fun hmem ↦ ?_
    have hno := h c hmem
    rw [isSeparator_iff.mpr hc] at hno
    cases hno
  rw [separatorIdx, hnone]
  rfl

/-- A line that starts with `=` gives a key that starts with it. -/
theorem splitDirective_equals {rest : Text} {directive : Text × Text}
    (h : splitDirective ('=' :: rest) = some directive) :
    ∃ key value, directive = ('=' :: key, value) := by
  obtain ⟨i, hi, rfl⟩ := Option.map_eq_some_iff.mp h
  have hmem := List.min?_mem hi
  obtain ⟨j, rfl⟩ := Nat.exists_eq_succ_of_ne_zero
    (Nat.pos_iff_ne_zero.mp (of_decide_eq_true (List.mem_filter.mp hmem).2))
  exact ⟨_, _, rfl⟩

theorem parseDirective_equals (home : Home) (s : ParseState) (key value : Text) :
    parseDirective home s ('=' :: key, value) = s := by
  have hne : ∀ word : Text, word.head? ≠ some '=' → '=' :: key ≠ word := by
    rintro word hword rfl
    exact hword rfl
  have hblock : applyDirective home ('=' :: key) value = id := by
    funext block
    unfold applyDirective
    rw [if_neg (hne "hostname".toList (by decide)), if_neg (hne "port".toList (by decide)),
      if_neg (hne "user".toList (by decide)), if_neg (hne "identityfile".toList (by decide)),
      if_neg (hne "proxyjump".toList (by decide))]
    rfl
  unfold parseDirective
  dsimp only
  rw [if_neg (hne "include".toList (by decide)), if_neg (hne "host".toList (by decide)), hblock,
    List.map_id]

/-- **A line is cut where it is to be cut**, but for what is done with a `=` behind blanks. -/
theorem splitDirective_eq {line : Text} (hhead : ∀ c ∈ line.head?, isSeparator c = false) :
    splitDirective line = (reading line).map Reading.parsed := by
  have hcut : line.takeWhile (!isSeparator ·) ++
      line.dropWhile (!isSeparator ·) = line := List.takeWhile_append_dropWhile
  have hkeyword : ∀ c ∈ line.takeWhile (!isSeparator ·), isSeparator c = false := by
    intro c hc
    exact (Bool.not_eq_eq_eq_not ..).mp (List.mem_takeWhile_imp (p := (!isSeparator ·)) hc)
  unfold reading splitDirective
  dsimp only
  have hstop := List.head?_dropWhile_not (!isSeparator ·) line
  generalize hk : line.takeWhile (!isSeparator ·) = keyword at *
  generalize line.dropWhile (!isSeparator ·) = rest at *
  cases rest with
  | nil =>
    rw [List.append_nil] at hcut
    rw [separatorIdx_eq_none (hcut ▸ hkeyword)]
    rfl
  | cons separator rest =>
    have hseparator : isSeparator separator = true := (Bool.not_eq_eq_eq_not ..).mp hstop
    have hne : keyword ≠ [] := by
      rintro rfl
      rw [← hcut] at hhead
      rw [hhead separator rfl] at hseparator
      cases hseparator
    dsimp only
    rw [← hcut, separatorIdx_append hne hkeyword hseparator, if_neg hne]
    have hlong : keyword ++ separator :: rest = (keyword ++ [separator]) ++ rest := by
      rw [List.append_assoc, List.singleton_append]
    rw [Option.map_some, List.take_left, hlong, List.drop_left' (by rw [List.length_append]; rfl)]
    rfl

theorem trim_head {t : Text} (h : c ∈ (trim t).head?) : isSpace c = false := by
  have hstart : trim t <+: t.dropWhile isSpace := by
    have hend := List.dropWhile_suffix isSpace (l := (t.dropWhile isSpace).reverse)
    rw [← List.reverse_prefix, List.reverse_reverse] at hend
    exact hend
  obtain ⟨rest, hrest⟩ := hstart
  obtain ⟨tail, htail⟩ := List.head?_eq_some_iff.mp (Option.mem_def.mp h)
  have hstop := List.head?_dropWhile_not isSpace t
  rw [← hrest, htail] at hstop
  exact hstop

theorem isSpace_of_isBlank (h : isBlank c = true) : isSpace c = true := by
  rw [isBlank, Bool.or_eq_true, decide_eq_true_iff, decide_eq_true_iff] at h
  rcases h with rfl | htab
  · decide
  · rw [isSpace, htab]
    rfl

/-- The body of the loop, on the reading of the line. -/
theorem parseLine_eq (home : Home) (s : ParseState) (rawLine : Text) :
    parseLine home s rawLine =
      (((stripLine rawLine).bind reading).map fun r ↦ parseDirective home s r.parsed).getD s := by
  unfold parseLine
  cases hstrip : stripLine rawLine with
  | none => rfl
  | some line =>
    rw [Option.bind_some, Option.bind_some]
    have hline : trim rawLine = line := by
      unfold stripLine at hstrip
      exact (Option.ite_none_left_eq_some.mp hstrip).2 |> Option.some.inj
    by_cases hequals : line.head? = some '='
    · obtain ⟨rest, rfl⟩ := List.head?_eq_some_iff.mp hequals
      have hnone : reading ('=' :: rest) = none := rfl
      rw [hnone]
      cases hsplit : splitDirective ('=' :: rest) with
      | none => rfl
      | some directive =>
        obtain ⟨key, value, rfl⟩ := splitDirective_equals hsplit
        exact parseDirective_equals home s key value
    · have hhead : ∀ c ∈ line.head?, isSeparator c = false := by
        intro c hc
        rw [isSeparator, Bool.or_eq_false_iff, decide_eq_false_iff_not]
        refine ⟨fun heq ↦ hequals (heq ▸ hc), Bool.eq_false_iff.mpr fun hblank ↦ ?_⟩
        rw [← hline] at hc
        exact Bool.false_ne_true ((trim_head hc).symm.trans (isSpace_of_isBlank hblank))
      rw [splitDirective_eq hhead]
      cases reading line <;> rfl

/-- The loop, on the readings of the lines. -/
theorem foldl_parseLine (home : Home) (lines : List Text) (s : ParseState) :
    lines.foldl (parseLine home) s =
      ((lines.filterMap fun rawLine ↦ (stripLine rawLine).bind reading).map
        Reading.parsed).foldl (parseDirective home) s := by
  induction lines generalizing s with
  | nil => rfl
  | cons rawLine lines ih =>
    rw [List.foldl_cons, parseLine_eq, ih, List.filterMap_cons]
    cases (stripLine rawLine).bind reading <;> rfl

theorem entries_parseSshConfig (home : Home) (content : Text) :
    (parseSshConfig home content).entries = parsedEntries home (readings content) := by
  change finish ((content.splitOn '\n').foldl (parseLine home) ⟨[], false, []⟩) = _
  rw [foldl_parseLine, finish_foldl]
  rfl

/-! ## When the two agree -/

/-- A `Host` line names the hosts that it is to name, and under one that names a host what the code
reads last is what is to be read first. -/
def Follows (home : Home) : List Reading → Prop
  | [] => True
  | r :: rs =>
    (r.IsHost → patterns r.value = patterns r.argument ∧
      (patterns r.argument ≠ [] → lastFields home rs = firstFields home rs)) ∧ Follows home rs

theorem words_dropWhile (t : Text) : words (t.dropWhile isSpace) = words t := by
  induction t with
  | nil => rfl
  | cons c t ih =>
    rw [List.dropWhile_cons]
    split
    · rename_i hspace
      rw [ih, words, words, List.splitOnP_cons_eq_if_modifyHead, if_pos hspace,
        List.filter_cons_of_neg (by simp)]
    · rfl

/-- A `=` in front of the names adds one to them, or changes the first one. -/
theorem patterns_equals (rest : Text) :
    (patterns rest).length ≤ (patterns ('=' :: rest)).length := by
  obtain ⟨first, others, hsplit⟩ := List.exists_cons_of_ne_nil (List.splitOnP_ne_nil isSpace rest)
  have hequals : words ('=' :: rest) = ('=' :: first) :: others.filter (· ≠ []) := by
    rw [words, List.splitOnP_cons_eq_if_modifyHead, if_neg (by decide), hsplit,
      List.modifyHead_cons]
    rfl
  rw [patterns, patterns, hequals]
  by_cases hfirst : first = []
  · have hwords : words rest = others.filter (· ≠ []) := by
      rw [words, hsplit, hfirst, List.filter_cons_of_neg (by simp)]
    rw [hwords]
    exact ((List.sublist_cons_self _ _).filter _).length_le
  · have hwords : words rest = first :: others.filter (· ≠ []) := by
      rw [words, hsplit]
      exact List.filter_cons_of_pos (decide_eq_true hfirst)
    have hwild : isWildcard ('=' :: first) = isWildcard first := rfl
    rw [hwords, List.filter_cons, List.filter_cons, hwild]
    split
    · exact Nat.le_refl _
    · exact Nat.le_refl _

theorem length_patterns_argument (r : Reading) :
    (patterns r.argument).length ≤ (patterns r.value).length := by
  unfold Reading.argument
  split
  · rename_i rest hspaced hvalue
    rw [hvalue, patterns, words_dropWhile, ← patterns]
    exact patterns_equals rest
  · exact Nat.le_refl _

theorem length_sshEntries (home : Home) (rs : List Reading) :
    (sshEntries home rs).length ≤ (parsedEntries home rs).length := by
  induction rs with
  | nil => exact Nat.le_refl _
  | cons r rs ih =>
    rw [sshEntries, parsedEntries]
    split
    · rw [List.length_append, List.length_append, List.length_map, List.length_map]
      exact Nat.add_le_add (length_patterns_argument r) ih
    · exact ih

theorem map_entryOf_eq_iff {names names' : List Text} {fields fields' : HostFields} :
    names.map (entryOf fields) = names'.map (entryOf fields') ↔
      names = names' ∧ (names' ≠ [] → fields = fields') := by
  have hname : ∀ f n, (entryOf f n).name = n := fun f n ↦ rfl
  constructor
  · intro h
    have hnames := congrArg (List.map (·.name)) h
    rw [List.map_map, List.map_map] at hnames
    have hid : ∀ f : HostFields, ((fun e : SshConfigEntry ↦ e.name) ∘ entryOf f) = id := fun f ↦ rfl
    rw [hid, hid, List.map_id, List.map_id] at hnames
    refine ⟨hnames, fun hne ↦ ?_⟩
    obtain ⟨name, rest, rfl⟩ := List.exists_cons_of_ne_nil hne
    subst hnames
    rw [List.map_cons, List.map_cons] at h
    exact congrArg (·.toHostFields) (List.cons.inj h).1
  · rintro ⟨rfl, hfields⟩
    cases names with
    | nil => rfl
    | cons name names => rw [hfields (List.cons_ne_nil _ _)]

/-- **When the entries are the ones of `ssh_config`.** -/
theorem parsedEntries_eq_iff (home : Home) (rs : List Reading) :
    parsedEntries home rs = sshEntries home rs ↔ Follows home rs := by
  induction rs with
  | nil => exact iff_of_true rfl trivial
  | cons r rs ih =>
    rw [parsedEntries, sshEntries, Follows]
    split
    · rename_i hhost
      rw [← ih, imp_iff_right hhost, ← map_entryOf_eq_iff]
      constructor
      · intro h
        -- No `Host` line gives fewer entries than it is to give, and so none gives more.
        refine List.append_inj h ?_
        have hlength := congrArg List.length h
        have hrest := length_sshEntries home rs
        have hown := length_patterns_argument r
        rw [List.length_append, List.length_append, List.length_map, List.length_map] at hlength
        rw [List.length_map, List.length_map]
        omega
      · rintro ⟨hown, hrest⟩
        rw [hown, hrest]
    · rename_i hhost
      rw [ih]
      exact (and_iff_right fun h ↦ absurd h hhost).symm

/-! ## Equivalent texts -/

/-- The separators of `ssh_config`: blanks, or one `=` with blanks around it. -/
inductive IsSeparator : Text → Prop
  | blanks {b : Text} (hne : b ≠ []) (hb : ∀ c ∈ b, isBlank c = true) : IsSeparator b
  | equals {b b' : Text} (hb : ∀ c ∈ b, isBlank c = true) (hb' : ∀ c ∈ b', isBlank c = true) :
    IsSeparator (b ++ '=' :: b')

/-- What may stand as a keyword: it is no comment, and no separator is in it. -/
structure IsKeyword (keyword : Text) : Prop where
  start : ∃ c rest, keyword = c :: rest ∧ isSpace c = false ∧ c ≠ '#'
  within : ∀ c ∈ keyword, isSeparator c = false

/-- What may stand as an argument: something without white space around it that does not look like a
separator. -/
structure IsArgument (argument : Text) : Prop where
  start : ∃ c rest, argument = c :: rest ∧ isSpace c = false ∧ c ≠ '='
  finish : ∀ c ∈ argument.getLast?, isSpace c = false

/-- Two lines with the same directive: separator, white space around the line and the case of the
keyword are free. -/
inductive SameLine : Text → Text → Prop
  | refl (line : Text) : SameLine line line
  | directive {keyword keyword' separator separator' before before' after after' argument : Text}
    (hkeyword : IsKeyword keyword) (hkeyword' : IsKeyword keyword')
    (hcase : toLowerCase keyword = toLowerCase keyword')
    (hseparator : IsSeparator separator) (hseparator' : IsSeparator separator')
    (hargument : IsArgument argument)
    (hspace : ∀ c ∈ before ++ after, isSpace c = true)
    (hspace' : ∀ c ∈ before' ++ after', isSpace c = true) :
    SameLine (before ++ (keyword ++ (separator ++ argument)) ++ after)
      (before' ++ (keyword' ++ (separator' ++ argument)) ++ after')

/-- Two texts that have the same directive in each line. -/
def SameDirectives (content content' : Text) : Prop :=
  List.Forall₂ SameLine (content.splitOn '\n') (content'.splitOn '\n')

theorem forall_mem_of_all {t : Text} {b : Bool}
    (h : (t.all fun c ↦ p c == b) = true) : ∀ c ∈ t, p c = b :=
  fun c hc ↦ eq_of_beq (List.all_eq_true.mp h c hc)

theorem isArgument_singleton (hspace : isSpace c = false) (hne : c ≠ '=') :
    IsArgument [c] :=
  ⟨⟨c, [], rfl, hspace, hne⟩, fun _ hd ↦ Option.some.inj hd ▸ hspace⟩

theorem dropWhile_append_of_all {front : Text} (h : ∀ c ∈ front, p c = true)
    (rest : Text) : (front ++ rest).dropWhile p = rest.dropWhile p := by
  rw [List.dropWhile_append, List.dropWhile_eq_nil_iff.mpr h]
  rfl

theorem dropWhile_of_head {t : Text} (h : ∀ c ∈ t.head?, p c = false) :
    t.dropWhile p = t := by
  cases t with
  | nil => rfl
  | cons c t => exact List.dropWhile_cons_of_neg (by rw [h c rfl]; exact Bool.false_ne_true)

theorem takeWhile_append_cons {front : Text} (h : ∀ c ∈ front, p c = true)
    (hc : p c = false) (rest : Text) : (front ++ c :: rest).takeWhile p = front := by
  rw [List.takeWhile_append_of_pos h,
    List.takeWhile_cons_of_neg (by rw [hc]; exact Bool.false_ne_true), List.append_nil]

/-- What is left of a text between white space. -/
theorem trim_append {before t after : Text} (hbefore : ∀ c ∈ before, isSpace c = true)
    (hafter : ∀ c ∈ after, isSpace c = true) (hne : t ≠ [])
    (hstart : ∀ c ∈ t.head?, isSpace c = false)
    (hend : ∀ c ∈ t.getLast?, isSpace c = false) : trim (before ++ t ++ after) = t := by
  have hfront : (before ++ (t ++ after)).dropWhile isSpace = t ++ after := by
    rw [dropWhile_append_of_all hbefore]
    refine dropWhile_of_head ?_
    rw [List.head?_append_of_ne_nil t hne]
    exact hstart
  have hback : (after.reverse ++ t.reverse).dropWhile isSpace = t.reverse := by
    rw [dropWhile_append_of_all fun c hc ↦ hafter c (List.mem_reverse.mp hc)]
    refine dropWhile_of_head ?_
    rw [List.head?_reverse]
    exact hend
  rw [trim, List.append_assoc, hfront, List.reverse_append, hback, List.reverse_reverse]

theorem isSeparator_of_isBlank (h : isBlank c = true) : isSeparator c = true := by
  rw [isSeparator, h, Bool.or_true]

/-- The first of a separator, and what `argument` makes of the rest. -/
theorem IsSeparator.given {separator argument : Text} (h : IsSeparator separator)
    (hargument : IsArgument argument) (keyword : Text) :
    ∃ c rest, separator = c :: rest ∧ isSeparator c = true ∧
      Reading.argument ⟨keyword, trim (rest ++ argument), isBlank c⟩ = argument := by
  obtain ⟨a, tail, rfl, ha, hequals⟩ := hargument.start
  have htrim : ∀ b : Text, (∀ c ∈ b, isBlank c = true) → trim (b ++ a :: tail) = a :: tail := by
    intro b hb
    have hkeep := trim_append (fun c hc ↦ isSpace_of_isBlank (hb c hc))
      (fun c hc ↦ absurd hc (List.not_mem_nil (a := c))) (List.cons_ne_nil a tail)
      (fun c hc ↦ Option.some.inj hc ▸ ha) hargument.finish
    rwa [List.append_nil] at hkeep
  have hplain : ∀ spaced, Reading.argument ⟨keyword, a :: tail, spaced⟩ = a :: tail := by
    intro spaced
    unfold Reading.argument
    split
    · rename_i rest _ hvalue
      exact absurd (List.cons.inj hvalue).1 hequals
    · rfl
  cases h with
  | blanks hne hb =>
    obtain ⟨c, rest, rfl⟩ := List.exists_cons_of_ne_nil hne
    refine ⟨c, rest, rfl, isSeparator_of_isBlank (hb c (List.mem_cons_self ..)), ?_⟩
    rw [htrim rest fun c hc ↦ hb c (List.mem_cons_of_mem _ hc)]
    exact hplain _
  | @equals b b' hb hb' =>
    cases b with
    | nil =>
      refine ⟨'=', b', rfl, rfl, ?_⟩
      rw [htrim b' hb']
      exact hplain _
    | cons c b =>
      have hc := hb c (List.mem_cons_self ..)
      refine ⟨c, b ++ '=' :: b', rfl, isSeparator_of_isBlank hc, ?_⟩
      have hlast : ∀ c ∈ ('=' :: b' ++ a :: tail).getLast?, isSpace c = false := by
        rw [List.getLast?_append_of_ne_nil _ (List.cons_ne_nil a tail)]
        exact hargument.finish
      have hvalue := trim_append (fun c hc ↦ isSpace_of_isBlank (hb c (List.mem_cons_of_mem _ hc)))
        (fun c hc ↦ absurd hc (List.not_mem_nil (a := c)))
        (List.cons_ne_nil '=' (b' ++ a :: tail))
        (fun c hc ↦ Option.some.inj hc ▸ by decide) hlast
      rw [List.append_nil] at hvalue
      rw [List.append_assoc, List.cons_append, hvalue, hc]
      change (b' ++ a :: tail).dropWhile isSpace = a :: tail
      rw [dropWhile_append_of_all fun c hc ↦ isSpace_of_isBlank (hb' c hc)]
      exact dropWhile_of_head fun c hc ↦ Option.some.inj hc ▸ ha

/-- **The directive of a line**, whatever separates keyword and argument. -/
theorem given_stripLine {keyword separator before after argument : Text}
    (hkeyword : IsKeyword keyword) (hseparator : IsSeparator separator)
    (hargument : IsArgument argument) (hspace : ∀ c ∈ before ++ after, isSpace c = true) :
    ((stripLine (before ++ (keyword ++ (separator ++ argument)) ++ after)).bind reading).map
      Reading.given = some (toLowerCase keyword, argument) := by
  obtain ⟨k, keyword', rfl, hk, hcomment⟩ := hkeyword.start
  obtain ⟨c, rest, rfl, hc, hgiven⟩ := hseparator.given hargument (toLowerCase (k :: keyword'))
  obtain ⟨a, tail, hcons, -⟩ := hargument.start
  have hne : argument ≠ [] := hcons ▸ List.cons_ne_nil a tail
  have hlast : ((k :: keyword') ++ ((c :: rest) ++ argument)).getLast? = argument.getLast? := by
    rw [List.getLast?_append_of_ne_nil _ (List.append_ne_nil_of_right_ne_nil _ hne),
      List.getLast?_append_of_ne_nil _ hne]
  have htrim := trim_append (t := (k :: keyword') ++ ((c :: rest) ++ argument))
    (fun c hc ↦ hspace c (List.mem_append_left _ hc))
    (fun c hc ↦ hspace c (List.mem_append_right _ hc)) (List.cons_ne_nil _ _)
    (fun c hc ↦ Option.some.inj hc ▸ hk) (hlast ▸ hargument.finish)
  have hall : ∀ c ∈ k :: keyword', (!isSeparator c) = true := by
    intro c hc
    rw [hkeyword.within c hc]
    rfl
  have hstop : (!isSeparator c) = false := by
    rw [hc]
    rfl
  have hbehind : ((k :: keyword') ++ c :: (rest ++ argument)).dropWhile (!isSeparator ·) =
      c :: (rest ++ argument) := by
    rw [dropWhile_append_of_all hall]
    exact dropWhile_of_head fun d hd ↦ Option.some.inj hd ▸ hstop
  have hread : reading ((k :: keyword') ++ ((c :: rest) ++ argument)) =
      some ⟨toLowerCase (k :: keyword'), trim (rest ++ argument), isBlank c⟩ := by
    change reading ((k :: keyword') ++ c :: (rest ++ argument)) = _
    unfold reading
    dsimp only
    rw [takeWhile_append_cons hall hstop, hbehind]
    exact if_neg (List.cons_ne_nil _ _)
  have hstrip : stripLine (before ++ ((k :: keyword') ++ ((c :: rest) ++ argument)) ++ after) =
      some ((k :: keyword') ++ ((c :: rest) ++ argument)) := by
    unfold stripLine
    dsimp only
    rw [htrim]
    refine if_neg (not_or.mpr ⟨List.cons_ne_nil _ _, fun h ↦ hcomment (Option.some.inj h)⟩)
  rw [hstrip, Option.bind_some, hread, Option.map_some]
  exact congrArg (fun argument ↦ some (_, argument)) hgiven

theorem SameLine.given {line line' : Text} (h : SameLine line line') :
    ((stripLine line).bind reading).map Reading.given =
      ((stripLine line').bind reading).map Reading.given := by
  cases h with
  | refl => rfl
  | directive hkeyword hkeyword' hcase hseparator hseparator' hargument hspace hspace' =>
    rw [given_stripLine hkeyword hseparator hargument hspace,
      given_stripLine hkeyword' hseparator' hargument hspace', hcase]

theorem SameDirectives.given {content content' : Text} (h : SameDirectives content content') :
    (readings content).map Reading.given = (readings content').map Reading.given := by
  unfold SameDirectives at h
  unfold readings
  generalize content.splitOn '\n' = lines at h
  generalize content'.splitOn '\n' = lines' at h
  induction h with
  | nil => rfl
  | @cons line line' lines lines' hline _ ih =>
    rw [List.filterMap_cons, List.filterMap_cons]
    have hgiven := hline.given
    cases hfirst : (stripLine line).bind reading <;> cases hsecond : (stripLine line').bind reading
      <;> rw [hfirst, hsecond] at hgiven
    · exact ih
    · cases hgiven
    · cases hgiven
    · rw [List.map_cons, List.map_cons, ih, Option.some.inj hgiven]

theorem upToBlock_given {rs rs' : List Reading}
    (h : rs.map Reading.given = rs'.map Reading.given) :
    (upToBlock rs).map Reading.given = (upToBlock rs').map Reading.given := by
  let stops : Text × Text → Bool := fun d ↦ d.1 ≠ "host".toList ∧ d.1 ≠ "match".toList
  have hcut : ∀ rs, (upToBlock rs).map Reading.given =
      (rs.map Reading.given).takeWhile stops := by
    intro rs
    rw [List.takeWhile_map]
    rfl
  rw [hcut, hcut, h]

/-- What `ssh_config` says depends on the directives alone. -/
theorem sshEntries_congr (home : Home) {rs rs' : List Reading}
    (h : rs.map Reading.given = rs'.map Reading.given) :
    sshEntries home rs = sshEntries home rs' := by
  induction rs generalizing rs' with
  | nil => rw [List.map_eq_nil_iff.mp h.symm]
  | cons r rs ih =>
    cases rs' with
    | nil => cases h
    | cons r' rs' =>
      obtain ⟨hgiven, hrest⟩ := List.cons.inj h
      obtain ⟨hkeyword, hargument⟩ := Prod.mk.inj hgiven
      have hhost : r.IsHost ↔ r'.IsHost := by
        rw [Reading.IsHost, Reading.IsHost, hkeyword]
      rw [sshEntries, sshEntries, ih hrest, hargument, firstFields, firstFields,
        upToBlock_given hrest]
      exact ite_congr (propext hhost) (fun _ ↦ rfl) fun _ ↦ rfl

/-! ## The results -/

/-- Whether there is an `Include` line. -/
theorem hasInclude_parseSshConfig (home : Home) (content : Text) :
    (parseSshConfig home content).hasInclude =
      (readings content).any fun r ↦ r.keyword = "include".toList := by
  have hdirective : ∀ s (r : Reading), (parseDirective home s r.parsed).hasInclude =
      (s.hasInclude || decide (r.keyword = "include".toList)) := by
    intro s r
    unfold parseDirective Reading.parsed
    dsimp only
    split_ifs with hinclude
    · rw [decide_eq_true hinclude]
      exact (Bool.or_true _).symm
    all_goals
      rw [decide_eq_false hinclude]
      exact (Bool.or_false _).symm
  have hfold : ∀ (rs : List Reading) (s : ParseState),
      ((rs.map Reading.parsed).foldl (parseDirective home) s).hasInclude =
        (s.hasInclude || rs.any fun r ↦ r.keyword = "include".toList) := by
    intro rs
    induction rs with
    | nil => exact fun s ↦ (Bool.or_false _).symm
    | cons r rs ih =>
      intro s
      rw [List.map_cons, List.foldl_cons, ih, hdirective, List.any_cons, Bool.or_assoc]
  change ((content.splitOn '\n').foldl (parseLine home) ⟨[], false, []⟩).hasInclude = _
  rw [foldl_parseLine, hfold, Bool.false_or]
  rfl

/-- **When the parser follows `ssh_config`**: it does if and only if under each `Host` line that
names a host what it reads last is what is to be read first, and each `Host` line names what it is
to name. A text with the same directives gives the same entries if and only if this is so for that
text as well. -/
theorem parseSshConfig_follows_iff (home : Home) (content : Text) :
    ((parseSshConfig home content).entries = sshEntries home (readings content) ↔
        Follows home (readings content)) ∧
      ((parseSshConfig home content).hasInclude =
        (readings content).any fun r ↦ r.keyword = "include".toList) ∧
      ∀ content', SameDirectives content content' →
        (parseSshConfig home content').hasInclude = (parseSshConfig home content).hasInclude ∧
        (Follows home (readings content) →
          ((parseSshConfig home content').entries = (parseSshConfig home content).entries ↔
            Follows home (readings content'))) := by
  have hentries : ∀ content, (parseSshConfig home content).entries =
      sshEntries home (readings content) ↔ Follows home (readings content) := by
    intro content
    rw [entries_parseSshConfig, parsedEntries_eq_iff]
  refine ⟨hentries content, hasInclude_parseSshConfig home content, fun content' hsame ↦ ⟨?_, ?_⟩⟩
  · have hany : ∀ rs : List Reading, (rs.any fun r ↦ r.keyword = "include".toList) =
        (rs.map Reading.given).any fun d ↦ d.1 = "include".toList := by
      intro rs
      rw [List.any_map]
      rfl
    rw [hasInclude_parseSshConfig, hasInclude_parseSshConfig, hany, hany, hsame.given]
  · intro hfollows
    rw [(hentries content).mpr hfollows, sshEntries_congr home hsame.given, hentries]

/-- A repeated directive, one behind a `Match` line, and a `=` behind a blank. -/
theorem not_follows_repeated :
    let home : Home := ⟨"/home/u".toList, id⟩
    let repeated := "Host a\nUser x\nUser y".toList
    let matched := "Host a\nMatch user b\nUser x".toList
    let plain := "Host a\nUser x".toList
    let spaced := "Host a\nUser = x".toList
    (parseSshConfig home repeated).entries ≠ sshEntries home (readings repeated) ∧
      (parseSshConfig home matched).entries ≠ sshEntries home (readings matched) ∧
      SameDirectives plain spaced ∧
      (parseSshConfig home plain).entries ≠ (parseSshConfig home spaced).entries := by
  intro home repeated matched plain spaced
  refine ⟨by decide +kernel, by decide +kernel, ?_, by decide +kernel⟩
  have hkeyword : IsKeyword "User".toList :=
    ⟨⟨'U', "ser".toList, by decide⟩, forall_mem_of_all (by decide +kernel)⟩
  have hargument : IsArgument "x".toList := isArgument_singleton rfl (by decide)
  have hspace : ∀ c ∈ [' '], isBlank c = true := forall_mem_of_all rfl
  have hblanks : IsSeparator [' '] := .blanks (List.cons_ne_nil _ _) hspace
  have hequals : IsSeparator ([' '] ++ '=' :: [' ']) := .equals hspace hspace
  have huser : SameLine ([] ++ ("User".toList ++ ([' '] ++ "x".toList)) ++ [])
      ([] ++ ("User".toList ++ (([' '] ++ '=' :: [' ']) ++ "x".toList)) ++ []) :=
    .directive hkeyword hkeyword rfl hblanks hequals hargument nofun nofun
  exact .cons (.refl _) (.cons huser .nil)

/-- A block is kept when a line is spelled in another way. -/
theorem parseSshConfig_follows_iff_spelled :
    let home : Home := ⟨"/home/u".toList, id⟩
    (parseSshConfig home "Host a b\nUSER\tx".toList).entries =
      (parseSshConfig home "Host a b\n  User=x".toList).entries := by
  intro home
  have hkeyword : IsKeyword "USER".toList :=
    ⟨⟨'U', "SER".toList, by decide⟩, forall_mem_of_all (by decide +kernel)⟩
  have hkeyword' : IsKeyword "User".toList :=
    ⟨⟨'U', "ser".toList, by decide⟩, forall_mem_of_all (by decide +kernel)⟩
  have hargument : IsArgument "x".toList := isArgument_singleton rfl (by decide)
  have htab : IsSeparator [tab] := .blanks (List.cons_ne_nil _ _) (forall_mem_of_all rfl)
  have hequals : IsSeparator ([] ++ '=' :: []) := .equals nofun nofun
  have hindent : ∀ c ∈ "  ".toList ++ [], isSpace c = true := forall_mem_of_all (by decide +kernel)
  have huser : SameLine ("  ".toList ++ ("User".toList ++ (([] ++ '=' :: []) ++ "x".toList)) ++ [])
      ([] ++ ("USER".toList ++ ([tab] ++ "x".toList)) ++ []) :=
    .directive hkeyword' hkeyword (by decide) hequals htab hargument hindent nofun
  have hsame : SameDirectives "Host a b\n  User=x".toList "Host a b\nUSER\tx".toList :=
    .cons (.refl _) (.cons huser .nil)
  have hfollows : ∀ content, (parseSshConfig home content).entries =
      sshEntries home (readings content) → Follows home (readings content) :=
    fun content ↦ (parseSshConfig_follows_iff home content).1.mp
  exact (((parseSshConfig_follows_iff home _).2.2 _ hsame).2 (hfollows _ (by decide +kernel))).mpr
    (hfollows _ (by decide +kernel))

end Lasterm.Hub.SshConfig
