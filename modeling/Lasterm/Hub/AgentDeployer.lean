import Mathlib.Data.List.TakeWhile
import Lasterm.Library.Shell

/-!
# Deploying the agent to a remote host

Model of `deployAgentIfNeeded` and of the command that is built from its result. The path of the
agent is one text that four mechanisms read: the lookup that finds it, the command that hashes it,
SFTP, and the command that runs it. The commands are built as the source builds them and read by the
shells of `Library.Shell`.

A remote host is given by what its commands answer, by its files, and by the variables of its
`cmd.exe`. `os` is what the host runs: `cmd.exe` on Windows, a POSIX shell elsewhere. SFTP takes a
path literally. The digest is a parameter.

Uploads go to the literal path, and `cmd.exe` expands the path before it runs it, so that on Windows
the two are different files (`verified_iff`, `windows_runs_other_file`).
-/

namespace Lasterm.Hub

open Shell

inductive HostOs
  | windows
  | linux
  | darwin
  deriving DecidableEq

inductive HostArch
  | x64
  | arm64
  deriving DecidableEq

inductive DeployError
  | rejected
  | untrusted
  | notAvailable
  /-- An error that is no `DeployError`. -/
  | other
  deriving DecidableEq

/-- A remote host. The commands give their output, where they exit with 0. -/
structure RemoteHost (Content : Type) where
  which : Option Text
  whereIs : Option Text
  testExecutable : Text → Option Text
  ifExist : Text → Option Text
  /-- `detectRemoteOsArch`. -/
  detected : Option (HostOs × HostArch)
  /-- `echo $HOME`. -/
  home : Option Text
  /-- The variables of `cmd.exe`. -/
  env : Text → Option Text
  /-- The command that hashes files works. -/
  hashes : Bool
  files : Text → Option Content
  /-- SFTP can write a path. -/
  writable : Text → Bool

/-- A binary in the local cache. `readable` says that its hash can be computed. -/
structure LocalBinary (Content : Type) where
  content : Content
  readable : Bool

structure DeployOptions (Content : Type) where
  /-- `resolveLocalAgentBinary`. -/
  localBinary : HostOs → HostArch → Except DeployError (Option (LocalBinary Content))
  pinnedSha256 : Option String
  sessionTrustedSha256 : Option String
  /-- What the user answers when asked about a hash. There is no prompt in a reconnect. -/
  promptBinaryVerify : Option (String → String)

/-- The result, with the files of the host after it and what the callbacks were called with. -/
structure Deployment (Content : Type) where
  deployed : Bool
  remoteMatchesHubVersionCache : Bool
  remotePath : Text
  os : HostOs
  arch : HostArch
  files : Text → Option Content
  /-- `onAgentPinned`. -/
  pinned : Option String
  /-- `onAgentTrustOnce`. -/
  trustedOnce : Option String

inductive LogLevel
  | trace
  | debug
  | info
  | warn
  | error
  deriving DecidableEq

inductive LogFormat
  | jsonl
  | text
  deriving DecidableEq

structure LoggingConfig where
  logLevel : LogLevel
  logFormat : LogFormat

def LogLevel.name : LogLevel → Text
  | .trace => "trace".toList
  | .debug => "debug".toList
  | .info => "info".toList
  | .warn => "warn".toList
  | .error => "error".toList

def LogFormat.name : LogFormat → Text
  | .jsonl => "jsonl".toList
  | .text => "text".toList

namespace AgentDeployer

variable {Content : Type}

/-! ## Commands -/

/-- White space and line ends, as `String.prototype.trim` knows them. -/
def isSpace (c : Char) : Bool :=
  c.toNat ∈ [0x9, 0xA, 0xB, 0xC, 0xD, 0x20, 0xA0, 0x1680, 0x2028, 0x2029, 0x202F, 0x205F, 0x3000,
    0xFEFF]
    || (0x2000 ≤ c.toNat && c.toNat ≤ 0x200A)

def trim (t : Text) : Text := ((t.dropWhile isSpace).reverse.dropWhile isSpace).reverse

/-- A command that must print something. -/
def printed (t : Text) : Option Text := if trim t = [] then none else some (trim t)

def COMMON_AGENT_PATHS_UNIX : List Text :=
  ["$HOME/.local/bin/lasterm-agent".toList, "/usr/local/bin/lasterm-agent".toList,
    "/usr/bin/lasterm-agent".toList, "/opt/lasterm/lasterm-agent".toList]

def windowsAgentPath : Text := "%LOCALAPPDATA%\\lasterm\\lasterm-agent.exe".toList

def COMMON_AGENT_PATHS_WINDOWS : List Text :=
  [windowsAgentPath, "%ProgramFiles%\\lasterm\\lasterm-agent.exe".toList]

def checkRemoteAgent (r : RemoteHost Content) : Option Text :=
  (r.which.bind printed).orElse fun _ ↦
    (r.whereIs.bind fun stdout ↦ printed (stdout.takeWhile (· ≠ '\n'))).orElse fun _ ↦
      (COMMON_AGENT_PATHS_UNIX.findSome? fun rawPath ↦
        (r.testExecutable rawPath).bind printed).orElse
        fun _ ↦ COMMON_AGENT_PATHS_WINDOWS.find? fun rawPath ↦
          (r.ifExist rawPath).any fun stdout ↦ trim stdout = "ok".toList

def resolveRemoteHome (r : RemoteHost Content) : Text :=
  match r.home.bind printed with
  | some home => if home = "$HOME".toList then "~".toList else home
  | none => "~".toList

def resolveRemotePath (r : RemoteHost Content) : HostOs → Text
  | .windows => windowsAgentPath
  | .linux | .darwin => resolveRemoteHome r ++ "/.local/bin/lasterm-agent".toList

def quotePosixShellArg (value : Text) : Text :=
  if value ≠ [] ∧ value.all isPlain then value else singleQuote value

def escapeWindowsCmd (value : Text) : Text :=
  value.flatMap fun c ↦ if c = quotation then ['^', quotation] else [c]

def quoteWindowsCmdArg (value : Text) : Text := quotation :: escapeWindowsCmd value ++ [quotation]

def quoteRemoteShellArg (value : Text) : HostOs → Text
  | .windows => quoteWindowsCmdArg value
  | .linux | .darwin => quotePosixShellArg value

/-- What stands behind the path in the command. -/
def agentArgs (os : HostOs) (cfg : LoggingConfig) (includeLoggingArgs : Bool) : Text :=
  "--stdio".toList ++
    if includeLoggingArgs then
      " --log-level ".toList ++ quoteRemoteShellArg cfg.logLevel.name os ++ " --format ".toList ++
        quoteRemoteShellArg cfg.logFormat.name os
    else []

def buildAgentCommand (agentPath : Text) (os : HostOs) (cfg : LoggingConfig)
    (includeLoggingArgs : Bool) : Text :=
  quoteRemoteShellArg agentPath os ++ ' ' :: agentArgs os cfg includeLoggingArgs

def buildAgentCommandForDeployResult (d : Deployment Content) (cfg : LoggingConfig) : Text :=
  buildAgentCommand d.remotePath d.os cfg d.deployed

/-! ## What the commands refer to -/

def hashPrefix : Text := "powershell -c \"(Get-FileHash '".toList

def hashSuffix : Text := "' -Algorithm SHA256).Hash.ToLower()\"".toList

/-- The command of `getRemoteSha256` on Windows. -/
def hashCommand (remotePath : Text) : Text :=
  hashPrefix ++ (escapePowerShell remotePath ++ hashSuffix)

/-- The path that `Get-FileHash` is given: `cmd.exe` expands the line, and PowerShell reads the
literal. A quotation mark ends the command early. -/
def powerShellPath (env : Text → Option Text) (remotePath : Text) : Option Text :=
  if quotation ∈ expand env (escapePowerShell remotePath) then none
  else (readLiteral ((expand env (hashCommand remotePath)).drop hashPrefix.length)).map Prod.fst

/-- The path that `sha256sum` or `shasum` is given. A word that starts with `-` is an option, and
for a name with a backslash or a line end the output does not start with the hash. -/
def sumPath (remotePath : Text) : Option Text :=
  ((readWord .unquoted (singleQuote remotePath)).map Prod.fst).filter fun p ↦
    p.head? ≠ some '-' && !p.any fun c ↦ c = backslash || c = '\n'

def hashedPath (env : Text → Option Text) (remotePath : Text) : HostOs → Option Text
  | .windows => powerShellPath env remotePath
  | .linux | .darwin => sumPath remotePath

/-- The file that a command runs, or the name that the shell searches for. -/
inductive Executable
  | file (path : Text)
  | search (name : Text)
  deriving DecidableEq

/-- A plain word of the form `NAME=value` at the start of a command is an assignment. -/
def isAssignment (command : Text) : Bool :=
  let rest := command.dropWhile fun c ↦ c.isAlphanum || c = '_'
  rest.head? = some '=' && command.head?.any fun c ↦ !c.isDigit && c ≠ '='

def posixExecutable (command : Text) : Option Executable :=
  (readWord .unquoted command).bind fun (word, rest) ↦
    if isAssignment command then (readWord .unquoted rest).map fun w ↦ .search w.1
    else if '/' ∈ word then some (.file word)
    else some (.search word)

/-- `cmd.exe` expands the line and takes what is between the quotation marks. -/
def cmdExecutable (env : Text → Option Text) (command : Text) : Option Executable :=
  match expand env command with
  | [] => none
  | c :: cs =>
    if c = quotation then
      let word := cs.takeWhile (· ≠ quotation)
      some (if backslash ∈ word then .file word else .search word)
    else none

def executable (env : Text → Option Text) (command : Text) : HostOs → Option Executable
  | .windows => cmdExecutable env command
  | .linux | .darwin => posixExecutable command

/-! ## The deployment -/

variable (sha256 : Content → String)

def getRemoteSha256 (r : RemoteHost Content) (remotePath : Text) (os : HostOs) : Option String :=
  if r.hashes then ((hashedPath r.env remotePath os).bind r.files).map sha256 else none

def getLocalSha256 (b : LocalBinary Content) : Option String :=
  if b.readable then some (sha256 b.content) else none

/-- The truth value of an optional hash in the source. -/
def isSet (sha : Option String) : Bool := sha.any (· ≠ "")

def uploadAgentBinary (r : RemoteHost Content) (b : LocalBinary Content) (remotePath : Text) :
    Except DeployError (Text → Option Content) :=
  if r.writable remotePath then .ok fun p ↦ if p = remotePath then some b.content else r.files p
  else .error .other

/-- The OS and architecture of the record of the host, or what is detected. -/
def osArch (r : RemoteHost Content) (host : Option HostOs × Option HostArch) :
    Except DeployError (HostOs × HostArch) :=
  match host with
  | (some os, some arch) => .ok (os, arch)
  | _ =>
    match r.detected with
    | none => .error .other
    | some detected => .ok detected

/-- The TOFU flow, for an agent that was found and no binary in the cache. -/
def verifyFound (o : DeployOptions Content) (r : RemoteHost Content) (existingPath : Text)
    (os : HostOs)
    (arch : HostArch) (remoteSha : Option String) : Except DeployError (Deployment Content) :=
  let found (pinned trustedOnce : Option String) : Deployment Content :=
    ⟨false, false, existingPath, os, arch, r.files, pinned, trustedOnce⟩
  match remoteSha with
  | none => .error .untrusted
  | some sha =>
    if isSet o.sessionTrustedSha256 ∧ o.sessionTrustedSha256 = some sha then .ok (found none none)
    else if isSet o.pinnedSha256 ∧ o.pinnedSha256 = some sha then .ok (found none none)
    else
      match o.promptBinaryVerify with
      | none => .error .untrusted
      | some ask =>
        if ask sha = "trust_permanent" then .ok (found (some sha) none)
        else if ask sha = "trust_once" then .ok (found none (some sha))
        else .error .rejected

/-- Branch A: an agent was found. -/
def deployFound (o : DeployOptions Content) (r : RemoteHost Content)
    (host : Option HostOs × Option HostArch) (existingPath : Text) :
    Except DeployError (Deployment Content) := do
  let (os, arch) ← osArch r host
  let remoteSha := getRemoteSha256 sha256 r existingPath os
  match ← o.localBinary os arch with
  | some b =>
    if remoteSha ≠ none ∧ remoteSha = getLocalSha256 sha256 b then
      return ⟨false, true, existingPath, os, arch, r.files, none, none⟩
    let files ← uploadAgentBinary r b existingPath
    return ⟨true, false, existingPath, os, arch, files, getLocalSha256 sha256 b, none⟩
  | none => verifyFound o r existingPath os arch remoteSha

/-- Branch B: no agent was found. -/
def deployFresh (o : DeployOptions Content) (r : RemoteHost Content)
    (host : Option HostOs × Option HostArch) : Except DeployError (Deployment Content) := do
  let (os, arch) ← osArch r host
  match ← o.localBinary os arch with
  | none => throw .notAvailable
  | some b =>
    let remotePath := resolveRemotePath r os
    let files ← uploadAgentBinary r b remotePath
    return ⟨true, false, remotePath, os, arch, files, none, none⟩

def deployAgentIfNeeded (o : DeployOptions Content) (r : RemoteHost Content)
    (host : Option HostOs × Option HostArch) : Except DeployError (Deployment Content) :=
  match checkRemoteAgent r with
  | some existingPath => deployFound sha256 o r host existingPath
  | none => deployFresh o r host

/-! ## What is to be verified -/

/-- The file that was hashed, or that was uploaded. -/
def checkedPath (env : Text → Option Text) (d : Deployment Content) : Option Text :=
  if d.deployed then some d.remotePath else hashedPath env d.remotePath d.os

/-- A hash that counts: of the binary in the cache, pinned, trusted for this run of the hub, or just
approved by the user. -/
inductive Trusted (o : DeployOptions Content) (os : HostOs) (arch : HostArch) (sha : String) : Prop
  | cache (b : LocalBinary Content) (hb : o.localBinary os arch = .ok (some b))
      (hsha : sha = sha256 b.content)
  | pinned (h : o.pinnedSha256 = some sha)
  | session (h : o.sessionTrustedSha256 = some sha)
  | approved (ask : String → String) (hask : o.promptBinaryVerify = some ask)
      (h : ask sha = "trust_permanent" ∨ ask sha = "trust_once")

/-- The command runs the file that was checked, and its hash counts. -/
def Verified (o : DeployOptions Content) (env : Text → Option Text) (cfg : LoggingConfig)
    (d : Deployment Content) : Prop :=
  ∃ path c, executable env (buildAgentCommandForDeployResult d cfg) d.os = some (.file path) ∧
    checkedPath env d = some path ∧ d.files path = some c ∧
    Trusted sha256 o d.os d.arch (sha256 c)

/-- A pin is the hash of the binary that was uploaded from the cache, or of one that was approved
permanently. -/
def PinnedProperly (o : DeployOptions Content) (d : Deployment Content) : Prop :=
  ∀ sha, d.pinned = some sha →
    (d.deployed = true ∧ ∃ b, o.localBinary d.os d.arch = .ok (some b) ∧
      d.files d.remotePath = some b.content ∧ sha = sha256 b.content) ∨
    ∃ ask, o.promptBinaryVerify = some ask ∧ ask sha = "trust_permanent"

/-- What `cmd.exe` reads for a path that was quoted for it. -/
def cmdText (env : Text → Option Text) (remotePath : Text) : Text :=
  (expand env (escapeWindowsCmd remotePath)).takeWhile (· ≠ quotation)

/-- The command names the file that was checked. A POSIX shell must not take the path for a name to
search for, nor for an assignment. `cmd.exe` must read the path as it is where the binary was
uploaded, and as `Get-FileHash` was given it otherwise. -/
def ReadsAsChecked (env : Text → Option Text) (remotePath : Text) (uploaded : Bool) : HostOs → Prop
  | .windows => backslash ∈ cmdText env remotePath ∧
      if uploaded then cmdText env remotePath = remotePath
      else powerShellPath env remotePath = some (cmdText env remotePath)
  | .linux | .darwin => '/' ∈ remotePath ∧ isAssignment (quotePosixShellArg remotePath) = false

/-- Where the agent is, or goes. -/
def agentPath (r : RemoteHost Content) (os : HostOs) : Text :=
  (checkRemoteAgent r).getD (resolveRemotePath r os)

/-- There is a binary in the cache, and no agent with its hash on the host. -/
def uploads (o : DeployOptions Content) (r : RemoteHost Content) (os : HostOs)
    (arch : HostArch) : Bool :=
  match o.localBinary os arch with
  | .ok (some b) => !(checkRemoteAgent r).any fun existingPath ↦
      decide (getRemoteSha256 sha256 r existingPath os ≠ none ∧
        getRemoteSha256 sha256 r existingPath os = getLocalSha256 sha256 b)
  | _ => false

/-- The condition on a host under which the binary that is checked is the one that runs. -/
def Consistent (o : DeployOptions Content) (r : RemoteHost Content)
    (host : Option HostOs × Option HostArch) : Prop :=
  ∀ os arch, osArch r host = .ok (os, arch) →
    ReadsAsChecked r.env (agentPath r os) (uploads sha256 o r os arch) os

/-! ## How the commands are read -/

variable {env : Text → Option Text} {p args : Text}

theorem readWord_quotePosixShellArg (p args : Text) :
    readWord .unquoted (quotePosixShellArg p ++ ' ' :: args) = some (p, args) := by
  have hrest : readWord .unquoted (' ' :: args) = some ([], args) := rfl
  rw [quotePosixShellArg]
  split
  · rename_i hplain
    exact readWord_plain (List.all_eq_true.mp hplain.2) hrest
  · exact readWord_singleQuote p hrest

theorem quotePosixShellArg_ne_nil (p : Text) : quotePosixShellArg p ≠ [] := by
  rw [quotePosixShellArg]
  split
  · rename_i hplain
    exact hplain.1
  · exact List.cons_ne_nil _ _

/-- Whether a command starts with an assignment is seen from its first word. -/
theorem isAssignment_append {word : Text} (hword : word ≠ []) :
    isAssignment (word ++ ' ' :: args) = isAssignment word := by
  have hhead : (word ++ ' ' :: args).head? = word.head? := by
    obtain ⟨c, cs, rfl⟩ := List.exists_cons_of_ne_nil hword
    rfl
  have hdrop : ((word ++ ' ' :: args).dropWhile fun c ↦ c.isAlphanum || c = '_').head? = some '=' ↔
      (word.dropWhile fun c ↦ c.isAlphanum || c = '_').head? = some '=' := by
    rw [List.dropWhile_append]
    split
    · rename_i hempty
      rw [List.isEmpty_iff] at hempty
      rw [hempty]
      simp
    · rename_i hnot
      have hne : (word.dropWhile fun c ↦ c.isAlphanum || c = '_') ≠ [] :=
        fun hnil ↦ hnot (List.isEmpty_iff.mpr hnil)
      rw [List.head?_append_of_ne_nil _ hne]
  simp only [isAssignment, hhead, hdrop]

theorem posixExecutable_eq (p args path : Text) :
    posixExecutable (quotePosixShellArg p ++ ' ' :: args) = some (.file path) ↔
      path = p ∧ '/' ∈ p ∧ isAssignment (quotePosixShellArg p) = false := by
  rw [posixExecutable, readWord_quotePosixShellArg, Option.bind_some,
    isAssignment_append (quotePosixShellArg_ne_nil p)]
  rcases hassign : isAssignment (quotePosixShellArg p) with _ | _
  · by_cases hslash : '/' ∈ p
    · simp [hslash, eq_comm]
    · simp [hslash]
  · rcases hread : readWord .unquoted args with _ | w <;> simp

theorem cmdExecutable_eq (hargs : '%' ∉ args) (p : Text) :
    cmdExecutable env (quoteWindowsCmdArg p ++ ' ' :: args) =
      some (if backslash ∈ cmdText env p then .file (cmdText env p)
        else .search (cmdText env p)) := by
  have hsuffix : '%' ∉ quotation :: ' ' :: args := by
    simp only [List.mem_cons, not_or]
    exact ⟨by decide, by decide, hargs⟩
  have hexpand : expand env (quoteWindowsCmdArg p ++ ' ' :: args) =
      quotation :: (expand env (escapeWindowsCmd p) ++ quotation :: ' ' :: args) := by
    have hline : quoteWindowsCmdArg p ++ ' ' :: args =
        [quotation] ++ (escapeWindowsCmd p ++ quotation :: ' ' :: args) := by
      simp [quoteWindowsCmdArg]
    rw [hline, expand_append (by decide) hsuffix]
    rfl
  have hword : (expand env (escapeWindowsCmd p) ++ quotation :: ' ' :: args).takeWhile
      (· ≠ quotation) = cmdText env p := by
    rw [List.takeWhile_append]
    split
    · rename_i hlength
      rw [cmdText, (List.takeWhile_prefix _).eq_of_length hlength]
      simp
    · rfl
  rw [cmdExecutable, hexpand]
  simp only [if_true, hword]

theorem percent_not_mem_agentArgs (cfg : LoggingConfig) (includeLoggingArgs : Bool) :
    '%' ∉ agentArgs .windows cfg includeLoggingArgs := by
  obtain ⟨level, format⟩ := cfg
  rcases includeLoggingArgs <;> rcases level <;> rcases format <;> decide

theorem sumPath_eq_some {path : Text} (h : sumPath p = some path) : path = p := by
  have hread : readWord .unquoted (singleQuote p) = some (p, []) := by
    have hword : readWord .unquoted (singleQuote p ++ []) = some (p, []) :=
      readWord_singleQuote p rfl
    rwa [List.append_nil] at hword
  rw [sumPath, hread, Option.filter_eq_some_iff] at h
  exact (Option.some.inj h.1).symm

theorem powerShellPath_of_not_mem (hpercent : '%' ∉ p) (hquotation : quotation ∉ p) :
    powerShellPath env p = some p := by
  have hescaped : ∀ c, c ≠ apostrophe → c ∉ p → c ∉ escapePowerShell p := by
    intro c hc hnot hmem
    obtain ⟨d, hd, hmem⟩ := List.mem_flatMap.mp hmem
    split at hmem
    · exact hc (by simpa using hmem)
    · rw [List.mem_singleton] at hmem
      exact hnot (hmem ▸ hd)
  have hline : (expand env (hashCommand p)).drop hashPrefix.length =
      expand env (escapePowerShell p) ++ hashSuffix := by
    rw [hashCommand, expand_append (by decide) (by decide), List.drop_left]
  rw [powerShellPath, hline, expand_of_not_mem (hescaped _ (by decide) hpercent),
    if_neg (hescaped _ (by decide) hquotation),
    show hashSuffix = apostrophe :: ' ' :: hashSuffix.drop 2 from rfl,
    readLiteral_escapePowerShell p (by decide)]
  rfl

theorem escapeWindowsCmd_of_not_mem (h : quotation ∉ p) : escapeWindowsCmd p = p := by
  have hid : ∀ c ∈ p, (if c = quotation then ['^', quotation] else [c]) = [c] :=
    fun c hc ↦ if_neg (ne_of_mem_of_not_mem hc h)
  rw [escapeWindowsCmd, List.flatMap_congr hid, List.flatMap_singleton']

theorem cmdText_of_not_mem (hpercent : '%' ∉ p) (hquotation : quotation ∉ p) :
    cmdText env p = p := by
  rw [cmdText, escapeWindowsCmd_of_not_mem hquotation, expand_of_not_mem hpercent,
    List.takeWhile_eq_self_iff]
  intro c hc
  exact decide_eq_true (ne_of_mem_of_not_mem hc hquotation)

/-- A path on Windows without `%` and quotation marks names one file for all of them. PowerShell
also ends a literal at a typographic quote (U+2018 to U+201B): for a path with one of these,
`powerShellPath` is an assumption. -/
theorem readsAsChecked_of_not_mem (hslash : backslash ∈ p) (hpercent : '%' ∉ p)
    (hquotation : quotation ∉ p) (uploaded : Bool) : ReadsAsChecked env p uploaded .windows := by
  rw [ReadsAsChecked, cmdText_of_not_mem hpercent hquotation]
  refine ⟨hslash, ?_⟩
  split
  · rfl
  · exact powerShellPath_of_not_mem hpercent hquotation

theorem readsAsChecked_of_not_mem_data :
    ReadsAsChecked (fun name ↦ if name = "LOCALAPPDATA".toList then some "D:".toList else none)
      ('C' :: ':' :: backslash :: "it's".toList) false .windows :=
  readsAsChecked_of_not_mem (by decide) (by decide) (by decide) false

/-- The file that the command runs. -/
theorem executable_eq (os : HostOs) (d : Deployment Content) (cfg : LoggingConfig) (path : Text) :
    executable env (buildAgentCommand d.remotePath os cfg d.deployed) os = some (.file path) ↔
      match os with
      | .windows => backslash ∈ cmdText env d.remotePath ∧ path = cmdText env d.remotePath
      | .linux | .darwin => path = d.remotePath ∧ '/' ∈ d.remotePath ∧
          isAssignment (quotePosixShellArg d.remotePath) = false := by
  rw [buildAgentCommand]
  rcases os with _ | _ | _
  · rw [executable, quoteRemoteShellArg,
      cmdExecutable_eq (percent_not_mem_agentArgs cfg d.deployed) d.remotePath]
    by_cases hslash : backslash ∈ cmdText env d.remotePath
    · simp [hslash, eq_comm]
    · simp [hslash]
  · exact posixExecutable_eq d.remotePath _ path
  · exact posixExecutable_eq d.remotePath _ path

/-! ## The result of a deployment -/

/-- What is known when `deployAgentIfNeeded` returns. -/
inductive Checked (o : DeployOptions Content) (r : RemoteHost Content) (d : Deployment Content) :
    Prop
  | uploaded (b : LocalBinary Content) (hdeployed : d.deployed = true)
      (hb : o.localBinary d.os d.arch = .ok (some b))
      (hfile : d.files d.remotePath = some b.content)
      (hpinned : ∀ sha, d.pinned = some sha → sha = sha256 b.content)
  | hashed (sha : String) (hdeployed : d.deployed = false) (hfiles : d.files = r.files)
      (hsha : getRemoteSha256 sha256 r d.remotePath d.os = some sha)
      (htrusted : Trusted sha256 o d.os d.arch sha)
      (hpinned : ∀ sha, d.pinned = some sha →
        ∃ ask, o.promptBinaryVerify = some ask ∧ ask sha = "trust_permanent")

variable {sha256} {o : DeployOptions Content} {r : RemoteHost Content} {d : Deployment Content}
  {host : Option HostOs × Option HostArch}

theorem files_of_uploadAgentBinary {b : LocalBinary Content} {files : Text → Option Content}
    (h : uploadAgentBinary r b p = .ok files) : files p = some b.content := by
  rw [uploadAgentBinary] at h
  split at h
  · cases h
    exact if_pos rfl
  · cases h

theorem getLocalSha256_eq_some {b : LocalBinary Content} {sha : String}
    (h : getLocalSha256 sha256 b = some sha) : sha = sha256 b.content := by
  rw [getLocalSha256] at h
  split at h
  · exact (Option.some.inj h).symm
  · cases h

theorem verifyFound_spec {os : HostOs} {arch : HostArch}
    (h : verifyFound o r p os arch (getRemoteSha256 sha256 r p os) = .ok d) :
    Checked sha256 o r d := by
  unfold verifyFound at h
  split at h
  · cases h
  · rename_i sha hsha
    split at h
    · rename_i hsession
      cases h
      exact .hashed sha rfl rfl hsha (.session hsession.2) nofun
    · split at h
      · rename_i hpinned
        cases h
        exact .hashed sha rfl rfl hsha (.pinned hpinned.2) nofun
      · split at h
        · cases h
        · rename_i ask hask
          split at h
          · rename_i hpermanent
            cases h
            refine .hashed sha rfl rfl hsha (.approved ask hask (.inl hpermanent)) ?_
            intro sha' hsha'
            cases hsha'
            exact ⟨ask, hask, hpermanent⟩
          · split at h
            · rename_i honce
              cases h
              exact .hashed sha rfl rfl hsha (.approved ask hask (.inr honce)) nofun
            · cases h

/-- A step that throws ends what it is a step of. -/
theorem bind_eq_ok {ε α β : Type} {x : Except ε α} {f : α → Except ε β} {y : β} :
    x >>= f = .ok y ↔ ∃ a, x = .ok a ∧ f a = .ok y := by
  rcases x with e | a
  · constructor
    · intro h
      cases h
    · rintro ⟨a, ha, -⟩
      cases ha
  · constructor
    · intro h
      exact ⟨a, rfl, h⟩
    · rintro ⟨a', ha', h⟩
      cases ha'
      exact h

theorem deployFound_spec (h : deployFound sha256 o r host p = .ok d) : Checked sha256 o r d := by
  obtain ⟨⟨os, arch⟩, -, h⟩ := bind_eq_ok.mp h
  obtain ⟨cached, hcached, h⟩ := bind_eq_ok.mp h
  rcases cached with _ | b
  · exact verifyFound_spec h
  · dsimp only at h
    split at h
    · rename_i hsame
      obtain ⟨sha, hsha⟩ := Option.ne_none_iff_exists'.mp hsame.1
      cases h
      refine .hashed sha rfl rfl hsha (.cache b hcached ?_) nofun
      exact getLocalSha256_eq_some (hsame.2.symm.trans hsha)
    · obtain ⟨files, hfiles, h⟩ := bind_eq_ok.mp h
      cases h
      exact .uploaded b rfl hcached (files_of_uploadAgentBinary hfiles)
        fun sha hsha ↦ getLocalSha256_eq_some hsha

theorem deployFresh_spec (h : deployFresh o r host = .ok d) : Checked sha256 o r d := by
  obtain ⟨⟨os, arch⟩, -, h⟩ := bind_eq_ok.mp h
  obtain ⟨cached, hcached, h⟩ := bind_eq_ok.mp h
  rcases cached with _ | b
  · cases h
  · obtain ⟨files, hfiles, h⟩ := bind_eq_ok.mp h
    cases h
    exact .uploaded b rfl hcached (files_of_uploadAgentBinary hfiles) nofun

theorem deployAgentIfNeeded_spec (h : deployAgentIfNeeded sha256 o r host = .ok d) :
    Checked sha256 o r d := by
  rw [deployAgentIfNeeded] at h
  split at h
  · exact deployFound_spec h
  · exact deployFresh_spec h

/-- What the result says is known before the deployment. -/
structure Foreseen (sha256 : Content → String) (o : DeployOptions Content) (r : RemoteHost Content)
    (host : Option HostOs × Option HostArch) (d : Deployment Content) : Prop where
  target : osArch r host = .ok (d.os, d.arch)
  path : agentPath r d.os = d.remotePath
  upload : uploads sha256 o r d.os d.arch = d.deployed

/-- The TOFU flow leaves the host as it is. -/
theorem verifyFound_result {os : HostOs} {arch : HostArch} {remoteSha : Option String}
    (h : verifyFound o r p os arch remoteSha = .ok d) :
    d.os = os ∧ d.arch = arch ∧ d.remotePath = p ∧ d.deployed = false := by
  unfold verifyFound at h
  repeat' split at h
  all_goals cases h
  all_goals exact ⟨rfl, rfl, rfl, rfl⟩

theorem deployAgentIfNeeded_foreseen (h : deployAgentIfNeeded sha256 o r host = .ok d) :
    Foreseen sha256 o r host d := by
  rw [deployAgentIfNeeded] at h
  split at h
  · rename_i existingPath hfound
    have hpath : ∀ os, agentPath r os = existingPath := fun os ↦ by rw [agentPath, hfound]; rfl
    obtain ⟨⟨os, arch⟩, htarget, h⟩ := bind_eq_ok.mp h
    obtain ⟨cached, hcached, h⟩ := bind_eq_ok.mp h
    rcases cached with _ | b
    · obtain ⟨rfl, rfl, rfl, hdeployed⟩ := verifyFound_result h
      exact ⟨htarget, hpath _, by rw [uploads, hcached, hdeployed]⟩
    · dsimp only at h
      split at h
      · rename_i hsame
        cases h
        exact ⟨htarget, hpath _, by rw [uploads, hcached, hfound]; simpa using hsame⟩
      · rename_i hother
        obtain ⟨files, -, h⟩ := bind_eq_ok.mp h
        cases h
        exact ⟨htarget, hpath _, by
          rw [uploads, hcached, hfound]
          simpa [or_iff_not_imp_left] using hother⟩
  · rename_i hnone
    obtain ⟨⟨os, arch⟩, htarget, h⟩ := bind_eq_ok.mp h
    obtain ⟨cached, hcached, h⟩ := bind_eq_ok.mp h
    rcases cached with _ | b
    · cases h
    · obtain ⟨files, -, h⟩ := bind_eq_ok.mp h
      cases h
      refine ⟨htarget, ?_, ?_⟩
      · rw [agentPath, hnone]
        rfl
      · rw [uploads, hcached, hnone]
        rfl

theorem Foreseen.consistent_iff (hd : Foreseen sha256 o r host d) :
    Consistent sha256 o r host ↔ ReadsAsChecked r.env d.remotePath d.deployed d.os := by
  rw [← hd.upload, ← hd.path]
  constructor
  · intro h
    exact h d.os d.arch hd.target
  · intro h os arch htarget
    obtain ⟨rfl, rfl⟩ := Prod.mk.inj (Except.ok.inj (hd.target.symm.trans htarget))
    exact h

/-- A hash is that of the file that the hashing command was given. -/
theorem hashedPath_of_sha {os : HostOs} {sha : String}
    (h : getRemoteSha256 sha256 r p os = some sha) :
    ∃ path, hashedPath r.env p os = some path ∧ ∃ c, r.files path = some c ∧ sha = sha256 c := by
  rw [getRemoteSha256] at h
  split at h
  · obtain ⟨c, hc, rfl⟩ := Option.map_eq_some_iff.mp h
    obtain ⟨path, hpath, hfile⟩ := Option.bind_eq_some_iff.mp hc
    exact ⟨path, hpath, c, hfile, rfl⟩
  · cases h

theorem Checked.pinnedProperly (hd : Checked sha256 o r d) : PinnedProperly sha256 o d := by
  intro sha hsha
  rcases hd with ⟨b, hdeployed, hb, hfile, hpinned⟩ | ⟨-, -, -, -, -, hpinned⟩
  · exact .inl ⟨hdeployed, b, hb, hfile, hpinned sha hsha⟩
  · exact .inr (hpinned sha hsha)

/-- The file that was checked has a hash that counts. -/
theorem Checked.trusted {path : Text} (hd : Checked sha256 o r d)
    (hchecked : checkedPath r.env d = some path) :
    ∃ c, d.files path = some c ∧ Trusted sha256 o d.os d.arch (sha256 c) := by
  rw [checkedPath] at hchecked
  rcases hd with ⟨b, hdeployed, hb, hfile, -⟩ | ⟨sha, hdeployed, hfiles, hsha, htrusted, -⟩
  · rw [if_pos hdeployed] at hchecked
    cases hchecked
    exact ⟨b.content, hfile, .cache b hb rfl⟩
  · rw [if_neg (by simp [hdeployed])] at hchecked
    obtain ⟨path', hpath', c, hfile, rfl⟩ := hashedPath_of_sha hsha
    cases hpath'.symm.trans hchecked
    exact ⟨c, by rw [hfiles]; exact hfile, htrusted⟩

/-- The check and the command agree on the path if and only if it is read as it was checked. -/
theorem runs_checked_iff (hd : Checked sha256 o r d) (cfg : LoggingConfig) :
    (∃ path, executable r.env (buildAgentCommandForDeployResult d cfg) d.os = some (.file path) ∧
      checkedPath r.env d = some path) ↔ ReadsAsChecked r.env d.remotePath d.deployed d.os := by
  have hposix (hos : d.os ≠ .windows) : checkedPath r.env d = some d.remotePath := by
    rcases hd with ⟨b, hdeployed, -, -, -⟩ | ⟨sha, hdeployed, -, hsha, -, -⟩
    · rw [checkedPath, if_pos hdeployed]
    · -- The hash has been computed: the command was given a path, and it is the literal one.
      rw [checkedPath, if_neg (by simp [hdeployed])]
      obtain ⟨path, hpath, -⟩ := hashedPath_of_sha hsha
      have hsum : hashedPath r.env d.remotePath d.os = sumPath d.remotePath := by
        rcases hcase : d.os with _ | _ | _
        · exact absurd hcase hos
        · rfl
        · rfl
      rw [hpath, sumPath_eq_some (hsum.symm.trans hpath)]
  rw [buildAgentCommandForDeployResult]
  rcases hos : d.os with _ | _ | _
  · simp only [executable_eq, checkedPath, ReadsAsChecked, hos]
    rcases d.deployed with _ | _
    · constructor
      · rintro ⟨path, ⟨hslash, rfl⟩, hchecked⟩
        exact ⟨hslash, hchecked⟩
      · rintro ⟨hslash, hread⟩
        exact ⟨_, ⟨hslash, rfl⟩, hread⟩
    · constructor
      · rintro ⟨path, ⟨hslash, rfl⟩, hchecked⟩
        exact ⟨hslash, (Option.some.inj hchecked).symm⟩
      · rintro ⟨hslash, hread⟩
        exact ⟨_, ⟨hslash, rfl⟩, congrArg some hread.symm⟩
  all_goals
    simp only [executable_eq, hposix (by rw [hos]; decide), ReadsAsChecked]
    constructor
    · rintro ⟨path, ⟨-, hread⟩, -⟩
      exact hread
    · intro hread
      exact ⟨d.remotePath, ⟨rfl, hread⟩, rfl⟩

/-- **The binary that runs is the one that was checked** if and only if the command reads the path
as the check does, and a pin is the hash of an uploaded binary or of one that was approved
permanently. -/
theorem verified_iff (h : deployAgentIfNeeded sha256 o r host = .ok d) (cfg : LoggingConfig) :
    PinnedProperly sha256 o d ∧ (Verified sha256 o r.env cfg d ↔ Consistent sha256 o r host) := by
  have hd : Checked sha256 o r d := deployAgentIfNeeded_spec h
  constructor
  · exact hd.pinnedProperly
  · rw [(deployAgentIfNeeded_foreseen h).consistent_iff, ← runs_checked_iff hd cfg]
    constructor
    · rintro ⟨path, c, hrun, hchecked, -, -⟩
      exact ⟨path, hrun, hchecked⟩
    · rintro ⟨path, hrun, hchecked⟩
      obtain ⟨c, hfile, htrusted⟩ := hd.trusted hchecked
      exact ⟨path, c, hrun, hchecked, hfile, htrusted⟩

/-- The agent of a Linux host is found and has the hash that is pinned. -/
theorem verified_iff_pinned :
    let path : Text := "/usr/bin/lasterm-agent".toList
    let o : DeployOptions String := ⟨fun _ _ ↦ .ok none, some "a7", none, none⟩
    let r : RemoteHost String :=
      ⟨some path, none, fun _ ↦ none, fun _ ↦ none, none, none, fun _ ↦ none,
      true, fun p ↦ if p = path then some "a7" else none, fun _ ↦ false⟩
    let d : Deployment String := ⟨false, false, path, .linux, .x64, r.files, none, none⟩
    deployAgentIfNeeded id o r (some .linux, some .x64) = .ok d ∧ PinnedProperly id o d ∧
      (Verified id o r.env ⟨.info, .jsonl⟩ d ↔ Consistent id o r (some .linux, some .x64)) := by
  intro path o r d
  have hfound : checkRemoteAgent r = some path := by decide
  have hsha : getRemoteSha256 id r path .linux = some "a7" := by decide
  have hdeploy : deployAgentIfNeeded id o r (some .linux, some .x64) = .ok d := by
    rw [deployAgentIfNeeded, hfound]
    change verifyFound o r path .linux .x64 (getRemoteSha256 id r path .linux) = _
    rw [hsha]
    rfl
  exact ⟨hdeploy, verified_iff hdeploy ⟨.info, .jsonl⟩⟩

/-- The user directory of a Windows host, as its `cmd.exe` has it. -/
def windowsEnv (name : Text) : Option Text :=
  if name = "LOCALAPPDATA".toList then some "C:\\Users\\ada\\AppData\\Local".toList else none

/-- A Windows host without an agent. The binary is uploaded to a file whose name starts with
`%LOCALAPPDATA%`, and the command runs a file in the user directory, which there is not. -/
theorem windows_runs_other_file :
    let o : DeployOptions String := ⟨fun _ _ ↦ .ok (some ⟨"a7", true⟩), none, none, none⟩
    let r : RemoteHost String :=
      ⟨none, none, fun _ ↦ none, fun _ ↦ none, some (.windows, .x64), none,
      windowsEnv, true, fun _ ↦ none, fun _ ↦ true⟩
    let run : Text := "C:\\Users\\ada\\AppData\\Local\\lasterm\\lasterm-agent.exe".toList
    ∃ d, deployAgentIfNeeded id o r (none, none) = .ok d ∧ d.files windowsAgentPath = some "a7" ∧
      executable r.env (buildAgentCommandForDeployResult d ⟨.info, .jsonl⟩) d.os =
        some (.file run) ∧
      d.files run = none ∧ ¬ Verified id o r.env ⟨.info, .jsonl⟩ d := by
  intro o r run
  refine ⟨_, rfl, rfl, by decide, by decide, ?_⟩
  rintro ⟨path, c, hrun, hchecked, hfile, -⟩
  have hpath : path = windowsAgentPath := (Option.some.inj hchecked).symm
  rw [hpath] at hrun
  revert hrun
  decide

end AgentDeployer

end Lasterm.Hub
