import Lasterm.Hub.Dispatch

/-!
# What the hub asks an agent to run

The SPAWN messages of the hub, and where their fields come from. `handleSpawn` resolves a request
with its launch profile, the first profile of the host and the configuration (`resolve`). What it
has resolved is stored twice: in the row of the channel and in its state in memory. Every later
SPAWN for the channel is built from one of these.

`Settings` is what a channel runs: a message without its size, with the defaults of the fields that
it leaves out. No default is documented for the shell and the directory, which the agent chooses.
-/

namespace Lasterm.Hub.Respawns

inductive EnvMode
  | minimal
  | inherit
  deriving DecidableEq

inductive ElevationMethod
  | sudo
  | doas
  | pkexec
  | gsudo
  | custom
  deriving DecidableEq

abbrev Env := OrderedMap String String

/-- `{ ...env, ...env' }`. -/
def Env.spread (env env' : Env) : Env := env'.entries.foldl (fun t e ↦ t.set e.1 e.2) env

/-- `UiSpawnMessage`. -/
structure UiSpawn where
  shell : Option String
  args : Option (List String)
  cwd : Option String
  env : Option Env
  cols : Option ℕ
  rows : Option ℕ
  directProcess : Option Bool
  elevated : Option Bool

structure LaunchProfile where
  shell : String
  args : Option (List String)
  cwd : Option String
  env : Option Env
  /-- `mode === "process"`. -/
  process : Bool
  elevated : Bool

/-- What `handleSpawn` finds out about the host and the request. -/
structure SpawnContext where
  /-- The profile that the request names. -/
  profile : Option LaunchProfile
  firstProfile : Option LaunchProfile
  ssh : Bool
  /-- The agent has the capability "launch-profiles". -/
  launchProfiles : Bool
  envMode : Option EnvMode
  elevationMethod : ElevationMethod
  /-- `resolveCustomCommand`. -/
  customCommand : Option String

/-- `AgentSpawnMessage`. Empty `args` and a `directProcess` or an `elevated` that is false are left
out of the message. -/
structure AgentSpawn where
  shell : Option String
  args : List String
  cwd : Option String
  env : Env
  cols : ℕ
  rows : ℕ
  directProcess : Bool
  envMode : Option EnvMode
  elevated : Bool
  elevationMethod : Option ElevationMethod
  customCommand : Option String
  elevationSecret : Option String

structure Settings where
  shell : Option String
  args : List String
  cwd : Option String
  env : Env
  envMode : EnvMode
  directProcess : Bool
  /-- The method, with the custom command. -/
  elevation : Option (ElevationMethod × Option String)

def AgentSpawn.settings (msg : AgentSpawn) : Settings where
  shell := msg.shell
  args := msg.args
  cwd := msg.cwd
  env := msg.env
  envMode := msg.envMode.getD .inherit
  directProcess := msg.directProcess
  elevation :=
    if msg.elevated then msg.elevationMethod.map fun method ↦ (method, msg.customCommand) else none

/-! ## The first SPAWN -/

/-- The variables of `handleSpawn`. -/
structure Resolved where
  shell : Option String
  args : List String
  cwd : Option String
  env : Env
  directProcess : Bool
  elevated : Bool

/-- Launch profile resolution. -/
def resolveProfile (msg : UiSpawn) : Option LaunchProfile → Resolved
  | none =>
    { shell := msg.shell
      args := msg.args.getD []
      cwd := msg.cwd
      env := msg.env.getD .empty
      directProcess := msg.directProcess.getD false
      elevated := msg.elevated.getD false }
  | some profile =>
    { shell := some (msg.shell.getD profile.shell)
      args := msg.args.getD (profile.args.getD [])
      cwd := msg.cwd.orElse fun _ ↦ profile.cwd
      env := Env.spread (profile.env.getD .empty) (msg.env.getD .empty)
      directProcess := msg.directProcess.getD profile.process
      elevated := msg.elevated.getD profile.elevated }

/-- First-profile fallback. -/
def Resolved.fallback (r : Resolved) : Option LaunchProfile → Resolved
  | none => r
  | some profile =>
    if r.shell.isSome then r
    else
      { r with
        shell := some profile.shell
        args := if r.args.isEmpty then profile.args.getD r.args else r.args
        env := if r.env.entries.isEmpty then profile.env.getD r.env else r.env }

def resolve (msg : UiSpawn) (c : SpawnContext) : Resolved :=
  let r := (resolveProfile msg c.profile).fallback c.firstProfile
  { r with elevated := r.elevated && !c.ssh && c.launchProfiles }

/-- `_resolveElevationConfig`; the outer `none` is its `validationError`. `validate` stands for
`validateCustomCommand`. -/
def resolveElevationConfig (validate : String → Bool) (customCommand : Option String)
    (method : ElevationMethod) : Option (Option String) :=
  match if method = .custom then customCommand else none with
  | none => some none
  | some command => if validate command then some (some command) else none

/-- A SPAWN that waits for its answer, with what is stored then. -/
structure FirstSpawn where
  resolved : Resolved
  cols : ℕ
  rows : ℕ
  envMode : EnvMode
  /-- The method and the custom command of an elevated spawn. -/
  elevation : Option (ElevationMethod × Option String)

/-- What `handleSpawn` sends, if it sends. -/
def firstSpawn (validate : String → Bool) (msg : UiSpawn) (c : SpawnContext) :
    Option FirstSpawn :=
  let base : FirstSpawn :=
    ⟨resolve msg c, msg.cols.getD 80, msg.rows.getD 24, c.envMode.getD .inherit, none⟩
  if (resolve msg c).elevated then
    (resolveElevationConfig validate c.customCommand c.elevationMethod).map fun customCommand ↦
      { base with elevation := some (c.elevationMethod, customCommand) }
  else some base

/-- The message, with the password if there is one. -/
def FirstSpawn.message (f : FirstSpawn) (secret : Option String) : AgentSpawn where
  shell := f.resolved.shell
  args := f.resolved.args
  cwd := f.resolved.cwd
  env := f.resolved.env
  cols := f.cols
  rows := f.rows
  directProcess := f.resolved.directProcess
  envMode := some f.envMode
  elevated := f.elevation.isSome
  elevationMethod := f.elevation.map Prod.fst
  customCommand := f.elevation.bind Prod.snd
  elevationSecret := secret

/-! ## What is stored -/

/-- The variables of the environment that the hub itself has. -/
structure ProcessEnv where
  shell : Option String
  home : Option String
  userProfile : Option String

/-- The row of a channel. The host is that of its session. -/
structure ChannelRow where
  hostId : String
  status : ChannelStatus
  shell : String
  args : List String
  cwd : Option String
  cols : ℕ
  rows : ℕ
  directProcess : Bool
  elevated : Bool
  elevationMethod : Option ElevationMethod

structure ChannelState where
  hostId : String
  status : ChannelStatus
  shell : String
  args : List String
  cwd : Option String
  cols : ℕ
  rows : ℕ
  directProcess : Bool

/-- `createChannel` in `sendSpawnAndWait`, and the status that follows. -/
def FirstSpawn.row (f : FirstSpawn) (hostId : String) : ChannelRow where
  hostId := hostId
  status := .live
  shell := f.resolved.shell.getD "/bin/sh"
  args := f.resolved.args
  cwd := f.resolved.cwd
  cols := f.cols
  rows := f.rows
  directProcess := f.resolved.directProcess
  elevated := f.elevation.isSome
  elevationMethod := f.elevation.map Prod.fst

def FirstSpawn.state (f : FirstSpawn) (env : ProcessEnv) (hostId : String) : ChannelState where
  hostId := hostId
  status := .live
  shell := f.resolved.shell.getD (env.shell.getD "/bin/sh")
  args := f.resolved.args
  cwd := f.resolved.cwd
  cols := f.cols
  rows := f.rows
  directProcess := f.resolved.directProcess

/-- What `startup` puts into memory. -/
def ChannelRow.restored (row : ChannelRow) : ChannelState where
  hostId := row.hostId
  status := .orphan
  shell := row.shell
  args := row.args
  cwd := row.cwd
  cols := row.cols
  rows := row.rows
  directProcess := row.directProcess

/-- `cwd` in `restartChannel` and `respawnDeadChannel`. -/
def ChannelRow.startsIn (row : ChannelRow) (env : ProcessEnv) : String :=
  row.cwd.getD (env.home.getD "/")

/-- What `applyRestartState` and `respawnDeadChannel` put into memory. -/
def ChannelRow.respawned (row : ChannelRow) (env : ProcessEnv) : ChannelState where
  hostId := row.hostId
  status := .live
  shell := row.shell
  args := row.args
  cwd := some (row.startsIn env)
  cols := row.cols
  rows := row.rows
  directProcess := row.directProcess

/-- The row that `applyRestartState` creates for another id. -/
def ChannelRow.moved (row : ChannelRow) (env : ProcessEnv) : ChannelRow :=
  { row with cwd := some (row.startsIn env), status := .live }

/-! ## The SPAWNs that are sent again -/

/-- The message of `respawnDeadChannel`, and of a restart that is not elevated. -/
def ChannelRow.respawn (row : ChannelRow) (env : ProcessEnv) : AgentSpawn where
  shell := some row.shell
  args := row.args
  cwd := some (row.startsIn env)
  env := .empty
  cols := row.cols
  rows := row.rows
  directProcess := false
  envMode := none
  elevated := false
  elevationMethod := none
  customCommand := none
  elevationSecret := none

/-- The message of a restart, unless its elevation is not valid. -/
def ChannelRow.restart (validate : String → Bool) (customCommand secret : Option String)
    (row : ChannelRow) (env : ProcessEnv) : Option AgentSpawn :=
  match if row.elevated then row.elevationMethod else none with
  | none => some (row.respawn env)
  | some method =>
    (resolveElevationConfig validate customCommand method).map fun customCommand ↦
      { row.respawn env with
        elevated := true
        elevationMethod := some method
        customCommand := customCommand
        elevationSecret := secret }

/-- The message of `spawnChannelsForHost`. -/
def ChannelState.respawn (ch : ChannelState) (env : ProcessEnv) : AgentSpawn where
  shell := some ch.shell
  args := ch.args
  cwd := some (ch.cwd.getD (env.home.getD (env.userProfile.getD "/")))
  env := .empty
  cols := ch.cols
  rows := ch.rows
  directProcess := false
  envMode := none
  elevated := false
  elevationMethod := none
  customCommand := none
  elevationSecret := none

end Lasterm.Hub.Respawns
