import Lasterm.Hub.SpawnSettings

/-!
# What a channel runs when it is spawned again

Restarts, respawns of dead channels, the SPAWNs behind a reconnect, and the restart of the hub, over
the rows and the states of the channels. An operation that awaits is a task with what it has read:
a restart keeps the row from the moment when it was asked for. Which requests find a session and an
agent is part of the events. The name that an agent gives to a channel is the one it was asked for,
or one that no channel has had. Configuration edits through the API, and quitting, are left out.

`origins` is kept for the statement only: for each channel what its first SPAWN asked for, and its
latest size. A resize counts where `handleResize` takes it.

No SPAWN that is sent again has the variables, the mode of the environment or `directProcess` of the
first one, a restart is the only one that elevates, and what the first one leaves to the agent is
filled in. So what is sent again is the same only for plain settings (`kept_iff_careful`), and the
size is that of the row when it was read.
-/

namespace Lasterm.Hub.Respawns

open Runs

inductive Task
  /-- `handleSpawn`, behind its SPAWN. -/
  | spawn (hostId : String) (f : FirstSpawn)
  /-- A restart that waits for the agent to be connected again. -/
  | reconnect (c : ChannelId) (row : ChannelRow)
  /-- A restart behind its SPAWN. `prompts` says that it asks for a password if one is needed. -/
  | restart (c : ChannelId) (row : ChannelRow) (msg : AgentSpawn) (prompts : Bool)
  /-- It asks for the password. -/
  | prompt (c : ChannelId) (row : ChannelRow) (msg : AgentSpawn)
  /-- `respawnDeadChannel`, behind its SPAWN. -/
  | respawn (c : ChannelId) (row : ChannelRow)
  | done

/-- The row that a task has read. -/
def Task.copy : Task → Option (ChannelId × ChannelRow)
  | .reconnect c row | .restart c row _ _ | .prompt c row _ | .respawn c row => some (c, row)
  | .spawn .. | .done => none

/-- What a task may send once more. -/
def Task.message : Task → Option (ChannelId × AgentSpawn)
  | .restart c _ msg true | .prompt c _ msg => some (c, msg)
  | _ => none

/-- What the channel was first asked to run, and its latest size. -/
structure Origin where
  settings : Settings
  cols : ℕ
  rows : ℕ

/-- A SPAWN that is sent again, with what was to be kept. -/
structure Resent where
  channelId : ChannelId
  msg : AgentSpawn
  origin : Option Origin

structure Channels where
  env : ProcessEnv
  /-- The routes are registered, which is done behind `startup`. -/
  serving : Bool
  rows : OrderedMap ChannelId ChannelRow
  channels : OrderedMap ChannelId ChannelState
  tasks : List Task
  origins : OrderedMap ChannelId Origin
  resent : List Resent

inductive Event
  /-- `handleSpawn`, up to its SPAWN. -/
  | spawn (hostId : String) (msg : UiSpawn) (context : SpawnContext)
  /-- SPAWN_OK for a task of `handleSpawn`. -/
  | spawned (n : ℕ) (c : ChannelId)
  /-- `taken` says that the host has an agent that takes the frame. -/
  | resize (c : ChannelId) (cols rows : ℕ) (taken : Bool)
  | restart (c : ChannelId) (connected : Bool) (customCommand secret : Option String)
    (prompts : Bool)
  /-- A restart has its agent again. -/
  | reconnected (n : ℕ) (customCommand secret : Option String) (prompts : Bool)
  /-- SPAWN_OK for a restart. -/
  | restarted (n : ℕ) (c : ChannelId)
  /-- "ELEVATION_PASSWORD_REQUIRED". -/
  | passwordRequired (n : ℕ)
  | password (n : ℕ) (secret : String)
  | respawnDead (c : ChannelId)
  /-- SPAWN_OK for `respawnDeadChannel`. -/
  | respawned (n : ℕ)
  /-- A task ends without success. -/
  | failed (n : ℕ)
  /-- `spawnChannelsForHost`. -/
  | spawnHost (hostId : String)
  | status (c : ChannelId) (status : ChannelStatus)
  | rowStatus (c : ChannelId) (status : ChannelStatus)
  | destroy (c : ChannelId)
  | purge (c : ChannelId)
  /-- The hub stops, and starts with this environment. -/
  | hubRestart (env : ProcessEnv)
  /-- `startup` comes to a channel. -/
  | restore (c : ChannelId)
  | serve

namespace Channels

def empty : Channels := ⟨⟨none, none, none⟩, true, .empty, .empty, [], .empty, []⟩

variable (validate : String → Bool) (s : Channels)

def start (t : Task) : Channels := { s with tasks := s.tasks ++ [t] }

def setTask (n : ℕ) (t : Task) : Channels := { s with tasks := s.tasks.set n t }

def resend (c : ChannelId) (msg : AgentSpawn) : Channels :=
  { s with resent := s.resent ++ [⟨c, msg, s.origins.get c⟩] }

/-- SPAWN_OK in `sendSpawnAndWait`. -/
def spawned (n : ℕ) (hostId : String) (f : FirstSpawn) (c : ChannelId) : Channels :=
  { s with
    rows := s.rows.set c (f.row hostId)
    channels := s.channels.set c (f.state s.env hostId)
    origins := s.origins.set c ⟨(f.message none).settings, f.cols, f.rows⟩
    tasks := s.tasks.set n .done }

def handleResize (c : ChannelId) (cols rows : ℕ) (taken : Bool) : Channels :=
  if (s.channels.get c).isSome && taken then
    { s with
      channels := s.channels.modify c fun ch ↦ { ch with cols := cols, rows := rows }
      rows := s.rows.modify c fun row ↦ { row with cols := cols, rows := rows }
      origins := s.origins.modify c fun o ↦ { o with cols := cols, rows := rows } }
  else s

/-- The SPAWN of a restart, if there is one, and the task behind it. -/
def sendRestart (c : ChannelId) (row : ChannelRow) (customCommand secret : Option String)
    (prompts : Bool) : Channels × Task :=
  match row.restart validate customCommand secret s.env with
  | none => (s, .done)
  | some msg => (s.resend c msg, .restart c row msg (prompts && msg.elevated))

/-- `restartChannel`, up to its first `await`. -/
def restartChannel (c : ChannelId) (row : ChannelRow) (connected : Bool)
    (customCommand secret : Option String) (prompts : Bool) : Channels :=
  if connected then
    let r := s.sendRestart validate c row customCommand secret prompts
    r.1.start r.2
  else s.start (.reconnect c row)

/-- `applyRestartState`: the agent has named the channel `c`. -/
def applyRestartState (c previous : ChannelId) (row : ChannelRow) : Channels :=
  let t : Channels :=
    if c = previous then s
    else
      { s with
        -- `retireChannel`, and an INSERT unless there is a row already
        rows :=
          let rows := s.rows.modify previous fun row ↦ { row with status := .dead }
          if (rows.get c).isSome then rows else rows.set c (row.moved s.env)
        channels := s.channels.delete previous
        origins := (s.origins.get previous).elim s.origins fun o ↦ s.origins.set c o }
  { t with
    rows := t.rows.modify c fun row ↦ { row with status := .live }
    channels := t.channels.set c (row.respawned s.env) }

/-- The end of `respawnDeadChannel`. -/
def applyRespawn (c : ChannelId) (row : ChannelRow) : Channels :=
  { s with
    rows := s.rows.modify c fun row ↦ { row with status := .live }
    channels := s.channels.set c (row.respawned s.env) }

/-- The channels of a host that are not dead, in memory. -/
def hostChannels (hostId : String) : List (ChannelId × ChannelState) :=
  s.channels.entries.filter fun e ↦ e.2.hostId = hostId ∧ e.2.status ≠ .dead

def spawnChannelsForHost (hostId : String) : Channels :=
  (s.hostChannels hostId).foldl (fun t e ↦ t.resend e.1 (e.2.respawn s.env)) s

/-- The agent names the channel as it was asked to, or by an id that no channel has had. -/
def Names (c previous : ChannelId) : Prop := c = previous ∨ s.origins.get c = none

instance (c previous : ChannelId) : Decidable (s.Names c previous) :=
  inferInstanceAs (Decidable (_ ∨ _))

def step : Event → Option Channels
  | .spawn hostId msg context =>
    match firstSpawn validate msg context with
    | none => some s
    | some f => some (s.start (.spawn hostId f))
  | .spawned n c =>
    match s.tasks[n]? with
    | some (.spawn hostId f) =>
      if s.origins.get c = none then some (s.spawned n hostId f c) else none
    | _ => none
  | .resize c cols rows taken => if s.serving then some (s.handleResize c cols rows taken) else none
  | .restart c connected customCommand secret prompts =>
    match s.rows.get c with
    | some row =>
      if s.serving then
        some (s.restartChannel validate c row connected customCommand secret prompts)
      else none
    | none => none
  | .reconnected n customCommand secret prompts =>
    match s.tasks[n]? with
    | some (.reconnect c row) =>
      let r := s.sendRestart validate c row customCommand secret prompts
      some (r.1.setTask n r.2)
    | _ => none
  | .restarted n c =>
    match s.tasks[n]? with
    | some (.restart previous row _ _) =>
      if s.Names c previous then some ((s.applyRestartState c previous row).setTask n .done)
      else none
    | _ => none
  | .passwordRequired n =>
    match s.tasks[n]? with
    | some (.restart c row msg true) => some (s.setTask n (.prompt c row msg))
    | _ => none
  | .password n secret =>
    match s.tasks[n]? with
    | some (.prompt c row msg) =>
      let msg := { msg with elevationSecret := some secret }
      some ((s.resend c msg).setTask n (.restart c row msg false))
    | _ => none
  | .respawnDead c =>
    match s.rows.get c with
    | some row =>
      if s.serving ∧ s.channels.get c = none ∧ row.status = .dead then
        some ((s.resend c (row.respawn s.env)).start (.respawn c row))
      else none
    | none => none
  | .respawned n =>
    match s.tasks[n]? with
    | some (.respawn c row) => some ((s.applyRespawn c row).setTask n .done)
    | _ => none
  | .failed n => some (s.setTask n .done)
  | .spawnHost hostId => some (s.spawnChannelsForHost hostId)
  | .status c status =>
    some { s with channels := s.channels.modify c fun ch ↦ { ch with status := status } }
  | .rowStatus c status =>
    some { s with rows := s.rows.modify c fun row ↦ { row with status := status } }
  | .destroy c =>
    some
      { s with
        channels := s.channels.delete c
        rows := s.rows.modify c fun row ↦ { row with status := .dead } }
  | .purge c =>
    if (s.rows.get c).any (·.status = .dead) then some { s with rows := s.rows.delete c } else none
  | .hubRestart env => some { s with env := env, serving := false, channels := .empty, tasks := [] }
  | .restore c =>
    match s.rows.get c with
    | none => none
    | some row =>
      if s.serving = false ∧ row.status ≠ .dead then
        some
          { s with
            rows := s.rows.modify c fun row ↦ { row with status := .orphan }
            channels := s.channels.set c row.restored }
      else none
  | .serve => some { s with serving := true }

/-! ## The conditions -/

end Channels

/-- A SPAWN that is sent again has what the first one had, and the latest size. -/
def Resent.Right (x : Resent) : Prop :=
  ∃ o, x.origin = some o ∧ x.msg.settings = o.settings ∧ x.msg.cols = o.cols ∧ x.msg.rows = o.rows

/-- Nothing in these settings is lost, or chosen by the agent. -/
def Settings.Plain (x : Settings) : Prop :=
  x.shell.isSome ∧ x.cwd.isSome ∧ x.env.entries = [] ∧ x.envMode = .inherit ∧
    x.directProcess = false

instance (x : Settings) : Decidable x.Plain := inferInstanceAs (Decidable (_ ∧ _))

namespace Channels

variable (validate : String → Bool) (s : Channels)

def Kept : Prop := ∀ x ∈ s.resent, x.Right

/-- A restart sends for a channel with plain settings. Where they are elevated, the custom command
of the host is what it was; a custom command that is not valid sends nothing. -/
def CarefulRestart (c : ChannelId) (customCommand : Option String) : Prop :=
  ∀ o, s.origins.get c = some o →
    (o.settings.elevation = none → o.settings.Plain) ∧
      ∀ p command, o.settings.elevation = some p →
        resolveElevationConfig validate customCommand p.1 = some command →
          o.settings.Plain ∧ command = p.2

/-- Another SPAWN is for a channel with plain settings that are not elevated. -/
def CarefulRespawn (c : ChannelId) : Prop :=
  ∀ o, s.origins.get c = some o → o.settings.Plain ∧ o.settings.elevation = none

def Careful : Event → Prop
  | .restart c connected customCommand _ _ =>
    connected = true → s.CarefulRestart validate c customCommand
  | .reconnected n customCommand _ _ =>
    ∀ c row, s.tasks[n]? = some (.reconnect c row) → s.CarefulRestart validate c customCommand
  | .respawnDead c => s.CarefulRespawn c
  | .spawnHost hostId => ∀ e ∈ s.hostChannels hostId, s.CarefulRespawn e.1
  | _ => True

/-- A resize does not come between the reading of the row and the end of a restart or a respawn,
unless the channel had this size already. -/
def SizeCareful : Event → Prop
  | .resize c cols rows taken => ((s.channels.get c).isSome && taken) = true →
    ∀ t ∈ s.tasks, ∀ p, t.copy = some p → p.1 = c → p.2.cols = cols ∧ p.2.rows = rows
  | _ => True

end Channels

/-! ## What is stored stays -/

/-- The row has what is stored of the first SPAWN. -/
structure ChannelRow.Keeps (row : ChannelRow) (o : Origin) : Prop where
  shell : ∀ shell, o.settings.shell = some shell → row.shell = shell
  args : row.args = o.settings.args
  cwd : ∀ cwd, o.settings.cwd = some cwd → row.cwd = some cwd
  cols : row.cols = o.cols
  rows : row.rows = o.rows
  elevation : (if row.elevated then row.elevationMethod else none) =
    o.settings.elevation.map Prod.fst

/-- So has the state in memory, which has no elevation. -/
structure ChannelState.Keeps (ch : ChannelState) (o : Origin) : Prop where
  shell : ∀ shell, o.settings.shell = some shell → ch.shell = shell
  args : ch.args = o.settings.args
  cwd : ∀ cwd, o.settings.cwd = some cwd → ch.cwd = some cwd
  cols : ch.cols = o.cols
  rows : ch.rows = o.rows

variable {row : ChannelRow} {ch : ChannelState} {o : Origin} {env : ProcessEnv}

theorem FirstSpawn.keeps_row (f : FirstSpawn) (hostId : String) :
    (f.row hostId).Keeps ⟨(f.message none).settings, f.cols, f.rows⟩ where
  shell shell h := by rw [row, show f.resolved.shell = some shell from h, Option.getD_some]
  args := rfl
  cwd cwd h := h
  cols := rfl
  rows := rfl
  elevation := by
    rcases f with ⟨r, cols, rows, envMode, _ | p⟩
    · rfl
    · rfl

theorem FirstSpawn.keeps_state (f : FirstSpawn) (env : ProcessEnv) (hostId : String) :
    (f.state env hostId).Keeps ⟨(f.message none).settings, f.cols, f.rows⟩ where
  shell shell h := by rw [state, show f.resolved.shell = some shell from h, Option.getD_some]
  args := rfl
  cwd cwd h := h
  cols := rfl
  rows := rfl

namespace ChannelRow.Keeps

section

variable (h : row.Keeps o)
include h

theorem restored : row.restored.Keeps o :=
  ⟨h.shell, h.args, h.cwd, h.cols, h.rows⟩

theorem startsIn (cwd : String) (hcwd : o.settings.cwd = some cwd) :
    row.startsIn env = cwd := by
  rw [ChannelRow.startsIn, h.cwd cwd hcwd, Option.getD_some]

theorem respawned : (row.respawned env).Keeps o :=
  ⟨h.shell, h.args, fun cwd hcwd ↦ congrArg some (h.startsIn cwd hcwd), h.cols, h.rows⟩

theorem moved : (row.moved env).Keeps o :=
  ⟨h.shell, h.args, fun cwd hcwd ↦ congrArg some (h.startsIn cwd hcwd), h.cols, h.rows, h.elevation⟩

theorem withStatus (status : ChannelStatus) : { row with status := status }.Keeps o :=
  ⟨h.shell, h.args, h.cwd, h.cols, h.rows, h.elevation⟩

theorem resize (cols rows : ℕ) :
    { row with cols := cols, rows := rows }.Keeps { o with cols := cols, rows := rows } :=
  ⟨h.shell, h.args, h.cwd, rfl, rfl, h.elevation⟩

end

end ChannelRow.Keeps

/-! ## What is sent again -/

/-- A message without variables, mode and `directProcess`, that names its shell and directory. -/
theorem settings_eq_iff {x y : Settings} (hshell : x.shell.isSome) (hcwd : x.cwd.isSome)
    (henv : x.env = .empty) (hmode : x.envMode = .inherit) (hdirect : x.directProcess = false)
    (hargs : x.args = y.args) (hsame : ∀ shell, y.shell = some shell → x.shell = some shell)
    (hsame' : ∀ cwd, y.cwd = some cwd → x.cwd = some cwd) :
    x = y ↔ y.Plain ∧ x.elevation = y.elevation := by
  constructor
  · rintro rfl
    exact ⟨⟨hshell, hcwd, by rw [henv]; rfl, hmode, hdirect⟩, rfl⟩
  · rintro ⟨⟨hs, hc, he, hm, hd⟩, helevation⟩
    obtain ⟨shell, hs⟩ := Option.isSome_iff_exists.mp hs
    obtain ⟨cwd, hc⟩ := Option.isSome_iff_exists.mp hc
    obtain ⟨xs, xa, xc, xe, xm, xd, xv⟩ := x
    obtain ⟨ys, ya, yc, ⟨entries, hnodup⟩, ym, yd, yv⟩ := y
    obtain rfl : entries = [] := he
    simp only [Settings.mk.injEq]
    exact ⟨(hsame shell hs).trans hs.symm, hargs, (hsame' cwd hc).trans hc.symm, henv,
      hmode.trans hm.symm, hdirect.trans hd.symm, helevation⟩

theorem right_iff {c : ChannelId} {msg : AgentSpawn} (hcols : msg.cols = o.cols)
    (hrows : msg.rows = o.rows) : Resent.Right ⟨c, msg, some o⟩ ↔ msg.settings = o.settings := by
  constructor
  · rintro ⟨o', ho, hsame, -⟩
    cases ho
    exact hsame
  · intro hsame
    exact ⟨o, rfl, hsame, hcols, hrows⟩

theorem settings_respawn_iff (h : row.Keeps o) {elevated : Bool}
    {elevationMethod : Option ElevationMethod} {customCommand secret : Option String} :
    { row.respawn env with
      elevated := elevated
      elevationMethod := elevationMethod
      customCommand := customCommand
      elevationSecret := secret }.settings = o.settings ↔
      o.settings.Plain ∧
        (if elevated then elevationMethod.map fun method ↦ (method, customCommand) else none) =
          o.settings.elevation :=
  settings_eq_iff rfl rfl rfl rfl rfl h.args (fun shell hs ↦ congrArg some (h.shell shell hs))
    fun cwd hc ↦ congrArg some (h.startsIn cwd hc)

theorem respawn_right_iff (h : row.Keeps o) (c : ChannelId) :
    Resent.Right ⟨c, row.respawn env, some o⟩ ↔
      o.settings.Plain ∧ o.settings.elevation = none := by
  rw [right_iff h.cols h.rows, eq_comm (a := o.settings.elevation)]
  exact settings_respawn_iff h

theorem hostRespawn_right_iff (h : ch.Keeps o) (c : ChannelId) :
    Resent.Right ⟨c, ch.respawn env, some o⟩ ↔
      o.settings.Plain ∧ o.settings.elevation = none := by
  rw [right_iff h.cols h.rows, eq_comm (a := o.settings.elevation)]
  refine settings_eq_iff rfl rfl rfl rfl rfl h.args
    (fun shell hs ↦ congrArg some (h.shell shell hs)) fun cwd hc ↦ ?_
  change some (ch.cwd.getD _) = _
  rw [h.cwd cwd hc, Option.getD_some]

/-- What a restart sends is right where its condition holds. -/
theorem restart_right_iff {validate : String → Bool} {customCommand secret : Option String}
    {msg : AgentSpawn} (h : row.Keeps o) (c : ChannelId)
    (hmsg : row.restart validate customCommand secret env = some msg) :
    Resent.Right ⟨c, msg, some o⟩ ↔
      (o.settings.elevation = none → o.settings.Plain) ∧
        ∀ p command, o.settings.elevation = some p →
          resolveElevationConfig validate customCommand p.1 = some command →
            o.settings.Plain ∧ command = p.2 := by
  rw [ChannelRow.restart, h.elevation] at hmsg
  rcases helevation : o.settings.elevation with _ | p
  · rw [helevation] at hmsg
    cases hmsg
    rw [respawn_right_iff h, helevation]
    exact ⟨fun hplain ↦ ⟨fun _ ↦ hplain.1, (fun _ _ hp ↦ by cases hp)⟩,
      fun hplain ↦ ⟨hplain.1 rfl, rfl⟩⟩
  · rw [helevation] at hmsg
    obtain ⟨command, hcommand, rfl⟩ := Option.map_eq_some_iff.mp hmsg
    rw [right_iff h.cols h.rows, settings_respawn_iff h, helevation]
    have hsame : some (p.1, command) = some p ↔ command = p.2 := by
      rw [Option.some.injEq, Prod.ext_iff]
      exact and_iff_right rfl
    constructor
    · rintro ⟨hplain, hp⟩
      refine ⟨nofun, fun q command' hq hcommand' ↦ ⟨hplain, ?_⟩⟩
      cases hq
      cases hcommand.symm.trans hcommand'
      exact hsame.mp hp
    · rintro ⟨-, hall⟩
      obtain ⟨hplain, hp⟩ := hall p command rfl hcommand
      exact ⟨hplain, hsame.mpr hp⟩

/-! ## The invariant -/

/-- The channel has an origin, with the property. -/
def Owned (origins : OrderedMap ChannelId Origin) (K : Origin → Prop) (c : ChannelId) : Prop :=
  ∃ o, origins.get c = some o ∧ K o

theorem Owned.set_fresh {origins : OrderedMap ChannelId Origin} {K : Origin → Prop}
    {c c' : ChannelId} (h : Owned origins K c') (hfresh : origins.get c = none) (o : Origin) :
    Owned (origins.set c o) K c' := by
  obtain ⟨o', ho', hK⟩ := h
  refine ⟨o', ?_, hK⟩
  rw [OrderedMap.get_set_of_ne _ _ fun hc ↦ ?_]
  · exact ho'
  · rw [hc, ho'] at hfresh
    cases hfresh

/-- What a task has read is what is stored, and what it may send once more was right when it was
sent. -/
structure Task.Keeps (origins : OrderedMap ChannelId Origin) (t : Task) : Prop where
  copy : ∀ p, t.copy = some p → Owned origins p.2.Keeps p.1
  message : ∀ p, t.message = some p → ∃ row, t.copy = some (p.1, row) ∧
    p.2.cols = row.cols ∧ p.2.rows = row.rows ∧
      Owned origins (fun o ↦ p.2.settings = o.settings) p.1

theorem keeps_done {origins : OrderedMap ChannelId Origin} : Task.done.Keeps origins :=
  ⟨(fun _ hp ↦ by cases hp), (fun _ hp ↦ by cases hp)⟩

namespace Task.Keeps

variable {origins : OrderedMap ChannelId Origin} {c : ChannelId} {row : ChannelRow}
  {msg : AgentSpawn} {secret : Option String}

theorem prompt (h : (Task.restart c row msg true).Keeps origins) :
    (Task.prompt c row msg).Keeps origins :=
  ⟨h.copy, h.message⟩

/-- What is sent once more is what was sent. -/
theorem right (h : (Task.prompt c row msg).Keeps origins) :
    Resent.Right ⟨c, { msg with elevationSecret := secret }, origins.get c⟩ := by
  obtain ⟨row', hrow', hcols, hrows, o, ho, hsettings⟩ := h.message (c, msg) rfl
  obtain ⟨o', ho', hkeeps⟩ := h.copy (c, row') hrow'
  cases ho.symm.trans ho'
  exact ⟨o, ho, hsettings, hcols.trans hkeeps.cols, hrows.trans hkeeps.rows⟩

theorem retry (h : (Task.prompt c row msg).Keeps origins) :
    (Task.restart c row { msg with elevationSecret := secret } false).Keeps origins :=
  ⟨h.copy, (fun _ hp ↦ by cases hp)⟩

end Task.Keeps

namespace Channels

variable {validate : String → Bool} {s s' : Channels} {e : Event} {es : List Event} {n : ℕ}
  {t : Task} {c : ChannelId} {msg : AgentSpawn} {o : Origin} {customCommand secret : Option String}

structure Valid (s : Channels) : Prop where
  rows : ∀ c row, s.rows.get c = some row → Owned s.origins row.Keeps c
  channels : ∀ c ch, s.channels.get c = some ch → Owned s.origins ch.Keeps c
  tasks : ∀ t ∈ s.tasks, t.Keeps s.origins

theorem valid_empty : empty.Valid where
  rows _ _ h := by cases h
  channels _ _ h := by cases h
  tasks _ h := by cases h

section

variable (h : s.Valid)
include h

theorem Valid.resend (c : ChannelId) (msg : AgentSpawn) : (s.resend c msg).Valid :=
  ⟨h.rows, h.channels, h.tasks⟩

theorem Valid.start (ht : t.Keeps s.origins) : (s.start t).Valid := by
  refine ⟨h.rows, h.channels, fun u hu ↦ ?_⟩
  rcases List.mem_append.mp hu with hu | hu
  · exact h.tasks u hu
  · exact List.mem_singleton.mp hu ▸ ht

theorem Valid.setTask (ht : t.Keeps s.origins) : (s.setTask n t).Valid := by
  refine ⟨h.rows, h.channels, fun u hu ↦ ?_⟩
  rcases List.mem_or_eq_of_mem_set hu with hu | rfl
  · exact h.tasks u hu
  · exact ht

theorem Valid.task (ht : s.tasks[n]? = some t) : t.Keeps s.origins :=
  h.tasks t (List.mem_of_getElem? ht)

/-- A new id comes in. -/
theorem Valid.fresh (hfresh : s.origins.get c = none) (o : Origin) :
    Valid { s with origins := s.origins.set c o } where
  rows c' row hrow := (h.rows c' row hrow).set_fresh hfresh o
  channels c' ch hch := (h.channels c' ch hch).set_fresh hfresh o
  tasks t ht := by
    refine ⟨fun p hp ↦ ((h.tasks t ht).copy p hp).set_fresh hfresh o, fun p hp ↦ ?_⟩
    obtain ⟨row, hcopy, hcols, hrows, howned⟩ := (h.tasks t ht).message p hp
    exact ⟨row, hcopy, hcols, hrows, howned.set_fresh hfresh o⟩

theorem Valid.setRow {row : ChannelRow} (hrow : Owned s.origins row.Keeps c) :
    Valid { s with rows := s.rows.set c row } :=
  ⟨OrderedMap.forall_get_set h.rows hrow, h.channels, h.tasks⟩

theorem Valid.setChannel {ch : ChannelState} (hch : Owned s.origins ch.Keeps c) :
    Valid { s with channels := s.channels.set c ch } :=
  ⟨h.rows, OrderedMap.forall_get_set h.channels hch, h.tasks⟩

theorem Valid.rowStatus (c : ChannelId) (status : ChannelStatus) :
    Valid { s with rows := s.rows.modify c fun row ↦ { row with status := status } } := by
  refine ⟨OrderedMap.forall_get_modify h.rows fun row hrow ↦ ?_, h.channels, h.tasks⟩
  obtain ⟨o, ho, hkeeps⟩ := hrow
  exact ⟨o, ho, hkeeps.withStatus status⟩

theorem Valid.channelStatus (c : ChannelId) (status : ChannelStatus) :
    Valid { s with channels := s.channels.modify c fun ch ↦ { ch with status := status } } := by
  refine ⟨h.rows, OrderedMap.forall_get_modify h.channels fun ch hch ↦ ?_, h.tasks⟩
  obtain ⟨o, ho, hkeeps⟩ := hch
  exact ⟨o, ho, hkeeps.shell, hkeeps.args, hkeeps.cwd, hkeeps.cols, hkeeps.rows⟩

theorem Valid.deleteChannel (c : ChannelId) :
    Valid { s with channels := s.channels.delete c } :=
  ⟨h.rows, OrderedMap.forall_get_delete h.channels, h.tasks⟩

theorem Valid.spawned (hfresh : s.origins.get c = none) (hostId : String)
    (f : FirstSpawn) : (s.spawned n hostId f c).Valid := by
  have howned : ∀ {K : Origin → Prop}, K ⟨(f.message none).settings, f.cols, f.rows⟩ →
      Owned (s.origins.set c ⟨(f.message none).settings, f.cols, f.rows⟩) K c :=
    fun hK ↦ ⟨_, OrderedMap.get_set_self .., hK⟩
  have hrow := (h.fresh hfresh ⟨(f.message none).settings, f.cols, f.rows⟩).setRow
    (howned (f.keeps_row hostId))
  exact (hrow.setChannel (howned (f.keeps_state s.env hostId))).setTask keeps_done

theorem Valid.applyRespawn {row : ChannelRow} (hrow : Owned s.origins row.Keeps c) :
    (s.applyRespawn c row).Valid := by
  obtain ⟨o, ho, hkeeps⟩ := hrow
  exact (h.rowStatus c .live).setChannel ⟨o, ho, hkeeps.respawned⟩

theorem Valid.applyRestartState {previous : ChannelId} {row : ChannelRow}
    (hnames : s.Names c previous) (hrow : Owned s.origins row.Keeps previous) :
    (s.applyRestartState c previous row).Valid := by
  rw [Channels.applyRestartState]
  by_cases hc : c = previous
  · subst hc
    simp only [↓reduceIte]
    exact h.applyRespawn hrow
  · obtain ⟨o, ho, hkeeps⟩ := hrow
    have hfresh := hnames.resolve_left hc
    simp only [hc, ↓reduceIte, ho, Option.elim_some]
    have howned : ∀ {K : Origin → Prop}, K o → Owned (s.origins.set c o) K c :=
      fun hK ↦ ⟨o, OrderedMap.get_set_self .., hK⟩
    have hretired := ((h.fresh hfresh o).rowStatus previous .dead).deleteChannel previous
    split
    · exact (hretired.rowStatus c .live).setChannel (howned hkeeps.respawned)
    · exact ((hretired.setRow (howned hkeeps.moved)).rowStatus c .live).setChannel
        (howned hkeeps.respawned)

/-- A resize reaches everything that is kept of the channel, or finds it there already. -/
theorem Valid.handleResize {cols rows : ℕ} {taken : Bool}
    (hsize : s.SizeCareful (.resize c cols rows taken)) :
    (s.handleResize c cols rows taken).Valid := by
  rw [Channels.handleResize]
  split
  · rename_i htaken
    have howned : ∀ {K K' : Origin → Prop} (c' : ChannelId), Owned s.origins K c' →
        (∀ o, K o → c ≠ c' → K' o) →
        (∀ o, K o → c = c' → K' { o with cols := cols, rows := rows }) →
        Owned (s.origins.modify c fun o ↦ { o with cols := cols, rows := rows }) K' c' := by
      rintro K K' c' ⟨o, ho, hK⟩ hother hself
      by_cases hc : c = c'
      · exact ⟨_, by rw [OrderedMap.get_modify, if_pos hc, ho, Option.map_some], hself o hK hc⟩
      · exact ⟨o, by rw [OrderedMap.get_modify, if_neg hc, ho], hother o hK hc⟩
    refine ⟨fun c' row hrow ↦ ?_, fun c' ch hch ↦ ?_, fun t ht ↦ ⟨fun p hp ↦ ?_, fun p hp ↦ ?_⟩⟩
    · rw [OrderedMap.get_modify] at hrow
      split at hrow
      · rename_i hc
        obtain ⟨row, hold, rfl⟩ := Option.map_eq_some_iff.mp hrow
        exact howned c' (h.rows c' row hold) (fun _ _ hne ↦ absurd hc hne)
          fun _ hkeeps _ ↦ hkeeps.resize cols rows
      · rename_i hc
        exact howned c' (h.rows c' row hrow) (fun _ hkeeps _ ↦ hkeeps) fun _ _ heq ↦ absurd heq hc
    · rw [OrderedMap.get_modify] at hch
      split at hch
      · rename_i hc
        obtain ⟨ch, hold, rfl⟩ := Option.map_eq_some_iff.mp hch
        exact howned c' (h.channels c' ch hold) (fun _ _ hne ↦ absurd hc hne)
          fun _ hkeeps _ ↦ ⟨hkeeps.shell, hkeeps.args, hkeeps.cwd, rfl, rfl⟩
      · rename_i hc
        exact howned c' (h.channels c' ch hch) (fun _ hkeeps _ ↦ hkeeps)
          fun _ _ heq ↦ absurd heq hc
    · refine howned p.1 ((h.tasks t ht).copy p hp) (fun _ hkeeps _ ↦ hkeeps) fun o hkeeps hc ↦ ?_
      obtain ⟨hcols, hrows⟩ := hsize htaken t ht p hp hc.symm
      exact ⟨hkeeps.shell, hkeeps.args, hkeeps.cwd, hcols, hrows, hkeeps.elevation⟩
    · obtain ⟨row, hcopy, hcols, hrows, hsettings⟩ := (h.tasks t ht).message p hp
      exact ⟨row, hcopy, hcols, hrows, howned p.1 hsettings (fun _ hsame _ ↦ hsame)
        fun _ hsame _ ↦ hsame⟩
  · exact h

end

/-! ## What a step sends -/

/-- What comes to the journal is right. -/
def ResendsRight (s s' : Channels) : Prop :=
  ∀ new, s'.resent = s.resent ++ new → ∀ x ∈ new, x.Right

theorem resendsRight_iff {xs : List Resent} (h : s'.resent = s.resent ++ xs) :
    s.ResendsRight s' ↔ ∀ x ∈ xs, x.Right := by
  constructor
  · intro hright
    exact hright xs h
  · intro hright new hnew
    exact List.append_cancel_left (h.symm.trans hnew) ▸ hright

theorem resendsRight_of_eq (h : s'.resent = s.resent) : s.ResendsRight s' := by
  have hnone : s'.resent = s.resent ++ [] := by rw [h, List.append_nil]
  exact (resendsRight_iff hnone).mpr fun _ hx ↦ absurd hx List.not_mem_nil

theorem resendsRight_resend_iff (h : s'.resent = (s.resend c msg).resent) :
    s.ResendsRight s' ↔ Resent.Right ⟨c, msg, s.origins.get c⟩ := by
  rw [resendsRight_iff h]
  exact List.forall_mem_singleton

/-- The SPAWN of a restart, with the task behind it. -/
theorem sendRestart_spec {row : ChannelRow} {prompts : Bool} (hrow : Owned s.origins row.Keeps c) :
    (s.ResendsRight (s.sendRestart validate c row customCommand secret prompts).1 ↔
      s.CarefulRestart validate c customCommand) ∧
      (s.Valid → (s.sendRestart validate c row customCommand secret prompts).1.Valid) ∧
      (s.CarefulRestart validate c customCommand →
        (s.sendRestart validate c row customCommand secret prompts).2.Keeps
          (s.sendRestart validate c row customCommand secret prompts).1.origins) := by
  obtain ⟨o, ho, hkeeps⟩ := hrow
  have hcareful : s.CarefulRestart validate c customCommand ↔
      (o.settings.elevation = none → o.settings.Plain) ∧
        ∀ p command, o.settings.elevation = some p →
          resolveElevationConfig validate customCommand p.1 = some command →
            o.settings.Plain ∧ command = p.2 := by
    constructor
    · intro h
      exact h o ho
    · intro h o' ho'
      exact Option.some.inj (ho.symm.trans ho') ▸ h
  rw [sendRestart, hcareful]
  rcases hmsg : row.restart validate customCommand secret s.env with _ | msg
  · -- An elevated restart whose custom command is not valid.
    refine ⟨iff_of_true (resendsRight_of_eq rfl) ?_, id, fun _ ↦ keeps_done⟩
    rw [ChannelRow.restart, hkeeps.elevation] at hmsg
    rcases helevation : o.settings.elevation with _ | p
    · rw [helevation] at hmsg
      cases hmsg
    · rw [helevation] at hmsg
      have hinvalid := Option.map_eq_none_iff.mp hmsg
      refine ⟨nofun, fun q command hq hcommand ↦ ?_⟩
      cases hq
      rw [hinvalid] at hcommand
      cases hcommand
  · have hright := restart_right_iff hkeeps c hmsg
    refine ⟨?_, fun h ↦ h.resend c msg, fun h ↦ ⟨fun p hp ↦ ?_, fun p hp ↦ ?_⟩⟩
    · rw [resendsRight_resend_iff rfl, ho]
      exact hright
    · cases hp
      exact ⟨o, ho, hkeeps⟩
    · obtain ⟨o', ho', hsettings, hcols, hrows⟩ := hright.mpr h
      cases ho'
      change (Task.restart c row msg (prompts && msg.elevated)).message = some p at hp
      change ∃ row', (Task.restart c row msg (prompts && msg.elevated)).copy = some (p.1, row') ∧ _
      cases hprompts : prompts && msg.elevated with
      | false =>
        rw [hprompts] at hp
        cases hp
      | true =>
        rw [hprompts] at hp
        cases hp
        exact ⟨row, rfl, hcols.trans hkeeps.cols.symm, hrows.trans hkeeps.rows.symm, o, ho,
          hsettings⟩

theorem resent_spawnChannelsForHost (s : Channels) (hostId : String) :
    (s.spawnChannelsForHost hostId).resent = s.resent ++
      (s.hostChannels hostId).map fun e ↦ ⟨e.1, e.2.respawn s.env, s.origins.get e.1⟩ := by
  have hfold : ∀ (es : List (ChannelId × ChannelState)) (t : Channels), t.origins = s.origins →
      (es.foldl (fun t e ↦ t.resend e.1 (e.2.respawn s.env)) t).resent = t.resent ++
        es.map fun e ↦ ⟨e.1, e.2.respawn s.env, s.origins.get e.1⟩ := by
    intro es
    induction es with
    | nil =>
      intro t _
      exact (List.append_nil _).symm
    | cons e es ih =>
      intro t ht
      rw [List.foldl_cons, ih (t.resend e.1 (e.2.respawn s.env)) ht, resend, ht, List.append_assoc]
      rfl
  exact hfold _ s rfl

theorem valid_spawnChannelsForHost (h : s.Valid) (hostId : String) :
    (s.spawnChannelsForHost hostId).Valid :=
  List.foldlRecOn _ _ h fun _ ht e _ ↦ ht.resend e.1 _

theorem mem_hostChannels {hostId : String} {e : ChannelId × ChannelState}
    (he : e ∈ s.hostChannels hostId) : s.channels.get e.1 = some e.2 :=
  OrderedMap.get_eq_some_iff.mpr (List.mem_of_mem_filter he)

theorem carefulRespawn_iff (ho : s.origins.get c = some o) :
    s.CarefulRespawn c ↔ o.settings.Plain ∧ o.settings.elevation = none := by
  constructor
  · intro h
    exact h o ho
  · intro h o' ho'
    exact Option.some.inj (ho.symm.trans ho') ▸ h

theorem prefix_sendRestart (s : Channels) (c : ChannelId) (row : ChannelRow)
    (customCommand secret : Option String) (prompts : Bool) :
    s.resent <+: (s.sendRestart validate c row customCommand secret prompts).1.resent := by
  rw [sendRestart]
  split
  · exact List.prefix_refl _
  · exact List.prefix_append ..

theorem resent_applyRestartState (s : Channels) (c previous : ChannelId) (row : ChannelRow) :
    (s.applyRestartState c previous row).resent = s.resent := by
  rw [applyRestartState]
  split
  · rfl
  · rfl

theorem resent_handleResize (s : Channels) (c : ChannelId) (cols rows : ℕ) (taken : Bool) :
    (s.handleResize c cols rows taken).resent = s.resent := by
  rw [handleResize]
  split
  · rfl
  · rfl

/-- What a step does to the journal, and to what is stored. -/
structure Follows (validate : String → Bool) (s : Channels) (e : Event) (s' : Channels) : Prop where
  grows : s.resent <+: s'.resent
  right : s.Valid → (s.ResendsRight s' ↔ s.Careful validate e)
  valid : s.Valid → s.SizeCareful e → s.Careful validate e → s'.Valid

theorem follows_of_quiet (hresent : s'.resent = s.resent) (hcareful : s.Careful validate e)
    (hvalid : s.Valid → s.SizeCareful e → s'.Valid) : s.Follows validate e s' where
  grows := hresent ▸ List.prefix_refl _
  right _ := iff_of_true (resendsRight_of_eq hresent) hcareful
  valid hs hsize _ := hvalid hs hsize

theorem follows_restart {row : ChannelRow} {connected prompts : Bool}
    (hrow : s.rows.get c = some row) :
    s.Follows validate (.restart c connected customCommand secret prompts)
      (s.restartChannel validate c row connected customCommand secret prompts) := by
  rw [restartChannel]
  cases connected with
  | false =>
    -- nothing is sent yet, but the row is kept for later
    refine follows_of_quiet rfl (fun h ↦ Bool.noConfusion h) fun hs _ ↦ hs.start ⟨?_, ?_⟩
    · intro p hp
      cases hp
      exact hs.rows c row hrow
    · intro p hp
      cases hp
  | true =>
    refine ⟨prefix_sendRestart .., fun hs ↦ ?_, fun hs _ hcareful ↦ ?_⟩
    · rw [Careful, imp_iff_right rfl]
      exact (sendRestart_spec (hs.rows c row hrow)).1
    · obtain ⟨-, hvalid, htask⟩ := sendRestart_spec (hs.rows c row hrow)
      exact (hvalid hs).start (htask (hcareful rfl))

theorem follows_reconnected {row : ChannelRow}
    {prompts : Bool} (htask : s.tasks[n]? = some (.reconnect c row)) :
    s.Follows validate (.reconnected n customCommand secret prompts)
      ((s.sendRestart validate c row customCommand secret prompts).1.setTask n
        (s.sendRestart validate c row customCommand secret prompts).2) := by
  have hcareful : s.Careful validate (.reconnected n customCommand secret prompts) ↔
      s.CarefulRestart validate c customCommand := by
    constructor
    · intro h
      exact h c row htask
    · intro h c' row' htask'
      obtain ⟨rfl, rfl⟩ := Task.reconnect.inj (Option.some.inj (htask.symm.trans htask'))
      exact h
  refine ⟨prefix_sendRestart .., fun hs ↦ ?_, fun hs _ h ↦ ?_⟩
  · rw [hcareful]
    exact (sendRestart_spec ((hs.task htask).copy _ rfl)).1
  · obtain ⟨-, hvalid, hnext⟩ := sendRestart_spec ((hs.task htask).copy _ rfl)
    exact (hvalid hs).setTask (hnext (hcareful.mp h))

/-- The message goes out once more with the password, which is no setting. -/
theorem follows_password {row : ChannelRow} {secret : String}
    (htask : s.tasks[n]? = some (.prompt c row msg)) :
    s.Follows validate (.password n secret)
      ((s.resend c { msg with elevationSecret := some secret }).setTask n
        (.restart c row { msg with elevationSecret := some secret } false)) where
  grows := List.prefix_append ..
  right hs := iff_of_true ((resendsRight_resend_iff rfl).mpr (hs.task htask).right) trivial
  valid hs _ _ := (hs.resend c _).setTask (hs.task htask).retry

theorem follows_respawnDead {row : ChannelRow} (hrow : s.rows.get c = some row) :
    s.Follows validate (.respawnDead c)
      ((s.resend c (row.respawn s.env)).start (.respawn c row)) := by
  refine ⟨List.prefix_append .., fun hs ↦ ?_, fun hs _ _ ↦ ?_⟩
  · obtain ⟨o, ho, hkeeps⟩ := hs.rows c row hrow
    refine Iff.trans (resendsRight_resend_iff rfl) ?_
    rw [ho, respawn_right_iff hkeeps]
    exact (carefulRespawn_iff ho).symm
  · refine (hs.resend c _).start ⟨?_, ?_⟩
    · intro p hp
      cases hp
      exact hs.rows c row hrow
    · intro p hp
      cases hp

theorem follows_spawnHost (hostId : String) :
    s.Follows validate (.spawnHost hostId) (s.spawnChannelsForHost hostId) := by
  refine ⟨?_, fun hs ↦ ?_, fun hs _ _ ↦ valid_spawnChannelsForHost hs hostId⟩
  · rw [resent_spawnChannelsForHost]
    exact List.prefix_append ..
  · rw [resendsRight_iff (resent_spawnChannelsForHost s hostId), List.forall_mem_map]
    refine forall₂_congr fun e he ↦ ?_
    obtain ⟨o, ho, hkeeps⟩ := hs.channels e.1 e.2 (mem_hostChannels he)
    rw [ho, hostRespawn_right_iff hkeeps]
    exact (carefulRespawn_iff ho).symm

theorem step_follows : Ensures (s.Follows validate e) (step validate s e) := by
  cases e with
  | spawn hostId msg context =>
    dsimp only [step]
    split
    · exact .of_some (follows_of_quiet rfl trivial fun hs _ ↦ hs)
    · refine .of_some (follows_of_quiet rfl trivial fun hs _ ↦ hs.start ⟨?_, ?_⟩)
      · intro p hp
        cases hp
      · intro p hp
        cases hp
  | spawned n c =>
    dsimp only [step]
    split
    · refine .of_ite fun hfresh ↦ ?_
      exact follows_of_quiet rfl trivial fun hs _ ↦ hs.spawned hfresh _ _
    · exact .of_none
  | resize c cols rows taken =>
    refine .of_ite fun _ ↦ ?_
    exact follows_of_quiet (resent_handleResize ..) trivial fun hs hsize ↦ hs.handleResize hsize
  | restart c connected customCommand secret prompts =>
    dsimp only [step]
    split
    · rename_i row hrow
      exact .of_ite fun _ ↦ follows_restart hrow
    · exact .of_none
  | reconnected n customCommand secret prompts =>
    dsimp only [step]
    split
    · rename_i c row htask
      exact .of_some (follows_reconnected htask)
    · exact .of_none
  | restarted n c =>
    dsimp only [step]
    split
    · rename_i previous row msg prompts htask
      refine .of_ite fun hnames ↦ ?_
      exact follows_of_quiet (resent_applyRestartState ..) trivial fun hs _ ↦
        (hs.applyRestartState hnames ((hs.task htask).copy _ rfl)).setTask keeps_done
    · exact .of_none
  | passwordRequired n =>
    dsimp only [step]
    split
    · rename_i c row msg htask
      refine .of_some ?_
      exact follows_of_quiet rfl trivial fun hs _ ↦ hs.setTask (hs.task htask).prompt
    · exact .of_none
  | password n secret =>
    dsimp only [step]
    split
    · rename_i c row msg htask
      exact .of_some (follows_password htask)
    · exact .of_none
  | respawnDead c =>
    dsimp only [step]
    split
    · rename_i row hrow
      exact .of_ite fun _ ↦ follows_respawnDead hrow
    · exact .of_none
  | respawned n =>
    dsimp only [step]
    split
    · rename_i c row htask
      refine .of_some (follows_of_quiet rfl trivial fun hs _ ↦ ?_)
      exact (hs.applyRespawn ((hs.task htask).copy _ rfl)).setTask keeps_done
    · exact .of_none
  | failed n =>
    exact .of_some (follows_of_quiet rfl trivial fun hs _ ↦ hs.setTask keeps_done)
  | spawnHost hostId => exact .of_some (follows_spawnHost hostId)
  | status c status =>
    exact .of_some (follows_of_quiet rfl trivial fun hs _ ↦ hs.channelStatus c status)
  | rowStatus c status =>
    exact .of_some (follows_of_quiet rfl trivial fun hs _ ↦ hs.rowStatus c status)
  | destroy c =>
    refine .of_some (follows_of_quiet rfl trivial fun hs _ ↦ ?_)
    exact (hs.rowStatus c .dead).deleteChannel c
  | purge c =>
    refine .of_ite fun _ ↦ follows_of_quiet rfl trivial fun hs _ ↦ ?_
    exact ⟨OrderedMap.forall_get_delete hs.rows, hs.channels, hs.tasks⟩
  | hubRestart env =>
    refine .of_some (follows_of_quiet rfl trivial fun hs _ ↦ ⟨hs.rows, ?_, ?_⟩)
    · intro c ch hch
      cases hch
    · intro t ht
      cases ht
  | restore c =>
    dsimp only [step]
    split
    · exact .of_none
    · rename_i row hrow
      refine .of_ite fun _ ↦ follows_of_quiet rfl trivial fun hs _ ↦ ?_
      obtain ⟨o, ho, hkeeps⟩ := hs.rows c row hrow
      exact (hs.rowStatus c .orphan).setChannel ⟨o, ho, hkeeps.restored⟩
  | serve =>
    exact .of_some (follows_of_quiet rfl trivial fun hs _ ↦ ⟨hs.rows, hs.channels, hs.tasks⟩)

/-! ## Runs -/

/-- The journal of a run is right where each of its steps is. -/
theorem kept_iff_along (hrun : run (step validate) s es = some s') :
    s'.Kept ↔ s.Kept ∧ Along (step validate) (fun s _ s' ↦ s.ResendsRight s') s es := by
  induction es generalizing s with
  | nil =>
    cases hrun
    exact (and_iff_left trivial).symm
  | cons e es ih =>
    rw [run_cons, Option.bind_eq_some_iff] at hrun
    obtain ⟨t, ht, hrun⟩ := hrun
    obtain ⟨new, hnew⟩ := (step_follows ht).grows
    have hkept : t.Kept ↔ s.Kept ∧ s.ResendsRight t := by
      rw [Kept, ← hnew, List.forall_mem_append, resendsRight_iff hnew.symm]
      exact Iff.rfl
    rw [ih hrun, along_cons_of_eq ht, hkept, and_assoc]

/-- What is sent again is what was sent first, with the latest size, where every step of a run is
careful. -/
theorem kept_iff_careful (validate : String → Bool) (es : List Event) (s : Channels)
    (hsize : Along (step validate) (fun s e _ ↦ s.SizeCareful e) empty es)
    (hrun : run (step validate) empty es = some s) :
    s.Kept ↔ Along (step validate) (fun s e _ ↦ s.Careful validate e) empty es := by
  have hempty : empty.Kept := fun _ hx ↦ absurd hx List.not_mem_nil
  rw [kept_iff_along hrun, and_iff_right hempty]
  refine along_congr_under Valid (fun s e s' hs hsize hstep ↦ ?_) valid_empty hsize
  have hfollows := step_follows hstep
  exact ⟨hfollows.right hs, hfollows.valid hs hsize⟩

/-- A channel that is resized, restarted, and spawned again behind a reconnect. -/
theorem kept_iff_careful_two : ∃ s : Channels,
    run (step fun _ ↦ true) empty
      [.spawn "h" ⟨some "/bin/bash", none, some "/", none, none, none, none, none⟩
        ⟨none, none, false, true, none, .sudo, none⟩, .spawned 0 "c", .resize "c" 100 30 true,
      .restart "c" true none none true, .restarted 1 "c", .spawnHost "h"] = some s ∧
      s.resent.length = 2 ∧ s.Kept := by
  have hcareful : ∀ o : Origin, o.settings.Plain ∧ o.settings.elevation = none →
      (o.settings.elevation = none → o.settings.Plain) ∧
        ∀ p command, o.settings.elevation = some p →
          resolveElevationConfig (fun _ ↦ true) none p.1 = some command →
            o.settings.Plain ∧ command = p.2 := by
    intro o ho
    refine ⟨fun _ ↦ ho.1, fun p command hp ↦ ?_⟩
    rw [ho.2] at hp
    cases hp
  refine ⟨?s, ?run, ?length, (kept_iff_careful (fun _ ↦ true) _ _ ?size ?run).mpr ?careful⟩
  case run => rfl
  case length => rfl
  case size =>
    repeat rw [along_cons_of_eq rfl]
    refine ⟨trivial, trivial, ?_, trivial, trivial, trivial, trivial⟩
    intro _ t ht p hp
    obtain rfl := List.mem_singleton.mp ht
    cases hp
  case careful =>
    repeat rw [along_cons_of_eq rfl]
    refine ⟨trivial, trivial, trivial, ?_, trivial, ?_, trivial⟩
    · intro _ o ho
      cases ho
      exact hcareful _ ⟨by decide, rfl⟩
    · intro e he o ho
      obtain rfl := List.mem_singleton.mp he
      cases ho
      exact ⟨by decide, rfl⟩

/-- A restart of a channel that was spawned with a variable. -/
theorem restart_loses_env : ∃ s : Channels,
    run (step fun _ ↦ true) empty
      [.spawn "h"
        ⟨some "/bin/bash", none, some "/", some (OrderedMap.empty.set "A" "1"), none, none, none,
          none⟩ ⟨none, none, false, true, none, .sudo, none⟩, .spawned 0 "c",
      .restart "c" true none none true] = some s ∧ ¬ s.Kept := by
  refine ⟨_, rfl, fun h ↦ ?_⟩
  obtain ⟨o, ho, hsame, -⟩ := h _ (List.mem_singleton.mpr rfl)
  cases ho
  have henv : [] = [("A", "1")] := congrArg (fun x : Settings ↦ x.env.entries) hsame
  cases henv

end Channels

end Lasterm.Hub.Respawns
