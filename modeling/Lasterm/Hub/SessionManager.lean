import Lasterm.Hub.SharedContext

/-!
# The hub as its requests, its timers and its agents drive it

Model of `SessionManager` with its managers, over the context of `Hub.SharedContext`. An `async`
function is cut at each `await`: what stands between two of them is done in one piece, and a `Task`
is what is suspended, with what the code has in its variables. `resume` goes on with a task when
what it waits for has an `Outcome`, and `step` takes one event: a request, a message, a timer, the
loss of an agent, or the resumption of a task. So a run is an interleaving of all of them.

Every write to the context is an action, and the journal of the hub keeps them. What holds under a
condition on the actions is proved on the context alone, and said of the hub through its journal.

An agent is a number from the moment on when its listeners are registered. The profile of a SPAWN,
and what a password prompt is about, are left out. `shutdown` ends the run.
-/

namespace Lasterm.Hub

open Runs

/-- What the listeners of an agent have in their closure. -/
structure AgentObject where
  hostId : String
  session : ℕ
  /-- `instanceof LastermAgent`. -/
  daemon : Bool

/-- A timer of `scheduleReconnect`. -/
structure ReconnectCallback where
  hostId : String
  session : ℕ
  fence : ℕ
  /-- Neither fired nor cleared. -/
  pending : Bool

/-- The promise of an `attachDaemon`. -/
inductive DaemonAttach
  | pending
  | resolved (agent : ℕ)
  | rejected

/-- The arguments of a `handleSpawn`, and the fence that it captures at once. -/
structure SpawnCall where
  client : ℕ
  hostId : String
  elevated : Bool
  /-- The password of an elevated shell is in the cache. -/
  cached : Bool
  fence : ℕ
  deriving DecidableEq

/-- The variables of `handleSpawn` behind the acquisition. -/
structure SpawnBody where
  call : SpawnCall
  hostType : HostKind
  session : ℕ
  /-- The lease, with its acquisition. -/
  lease : Option (ℕ × ℕ)
  deriving DecidableEq

/-- The variables of a `restartChannel`. -/
structure RestartCall where
  channel : ChannelId
  hostId : String
  /-- The set of the channel object, if there is one. -/
  clients : Option ℕ
  elevated : Bool
  cached : Bool
  deriving DecidableEq

/-- The channels of a host that were alive when the hub was stopped. -/
structure HostGroup where
  hostId : String
  hostType : HostKind
  channels : List ChannelId
  deriving DecidableEq

/-- Code that is suspended at an `await`, or behind a message that it has sent. -/
inductive Task
  /-- `handleSpawn` waits for the id of the host. -/
  | spawnResolved (call : SpawnCall)
  /-- The promise of a leader. -/
  | spawnFollowing (call : SpawnCall) (hostType : HostKind) (lease acq : ℕ)
  /-- `getOrCreateSession` of a leader has thrown. -/
  | spawnRefused (lease acq : ℕ)
  /-- `_connectSshAgent`. -/
  | spawnLeading (body : SpawnBody) (lease acq : ℕ)
  | spawnConnected (body : SpawnBody) (lease acq agent : ℕ)
  /-- The fast path, with the agent that was read before. -/
  | spawnReady (body : SpawnBody) (agent : Option ℕ)
  | spawnAwaitsDaemon (body : SpawnBody) (attach : ℕ)
  | spawnSent (body : SpawnBody) (agent : ℕ) (prompts : Bool) (fence : ℕ)
  | spawnAnswered (body : SpawnBody) (agent : ℕ) (retry : Bool)
  | spawnPrompts (body : SpawnBody) (agent : ℕ)
  | attachSent (client : ℕ) (channel : ChannelId) (clients : ℕ)
  | attachRejected (client : ℕ) (channel : ChannelId) (clients : ℕ)
  | respawnSent (client : ℕ) (channel : ChannelId) (session fence : ℕ)
  | respawnAnswered (client : ℕ) (channel : ChannelId) (session fence : ℕ)
  /-- `onReconnectAgent`. -/
  | restartReconnects (call : RestartCall) (session attempt fence : ℕ)
  | restartResumes (call : RestartCall)
  | restartSent (call : RestartCall) (session agent : ℕ) (prompts : Bool) (fence : ℕ)
  | restartPrompts (call : RestartCall) (session agent : ℕ)
  | restartAnswered (call : RestartCall) (session : ℕ) (channel : ChannelId)
  /-- `attachDaemonFresh` waits for `connectOrLaunch`. -/
  | daemonConnects (attach : ℕ) (hostId : String) (session fence : ℕ)
  | daemonWaits (attach : ℕ) (hostId : String) (session agent fence : ℕ)
  /-- The `finally` of an attach. -/
  | daemonSettled (attach : ℕ) (hostId : String)
  /-- `reconnectDaemon`. -/
  | reconnectAwaits (attach session : ℕ)
  /-- `warmRestartLocal`. In `startup`, the hosts that are left follow. -/
  | warmAwaits (attach session : ℕ) (rest : Option (List HostGroup))
  | warmSettles (waiting : List ℕ) (rest : Option (List HostGroup))
  /-- `connectDaemonAgent` in `startup`. -/
  | startupAwaits (attach session : ℕ) (rest : List HostGroup)
  /-- The callback of a reconnect timer waits for `start`. -/
  | reconnecting (hostId : String) (session attempt fence : ℕ)
  /-- A SPAWN of `spawnChannelsForHost`. -/
  | hostSpawn (reAttach : Bool) (channel : ChannelId) (clients fence : ℕ)
  deriving DecidableEq

/-- What a task gets when it goes on. -/
inductive Outcome
  /-- What the task waits for is there, and is in the state. -/
  | settled
  /-- The agent is connected. `late` says that the time of a reconnect is over, here and below. -/
  | connected (late : Bool)
  /-- An SSH agent is connected, and its HELLO is of another version. -/
  | mismatched (late : Bool)
  /-- The connect has failed. -/
  | failed (late : Bool)
  /-- The channels that a daemon reports, and whether they are alive. -/
  | channelStates (states : List (ChannelId × Bool))
  | spawnOk (channel : ChannelId)
  | spawnErr (passwordRequired : Bool)
  | attachOk
  | attachErr (notFound : Bool)
  | timeout
  /-- The answer to a prompt for a password. -/
  | password (given : Bool)

inductive Event
  | startup
  | setHost (hostId : String) (kind : HostKind)
  | connect
  | disconnect (client : ℕ)
  | spawn (client : ℕ) (hostId : String) (elevated cached : Bool)
  | attach (client : ℕ) (channel : ChannelId)
  | detach (client : ℕ) (channel : ChannelId)
  | restart (channel : ChannelId) (cached : Bool)
  | destroy (channel : ChannelId)
  /-- The row of a dead channel is deleted, by a request or by the garbage collector. -/
  | purge (channel : ChannelId)
  | closeSession (session : ℕ)
  | beginQuit
  | timerFires (timer : ℕ)
  /-- CHANNEL_EXIT. -/
  | channelExit (agent : ℕ) (channel : ChannelId)
  /-- HELLO of another version, after the listeners of an SSH agent are registered. -/
  | helloMismatch (agent : ℕ)
  /-- The connection of an agent is over, and its `close` event is still to come. -/
  | lost (agent : ℕ)
  /-- The `close` event. `crashLoop` says that the local agent was restarted too often. -/
  | closed (agent : ℕ) (crashLoop : Bool)
  | resume (task : ℕ) (outcome : Outcome)

/-- A hub that was started on the database `db`. -/
structure SessionHub (db : Database) where
  journal : Journal SharedSessionContext.apply (.opened db)
  acquisitions : Acquisitions
  agentObjects : List AgentObject
  timers : List ReconnectCallback
  reconnectTimers : OrderedMap String ℕ
  /-- The controllers of reconnects, each with its `signal.aborted`. -/
  attempts : List Bool
  reconnectAbortControllers : OrderedMap String ℕ
  attaches : List DaemonAttach
  daemonAttachPromises : OrderedMap String ℕ
  /-- The handlers under `attach:` keys, as the tasks that they belong to. -/
  attachRequests : OrderedMap ChannelId ℕ
  /-- The tasks by number; `none` is a task that is over. -/
  tasks : List (Option Task)
  /-- The SPAWN frames that were sent: to which agent, and the channel that it is to have. -/
  frames : List (ℕ × Option ChannelId)
  /-- `startup` was called. -/
  started : Bool

namespace SessionHub

variable {db : Database}

def start (db : Database) : SessionHub db where
  journal := .start SharedSessionContext.apply (.opened db)
  acquisitions := .empty
  agentObjects := []
  timers := []
  reconnectTimers := .empty
  attempts := []
  reconnectAbortControllers := .empty
  attaches := []
  daemonAttachPromises := .empty
  attachRequests := .empty
  tasks := []
  frames := []
  started := false

variable (h : SessionHub db)

def ctx : SharedSessionContext := h.journal.state

def act (a : ContextAction) : SessionHub db := { h with journal := h.journal.record a }

def launch (t : Task) : SessionHub db := { h with tasks := h.tasks ++ [some t] }

def connected (a : ℕ) : Bool := a ∉ h.ctx.closedAgents

def isDaemon (a : ℕ) : Bool := h.agentObjects[a]?.any AgentObject.daemon

/-- The listeners of a new agent are registered. -/
def wireAgentEvents (hostId : String) (i : ℕ) (daemon : Bool) : SessionHub db × ℕ :=
  ({ h with agentObjects := h.agentObjects ++ [⟨hostId, i, daemon⟩] }, h.agentObjects.length)

/-- `agent.send`. Where the connection is over, a daemon drops the frame, and an SSH agent
throws. -/
def sendSpawn (a : ℕ) (c : Option ChannelId) : Option (SessionHub db) :=
  if h.connected a then some { h with frames := h.frames ++ [(a, c)] }
  else if h.isDaemon a then some h
  else none

/-- The fence is captured where the frame is sent. -/
def sendGuardedSpawn (a : ℕ) (c : Option ChannelId) : Option (SessionHub db × ℕ) :=
  match h.ctx.captureQuitFence with
  | none => none
  | some fence => (h.sendSpawn a c).map fun t ↦ (t, fence)

/-! ## Reconnect timers and controllers -/

/-- Clear the timer of a host, and abort the controller. -/
def clearReconnect (hostId : String) : SessionHub db :=
  { h with
    timers := (h.reconnectTimers.get hostId).elim h.timers fun t ↦
      h.timers.modify t fun x ↦ { x with pending := false }
    reconnectTimers := h.reconnectTimers.delete hostId
    attempts := (h.reconnectAbortControllers.get hostId).elim h.attempts fun n ↦
      h.attempts.set n true
    reconnectAbortControllers := h.reconnectAbortControllers.delete hostId }

/-- A new controller. The one before it is aborted. -/
def newController (hostId : String) : SessionHub db × ℕ :=
  ({ h with
      attempts := ((h.reconnectAbortControllers.get hostId).elim h.attempts fun n ↦
        h.attempts.set n true) ++ [false]
      reconnectAbortControllers := h.reconnectAbortControllers.set hostId h.attempts.length },
    h.attempts.length)

def deleteController (hostId : String) (n : ℕ) : SessionHub db :=
  if h.reconnectAbortControllers.get hostId = some n then
    { h with reconnectAbortControllers := h.reconnectAbortControllers.delete hostId }
  else h

/-- The attempt is neither aborted nor replaced, and the session is current. -/
def attemptCurrent (hostId : String) (i n : ℕ) : Bool :=
  h.attempts[n]? = some false ∧ h.reconnectAbortControllers.get hostId = some n ∧
    h.ctx.sessions.get hostId = some i

/-- `lifecycle.closeSession`. -/
def lifecycleClose (i : ℕ) : SessionHub db :=
  match h.ctx.sessionHost i with
  | none => h
  | some hostId => (h.clearReconnect hostId).act (.closeSession i)

/-- The callers know that there is time left. -/
def scheduleReconnect (hostId : String) (i : ℕ) : SessionHub db :=
  match h.ctx.captureQuitFence with
  | none => h
  | some fence =>
    { h with
      timers := h.timers ++ [⟨hostId, i, fence, true⟩]
      reconnectTimers := h.reconnectTimers.set hostId h.timers.length }

/-! ## AgentConnectionManager -/

/-- `none` where the fence is not current. -/
def getOrCreateSession (hostId : String) (isSsh : Bool) (fence : ℕ) : Option (SessionHub db × ℕ) :=
  let reused := (h.ctx.sessions.get hostId).filter fun i ↦
    (h.ctx.sessionStatus i).any fun status ↦
      status = .active ∨ status = .disconnected ∨ (isSsh = false ∧ status = .starting)
  match reused with
  | some i => some (h, i)
  | none =>
    if h.ctx.isQuitFenceCurrent fence then
      some (h.act (.createSession hostId), h.ctx.sessionStates.length)
    else none

/-- `abortAgentVersionMismatch`. -/
def abortAgentVersionMismatch (hostId : String) (i a : ℕ) : SessionHub db :=
  let t := if h.ctx.agents.get hostId = some a then h.act (.deleteAgent hostId) else h
  (t.act (.closeAgent a)).lifecycleClose i

/-- The attach of the host that is in flight, or a new one. -/
def joinAttach (hostId : String) (i fence : ℕ) : SessionHub db × ℕ :=
  match h.daemonAttachPromises.get hostId with
  | some p => (h, p)
  | none =>
    ({ h.launch (.daemonConnects h.attaches.length hostId i fence) with
        attaches := h.attaches ++ [.pending]
        daemonAttachPromises := h.daemonAttachPromises.set hostId h.attaches.length },
      h.attaches.length)

def settledAttach (outcome : DaemonAttach) : SessionHub db × ℕ :=
  ({ h with attaches := h.attaches ++ [outcome] }, h.attaches.length)

/-- The number of the promise that the call returns. -/
def attachDaemon (hostId : String) (i : ℕ) : SessionHub db × ℕ :=
  match h.ctx.captureQuitFence with
  | none => h.settledAttach .rejected
  | some fence =>
    match h.ctx.agents.get hostId with
    | none => h.joinAttach hostId i fence
    | some a =>
      if h.connected a then h.settledAttach (.resolved a)
      else ((h.act (.deleteAgent hostId)).act (.closeAgent a)).joinAttach hostId i fence

/-- The `catch` of `attachDaemonFresh`, for an agent that is connected. -/
def failAttach (p : ℕ) (hostId : String) (a : ℕ) : SessionHub db :=
  let t := if h.ctx.agents.get hostId = some a then h.act (.deleteAgent hostId) else h
  { t.act (.closeAgent a) with attaches := h.attaches.set p .rejected }

/-- The channels that `spawnChannelsForHost` goes through, with the numbers of their sets. -/
def hostChannels (hostId : String) : List (ChannelId × ℕ) :=
  h.ctx.channels.entries.filterMap fun e ↦
    if e.2.hostId = hostId ∧ e.2.status ≠ ChannelStatus.dead then some (e.1, e.2.clients) else none

/-- One round of the loop. The task that waits for the answer comes last. -/
def spawnHostChannel (reAttach : Bool) (a fence : ℕ) (e : ChannelId × ℕ) : Option (SessionHub db) :=
  if h.ctx.isQuitFenceCurrent fence then
    (h.sendSpawn a (some e.1)).map fun t ↦ t.launch (.hostSpawn reAttach e.1 e.2 fence)
  else some h

/-- The second component says that a frame could not be sent, which throws. -/
def spawnHostChannels (reAttach : Bool) (a fence : ℕ) :
    SessionHub db → List (ChannelId × ℕ) → SessionHub db × Bool
  | h, [] => (h, false)
  | h, e :: es =>
    match h.spawnHostChannel reAttach a fence e with
    | none => (h, true)
    | some t => spawnHostChannels reAttach a fence t es

def spawnChannelsForHost (hostId : String) (a : ℕ) (reAttach : Bool) : SessionHub db × Bool :=
  match h.ctx.captureQuitFence with
  | none => (h, false)
  | some fence => spawnHostChannels reAttach a fence h (h.hostChannels hostId)

/-- A promise is settled, and its `finally` follows. -/
def settleAttach (p : ℕ) (hostId : String) (outcome : DaemonAttach) : SessionHub db × Option Task :=
  ({ h with attaches := h.attaches.set p outcome }, some (.daemonSettled p hostId))

/-- `warmRestartLocal`, up to the agent. Where the hub is quitting it throws, and the promise that
is rejected stands for that. -/
def warmRestartLocal (i : ℕ) (crashLoop : Bool) (rest : Option (List HostGroup)) :
    SessionHub db × Option Task :=
  match h.ctx.sessionHost i with
  | none => (h, none)
  | some hostId =>
    if h.ctx.quitting = false ∧ crashLoop then (h.lifecycleClose i, none)
    else
      let (t, p) := h.attachDaemon hostId i
      (t, some (.warmAwaits p i rest))

/-! ## Startup -/

/-- `listAliveChannelsWithHost`, with the host and its type. -/
def aliveChannels : List (ChannelId × String × HostKind) :=
  h.ctx.channelRows.entries.filterMap fun e ↦
    if e.2.status = ChannelStatus.dead then none
    else
      match h.ctx.sessionHost e.2.sessionId with
      | none => none
      | some hostId => (h.ctx.hosts.get hostId).map fun kind ↦ (e.1, hostId, kind)

/-- The channels by host, hosts in the order in which they come up. -/
def byHost : List HostGroup :=
  let alive := h.aliveChannels
  (alive.map fun e ↦ e.2.1).dedup.filterMap fun hostId ↦
    ((alive.filter fun e ↦ e.2.1 = hostId).head?).map fun first ↦
      ⟨hostId, first.2.2, (alive.filter fun e ↦ e.2.1 = hostId).map Prod.fst⟩

/-- The first session of a host that is not closed. -/
def openSession (hostId : String) : Option ℕ :=
  h.ctx.sessionStates.findIdx? fun x ↦ x.hostId = hostId ∧ x.row ≠ SessionStatus.closed

/-- The hosts that are left. Behind the last one the routes are registered. -/
def startupHosts (h : SessionHub db) : List HostGroup → SessionHub db × Option Task
  | [] => (h.act .serve, none)
  | g :: rest =>
    match h.openSession g.hostId with
    | none => startupHosts (h.act (.bury g.channels)) rest
    | some i =>
      let t := h.act (.markDisconnected g.hostId)
      -- `captureQuitFence` throws, and the hub does not start.
      if t.ctx.quitting then (t, none)
      else
        let t := t.act (.restoreHost i g.channels)
        match g.hostType with
        | .ssh => startupHosts (t.act (.bury g.channels)) rest
        | .daemon =>
          let (t, p) := t.attachDaemon g.hostId i
          (t, some (.startupAwaits p i rest))

/-- `startup` goes on behind a warm restart. -/
def afterWarmRestart (rest : Option (List HostGroup)) : SessionHub db × Option Task :=
  match rest with
  | none => (h, none)
  | some groups => h.startupHosts groups

/-! ## handleSpawn -/

/-- The `finally` of `handleSpawn`. -/
def releaseLease (body : SpawnBody) : SessionHub db :=
  match body.lease with
  | none => h
  | some (l, _) =>
    { h with
      acquisitions := (h.acquisitions.release l (h.ctx.sessionHasChannels body.session)).1 }

def failConnectingAcq (l q : ℕ) (message : String) : SessionHub db :=
  { h with acquisitions := ((h.acquisitions.fail q message).release l false).1 }

/-- Send SPAWN to the agent. Without a cached password, an elevated shell may ask for one. -/
def sendSpawnAndWait (body : SpawnBody) (a : ℕ) (prompts : Bool) : SessionHub db × Option Task :=
  match h.sendGuardedSpawn a none with
  | none => (h.releaseLease body, none)
  | some (t, fence) => (t, some (.spawnSent body a prompts fence))

/-- Elevation is for local hosts. -/
def elevates (body : SpawnBody) : Bool := body.call.elevated ∧ body.hostType = .daemon

/-- The client that asked for the SPAWN is gone. -/
def abandonSpawn (body : SpawnBody) : SessionHub db :=
  match body.lease with
  | none => h.act (.abandonSession body.session)
  | some (l, q) =>
    let (acqs, reaped) := h.acquisitions.release l (h.ctx.sessionHasChannels body.session)
    let t := { h with acquisitions := acqs }
    if reaped ∨ (acqs.acqs[q]?.any fun x ↦ x.leases ≠ []) then t
    else t.act (.abandonSession body.session)

/-- What follows the acquisition. -/
def spawnBody (body : SpawnBody) (agent : Option ℕ) : SessionHub db × Option Task :=
  if h.ctx.isConnected body.call.client = false then (h.abandonSpawn body, none)
  else
    match agent with
    | some a =>
      if h.connected a ∨ body.hostType = .ssh then
        h.sendSpawnAndWait body a (elevates body ∧ body.call.cached = false)
      else
        let (t, p) := h.attachDaemon body.call.hostId body.session
        (t, some (.spawnAwaitsDaemon body p))
    | none =>
      let (t, p) := h.attachDaemon body.call.hostId body.session
      (t, some (.spawnAwaitsDaemon body p))

/-- The leader acquires, and connects. -/
def leadSpawn (call : SpawnCall) (hostType : HostKind) : SessionHub db × Option Task :=
  let l := h.acquisitions.leases.length
  let q := h.acquisitions.acqs.length
  let t := { h with acquisitions := h.acquisitions.acquire call.hostId (toString call.client) }
  match t.getOrCreateSession call.hostId true call.fence with
  | none => (t, some (.spawnRefused l q))
  | some (t, i) => (t, some (.spawnLeading ⟨call, hostType, i, some (l, q)⟩ l q))

/-- Behind the id of the host. -/
def spawnOn (call : SpawnCall) (hostType : HostKind) : SessionHub db × Option Task :=
  let agent := h.ctx.agents.get call.hostId
  if h.ctx.agentConnected call.hostId = false ∧ hostType = .ssh then
    match h.acquisitions.map.get call.hostId with
    | none => h.leadSpawn call hostType
    | some q =>
      match h.acquisitions.join q (toString call.client) with
      | (_, none) => h.leadSpawn call hostType
      | (acqs, some l) =>
        ({ h with acquisitions := acqs }, some (.spawnFollowing call hostType l q))
  else
    match h.getOrCreateSession call.hostId (hostType = .ssh) call.fence with
    | none => (h, none)
    | some (t, i) => (t, some (.spawnReady ⟨call, hostType, i, none⟩ agent))

/-- The session of a promise. -/
def sessionNamed (name : String) : Option ℕ :=
  (List.range h.ctx.sessionStates.length).find? fun i ↦ toString i = name

/-- The connect of a follower's leader has come to an end. -/
def followed (call : SpawnCall) (hostType : HostKind) (l q : ℕ) :
    Option (SessionHub db × Option Task) :=
  match (h.acquisitions.acqs[q]?.bind Acquisition.connectPromise) with
  | none => none
  | some (.rejected _) =>
    some ({ h with acquisitions := (h.acquisitions.release l false).1 }, none)
  | some (.resolved name) =>
    match h.sessionNamed name with
    | none => none
    | some i =>
      let body : SpawnBody := ⟨call, hostType, i, some (l, q)⟩
      if h.ctx.sessions.get call.hostId = some i ∧ h.ctx.agentConnected call.hostId then
        some (h.spawnBody body (h.ctx.agents.get call.hostId))
      else some (h.releaseLease body, none)

/-- The connect of a leader has failed. -/
def leaderFailed (body : SpawnBody) (l q : ℕ) : SessionHub db :=
  (h.act (.connectFailed body.session)).failConnectingAcq l q "SSH connection failed"

/-- `start` of the agent of a leader is over. -/
def leaderStarted (body : SpawnBody) (l q : ℕ) (mismatched : Bool) : SessionHub db × Option Task :=
  let hostId := body.call.hostId
  if (h.acquisitions.acqs[q]?.any Acquisition.aborted) ∨
    h.ctx.sessions.get hostId ≠ some body.session
  then
    (h.leaderFailed body l q, none)
  else
    let (t, a) := (h.act (.activateSession body.session)).wireAgentEvents hostId body.session false
    if mismatched then
      ((t.abortAgentVersionMismatch hostId body.session a).leaderFailed body l q, none)
    else (t, some (.spawnConnected body l q a))

/-- The guard of a leader, and the commit. -/
def leaderConnected (body : SpawnBody) (l q a : ℕ) : SessionHub db × Option Task :=
  let hostId := body.call.hostId
  if h.acquisitions.map.get hostId = some q
      ∧ (h.acquisitions.acqs[q]?.any fun x ↦ x.state = .connecting ∧ x.aborted = false)
      ∧ h.ctx.sessions.get hostId = some body.session then
    if h.ctx.isQuitFenceCurrent body.call.fence then
      let t := h.act (.adoptAgent hostId a)
      let t := { t with acquisitions := t.acquisitions.commit q (toString body.session) }
      if t.connected a then t.spawnBody body (some a) else (t.releaseLease body, none)
    else
      (h.failConnectingAcq l q "Hub is quitting; local work cannot be started or restarted", none)
  else
    (((h.act (.closeAgent a)).act (.dropSession body.session)).failConnectingAcq l q
      "SSH connect aborted", none)

/-! ## handleAttach and restartChannel -/

/-- The host of a channel that has a row. -/
def channelHost (c : ChannelId) : Option String :=
  (h.ctx.channelRows.get c).bind fun row ↦ h.ctx.sessionHost row.sessionId

def respawnDeadChannel (k : ℕ) (c : ChannelId) : SessionHub db × Option Task :=
  match h.channelHost c with
  | none => (h, none)
  | some hostId =>
    match h.ctx.sessions.get hostId, h.ctx.agents.get hostId with
    | some i, some a =>
      if h.ctx.sessionStatus i = some .active ∧ h.connected a then
        match h.sendGuardedSpawn a (some c) with
        | none => (h, none)
        | some (t, fence) => (t, some (.respawnSent k c i fence))
      else (h, none)
    | _, _ => (h, none)

/-- `n` is the number that a task of the call gets. -/
def handleAttach (k : ℕ) (c : ChannelId) (n : ℕ) : SessionHub db × Option Task :=
  if h.ctx.isConnected k = false ∨ h.ctx.quitting then (h, none)
  else
    match h.ctx.channels.get c with
    | none =>
      if (h.ctx.channelRows.get c).any (·.status = .dead) then h.respawnDeadChannel k c
        else (h, none)
    | some ch =>
      let t := h.act (.handleAttach k c)
      if t.ctx.agentConnected ch.hostId then
        ({ t with attachRequests := t.attachRequests.set c n }, some (.attachSent k c ch.clients))
      else (t, none)

/-- The client that is asked for a password: one that is attached. -/
def promptClient (clients : Option ℕ) : Option ℕ :=
  ((clients.elim .empty h.ctx.clientSet).elems.head?).filter h.ctx.isConnected

/-- The part of `restartChannel` behind the reconnect. -/
def restartOn (call : RestartCall) : SessionHub db × Option Task :=
  match h.ctx.sessions.get call.hostId, h.ctx.agents.get call.hostId with
  | some i, some a =>
    if (h.ctx.sessionStatus i = some .active ∨ h.ctx.sessionStatus i = some .detached)
        ∧ h.connected a then
      match h.sendGuardedSpawn a (some call.channel) with
      | none => (h, none)
      | some (t, fence) =>
        (t, some (.restartSent call i a
          (call.elevated ∧ (h.promptClient call.clients).isSome ∧ call.cached = false) fence))
    else (h, none)
  | _, _ => (h, none)

/-- `onReconnectAgent`, up to `start`. -/
def reconnectAgent (call : RestartCall) : SessionHub db × Option Task :=
  match h.ctx.captureQuitFence, h.ctx.sessions.get call.hostId with
  | some fence, some i =>
    if h.ctx.hosts.get call.hostId = some .ssh ∧ (h.ctx.clients.any WsClient.connected) then
      let (t, n) := h.newController call.hostId
      (t, some (.restartReconnects call i n fence))
    else (h, none)
  | _, _ => (h, none)

def restartChannel (c : ChannelId) (cached : Bool) : SessionHub db × Option Task :=
  if h.ctx.quitting then (h, none)
  else
    match h.ctx.channelRows.get c, h.channelHost c with
    | some row, some hostId =>
      let call : RestartCall := ⟨c, hostId, h.ctx.channelSet c, row.elevated, cached⟩
      if h.ctx.agentConnected hostId then h.restartOn call else h.reconnectAgent call
    | _, _ => (h, none)

/-- `start` of a reconnect is over. `none` as the agent says that the attempt is void. -/
def reconnected (hostId : String) (i n : ℕ) : SessionHub db × Option ℕ :=
  if h.attemptCurrent hostId i n then
    let t := (h.deleteController hostId n).act (.activateSession i)
    let (t, a) := t.wireAgentEvents hostId i false
    (t, some a)
  else (h, none)

/-! ## Closing -/

/-- `SessionManager.closeSession`. -/
def closeSession (i : ℕ) : SessionHub db :=
  match h.ctx.sessionHost i with
  | none => h
  | some hostId =>
    if h.ctx.sessions.get hostId = some i then
      let t := (h.ctx.agents.get hostId).elim h fun a ↦
        (h.act (.closeAgent a)).act (.deleteAgent hostId)
      { t with acquisitions := t.acquisitions.close hostId }.lifecycleClose i
    else h.act (.closeRow i)

def destroy (c : ChannelId) : SessionHub db :=
  match h.ctx.channelRows.get c with
  | none => h
  | some row =>
    if row.status = .dead then h.act (.purgeRow c)
    else if (h.ctx.channels.get c).isSome then h.act (.destroyChannel c)
    else h.act (.markRowDead c)

def beginQuit : SessionHub db :=
  if h.ctx.quitting then h
  else
    { h.act .beginQuit with
      acquisitions := h.acquisitions.shutdownAll
      timers := h.reconnectTimers.entries.foldl
        (fun ts e ↦ ts.modify e.2 fun x ↦ { x with pending := false }) h.timers
      reconnectTimers := .empty
      attempts := h.reconnectAbortControllers.entries.foldl (fun xs e ↦ xs.set e.2 true) h.attempts
      reconnectAbortControllers := .empty }

/-- The callback of a reconnect timer, up to `start`. -/
def timerFires (x : ReconnectCallback) : SessionHub db × Option Task :=
  let t := { h with reconnectTimers := h.reconnectTimers.delete x.hostId }
  if t.ctx.sessions.get x.hostId = some x.session ∧
    t.ctx.sessionStatus x.session ≠ some .closed then
    if (t.ctx.hosts.get x.hostId).isSome then
      let (t, n) := t.newController x.hostId
      (t, some (.reconnecting x.hostId x.session n x.fence))
    else (t.lifecycleClose x.session, none)
  else (t, none)

/-- The `catch` of the callback. -/
def reconnectFailed (hostId : String) (i n : ℕ) (late : Bool) : SessionHub db :=
  let t := h.deleteController hostId n
  if t.attempts[n]? = some true then t
  else if late then
    if t.ctx.sessions.get hostId = some i then t.lifecycleClose i else t
  else t.scheduleReconnect hostId i

/-- The `close` listener. -/
def agentClosed (a : ℕ) (crashLoop : Bool) : SessionHub db × Option Task :=
  match h.agentObjects[a]? with
  | none => (h, none)
  | some agent =>
    if h.ctx.agents.get agent.hostId = some a then
      let ssh : Bool := h.ctx.hosts.get agent.hostId = some .ssh
      let t := h.act (.agentClosed agent.hostId (agent.daemon ∨ ssh))
      match h.ctx.sessions.get agent.hostId with
      | none => (t, none)
      | some i =>
        if agent.daemon then
          let (t, p) := t.attachDaemon agent.hostId i
          (t, some (.reconnectAwaits p i))
        else if ssh then (t.scheduleReconnect agent.hostId i, none)
        else t.warmRestartLocal i crashLoop none
    else (h, none)

def helloMismatch (a : ℕ) : SessionHub db :=
  match h.agentObjects[a]? with
  | none => h
  | some agent =>
    if agent.daemon = false ∧ h.connected a then
      h.abortAgentVersionMismatch agent.hostId agent.session a
    else h

/-! ## Tasks -/

/-- The attach of a daemon has an agent. -/
def daemonConnected (p : ℕ) (hostId : String) (i fence : ℕ) : SessionHub db × Option Task :=
  let (t, a) := h.wireAgentEvents hostId i true
  if t.ctx.isQuitFenceCurrent fence then (t, some (.daemonWaits p hostId i a fence))
  else (t.failAttach p hostId a, some (.daemonSettled p hostId))

def daemonReported (p : ℕ) (hostId : String) (i a fence : ℕ) (states : List (ChannelId × Bool)) :
    SessionHub db × Option Task :=
  if h.ctx.isQuitFenceCurrent fence then
    (h.act (.daemonReady i a states)).settleAttach p hostId (.resolved a)
  else (h.failAttach p hostId a, some (.daemonSettled p hostId))

/-- The agent of a warm restart is there. -/
def warmRestarted (hostId : String) (a : ℕ) (rest : Option (List HostGroup)) :
    SessionHub db × Option Task :=
  let n := h.tasks.length
  let (t, _) := h.spawnChannelsForHost hostId a false
  (t, some (.warmSettles (List.range' n (t.tasks.length - n)) rest))

/-- Go on with a task. The task that follows takes its number. -/
def resume (n : ℕ) : Task → Outcome → Option (SessionHub db × Option Task)
  | .spawnResolved call, .settled =>
    match h.ctx.hosts.get call.hostId with
    | none => some (h, none)
    | some hostType => some (h.spawnOn call hostType)
  | .spawnFollowing call hostType l q, .settled => h.followed call hostType l q
  | .spawnRefused l q, .settled =>
    some
      (h.failConnectingAcq l q "Hub is quitting; local work cannot be started or restarted", none)
  | .spawnLeading body l q, .connected _ => some (h.leaderStarted body l q false)
  | .spawnLeading body l q, .mismatched _ => some (h.leaderStarted body l q true)
  | .spawnLeading body l q, .failed _ => some (h.leaderFailed body l q, none)
  | .spawnConnected body l q a, .settled => some (h.leaderConnected body l q a)
  | .spawnReady body agent, .settled => some (h.spawnBody body agent)
  | .spawnAwaitsDaemon body p, .settled =>
    match h.attaches[p]? with
    | some (.resolved a) =>
      some (h.sendSpawnAndWait body a (elevates body ∧ body.call.cached = false))
    | some .rejected => some (h.releaseLease body, none)
    | _ => none
  | .spawnSent body a _ fence, .spawnOk c =>
    if h.ctx.isQuitFenceCurrent fence = false then some (h, some (.spawnAnswered body a false))
    -- The INSERT throws, and the promise stays pending.
    else if (h.ctx.channelRows.get c).isSome then some (h, none)
    else
      some (h.act (.spawned body.call.client c body.session (elevates body)),
        some (.spawnAnswered body a false))
  | .spawnSent body a prompts fence, .spawnErr passwordRequired =>
    some (h, some (.spawnAnswered body a
      (h.ctx.isQuitFenceCurrent fence ∧ prompts ∧ passwordRequired)))
  | .spawnSent body a _ _, .timeout => some (h, some (.spawnAnswered body a false))
  | .spawnAnswered body _ false, .settled => some (h.releaseLease body, none)
  | .spawnAnswered body a true, .settled => some (h, some (.spawnPrompts body a))
  | .spawnPrompts body a, .password true => some (h.sendSpawnAndWait body a false)
  | .spawnPrompts body _, .password false => some (h.releaseLease body, none)
  | .attachSent _ c _, .attachOk =>
    if h.attachRequests.get c = some n then
      some ({ h with attachRequests := h.attachRequests.delete c }, none)
    else none
  | .attachSent k c clients, .attachErr notFound =>
    if h.attachRequests.get c = some n then
      some ({ h with attachRequests := h.attachRequests.delete c },
        if notFound then some (.attachRejected k c clients) else none)
    else none
  -- The key is deleted whosever handler stands there.
  | .attachSent _ c _, .timeout =>
    some ({ h with attachRequests := h.attachRequests.delete c }, none)
  | .attachRejected k c clients, .settled => some (h.act (.attachRejected k c clients), none)
  | .respawnSent k c i fence, .spawnOk _ =>
    some (h, if h.ctx.isQuitFenceCurrent fence then some (.respawnAnswered k c i fence) else none)
  | .respawnSent _ _ _ _, .spawnErr _ => some (h, none)
  | .respawnSent _ _ _ _, .timeout => some (h, none)
  | .respawnAnswered k c i fence, .settled =>
    some (if h.ctx.isQuitFenceCurrent fence then h.act (.respawned k c i) else h, none)
  | .restartReconnects call i attempt fence, .connected _ =>
    match h.reconnected call.hostId i attempt with
    | (t, none) => some (t, none)
    | (t, some a) =>
      if t.ctx.isQuitFenceCurrent fence then
        some (t.act (.adoptAgent call.hostId a), some (.restartResumes call))
      else some (t, none)
  | .restartReconnects call i attempt _, .mismatched _ =>
    match h.reconnected call.hostId i attempt with
    | (t, none) => some (t, none)
    | (t, some a) => some (t.abortAgentVersionMismatch call.hostId i a, none)
  | .restartReconnects call _ attempt _, .failed _ =>
    some (h.deleteController call.hostId attempt, none)
  | .restartResumes call, .settled => some (h.restartOn call)
  | .restartSent call i _ _ fence, .spawnOk c =>
    some (h, if h.ctx.isQuitFenceCurrent fence then some (.restartAnswered call i c) else none)
  | .restartSent call i a prompts fence, .spawnErr passwordRequired =>
    some (h, if h.ctx.isQuitFenceCurrent fence ∧ prompts ∧ passwordRequired then
      some (.restartPrompts call i a) else none)
  | .restartSent _ _ _ _ _, .timeout => some (h, none)
  | .restartPrompts call i a, .password true =>
    match h.sendGuardedSpawn a (some call.channel) with
    | none => some (h, none)
    | some (t, fence) => some (t, some (.restartSent call i a false fence))
  | .restartPrompts _ _ _, .password false => some (h, none)
  | .restartAnswered call i c, .settled =>
    some (if h.ctx.quitting then h
      else h.act (.applyRestartState c call.channel i call.clients call.elevated), none)
  | .daemonConnects p hostId i fence, .connected _ => some (h.daemonConnected p hostId i fence)
  | .daemonConnects p hostId _ _, .failed _ => some (h.settleAttach p hostId .rejected)
  | .daemonWaits p hostId i a fence, .channelStates states =>
    some (h.daemonReported p hostId i a fence states)
  | .daemonWaits p hostId _ a _, .failed _ =>
    some (h.failAttach p hostId a, some (.daemonSettled p hostId))
  | .daemonSettled p hostId, .settled =>
    some (if h.daemonAttachPromises.get hostId = some p then
      { h with daemonAttachPromises := h.daemonAttachPromises.delete hostId } else h, none)
  | .reconnectAwaits p i, .settled =>
    match h.attaches[p]? with
    | some (.resolved _) => some (h, none)
    | some .rejected => some (h.lifecycleClose i, none)
    | _ => none
  | .warmAwaits p i rest, .settled =>
    match h.attaches[p]?, h.ctx.sessionHost i with
    | some (.resolved a), some hostId => some (h.warmRestarted hostId a rest)
    | some .rejected, _ => some ((h.lifecycleClose i).afterWarmRestart rest)
    | _, _ => none
  | .warmSettles waiting rest, .settled =>
    if waiting.all fun m ↦ h.tasks[m]? = some none then some (h.afterWarmRestart rest) else none
  | .startupAwaits p i rest, .settled =>
    match h.attaches[p]? with
    | some (.resolved _) => some (h.startupHosts rest)
    | some .rejected =>
      if h.ctx.quitting then some (h, none) else some (h.warmRestartLocal i false (some rest))
    | _ => none
  | .reconnecting hostId i attempt fence, .connected late =>
    match h.reconnected hostId i attempt with
    | (t, none) => some (t, none)
    | (t, some a) =>
      if t.ctx.isQuitFenceCurrent fence then
        match (t.act (.adoptAgent hostId a)).spawnChannelsForHost hostId a true with
        | (t, false) => some (t, none)
        | (t, true) => some (t.reconnectFailed hostId i attempt late, none)
      else some (t.reconnectFailed hostId i attempt late, none)
  | .reconnecting hostId i attempt _, .mismatched late =>
    match h.reconnected hostId i attempt with
    | (t, none) => some (t, none)
    | (t, some a) =>
      some ((t.abortAgentVersionMismatch hostId i a).reconnectFailed hostId i attempt late, none)
  | .reconnecting hostId i attempt _, .failed late =>
    some (h.reconnectFailed hostId i attempt late, none)
  | .hostSpawn reAttach c clients fence, .spawnOk _ =>
    some
      (if h.ctx.isQuitFenceCurrent fence then h.act (.hostSpawned reAttach c clients) else h, none)
  | .hostSpawn _ c _ fence, .spawnErr _ =>
    some (if h.ctx.isQuitFenceCurrent fence then h.act (.hostSpawnFailed c) else h, none)
  -- The timer does not look at the fence.
  | .hostSpawn _ c _ _, .timeout => some (h.act (.hostSpawnFailed c), none)
  | _, _ => none

/-! ## Events -/

/-- Code that has run up to its first `await`. -/
def toAwait (r : SessionHub db × Option Task) : SessionHub db := r.2.elim r.1 r.1.launch

/-- One event. `none` says that it cannot happen. -/
def step : Event → Option (SessionHub db)
  | .startup =>
    if h.started then none
    else some (toAwait ({ h with started := true }.startupHosts h.byHost))
  | .setHost hostId kind => some (h.act (.setHost hostId kind))
  | .connect => if h.ctx.serving then some (h.act .addClient) else none
  | .disconnect k => some (h.act (.removeClient k))
  | .spawn k hostId elevated cached =>
    if h.ctx.isConnected k then
      match h.ctx.captureQuitFence with
      | none => some h
      | some fence => some (h.launch (.spawnResolved ⟨k, hostId, elevated, cached, fence⟩))
    else none
  | .attach k c => some (toAwait (h.handleAttach k c h.tasks.length))
  | .detach k c => some (h.act (.detachClient k c))
  | .restart c cached => if h.ctx.serving then some (toAwait (h.restartChannel c cached)) else none
  | .destroy c => if h.ctx.serving then some (h.destroy c) else none
  | .purge c => some (h.act (.purgeRow c))
  | .closeSession i => if h.ctx.serving then some (h.closeSession i) else none
  | .beginQuit => some h.beginQuit
  | .timerFires t =>
    match h.timers[t]? with
    | none => none
    | some x =>
      if x.pending then
        some (toAwait ({ h with
          timers := h.timers.modify t fun x ↦ { x with pending := false } }.timerFires x))
      else none
  | .channelExit a c =>
    if a < h.agentObjects.length ∧ h.connected a then some (h.act (.channelExit c)) else none
  | .helloMismatch a => some (h.helloMismatch a)
  | .lost a => if a < h.agentObjects.length then some (h.act (.closeAgent a)) else none
  | .closed a crashLoop =>
    if h.connected a then none else some (toAwait (h.agentClosed a crashLoop))
  | .resume n outcome =>
    match h.tasks[n]? with
    | some (some t) => (h.resume n t outcome).map fun r ↦ { r.1 with tasks := r.1.tasks.set n r.2 }
    | _ => none

/-! ## Invariants of the context -/

/-- Every action that the hub has taken met the condition, in the state in which it was taken. -/
def Issued (C : SharedSessionContext → ContextAction → Prop) : Prop :=
  h.journal.All fun s a _ ↦ C s a

instance (C : SharedSessionContext → ContextAction → Prop) [∀ s a, Decidable (C s a)] :
    Decidable (h.Issued C) :=
  inferInstanceAs (Decidable (h.journal.All fun s a _ ↦ C s a))

variable {h} in
/-- What actions under a condition keep holds of the context, whatever has happened. -/
theorem ctx_invariant (Inv : SharedSessionContext → Prop)
    {C : SharedSessionContext → ContextAction → Prop}
    (hstep : ∀ s a, Inv s → C s a → Inv (s.apply a)) (h₀ : Inv (.opened db)) (hC : h.Issued C) :
    Inv h.ctx :=
  Journal.invariant Inv hstep h₀ hC

/-- A SPAWN on a host with a daemon, up to the frame. -/
def spawning : List Event :=
  [.startup, .connect, .spawn 0 "desk" false false, .resume 0 .settled, .resume 0 .settled,
    .resume 1 (.connected false), .resume 1 (.channelStates []), .resume 0 .settled]

end SessionHub

end Lasterm.Hub
