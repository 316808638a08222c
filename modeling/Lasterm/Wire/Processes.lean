import Lasterm.Hub.Dispatch

/-!
# Channels and processes

A process is started and ended by the agent, and the hub keeps the channel it belongs to. Between
them go SPAWN and DESTROY one way, and SPAWN_OK, SPAWN_ERR, CHANNEL_EXIT and the report of a
daemon's channels the other way. A `Host` is what the hub and the agent of one host know, with the
messages on the way; `Host.step` is one piece of code of either side that runs to its end.

A daemon outlives its connection and an agent started over SSH does not. What a closed connection
still held for the agent is kept in `stale`: the handler of the connection may come to it or not,
and its answers go nowhere. CHANNEL_EXIT goes to the connection over which the process was spawned.

The channels and rows of two hosts are apart, so a hub with its agents is a family of hosts
(`Hosts`). Request ids and the ids of new channels are ULIDs, and never come twice. Attaching to a
channel, quitting, a restart of the hub and the purge of dead rows are left out, and so are the
scheduler, the chunker and what clients are told.
-/

namespace Lasterm.Wire

open Hub

/-! ## State -/

inductive HostType where
  | daemon
  | ssh
  deriving DecidableEq

/-- The handlers of `pendingRequests` that wait for the answer to a SPAWN. -/
inductive SpawnRequest where
  /-- `sendSpawnAndWait`. -/
  | spawn
  /-- `sendRestartSpawn`. -/
  | restart (previous : ChannelId)
  /-- `respawnDeadChannel`. -/
  | respawn (c : ChannelId)
  /-- `spawnChannelsForHost`, for one channel; `reattach` says for which of its two callers. -/
  | rehost (c : ChannelId) (reattach : Bool)

inductive Link where
  | down
  /-- Open, and the report of the daemon is awaited; the agent is not in `ctx.agents`. -/
  | handshake
  | up
  deriving DecidableEq

inductive ToAgent where
  | spawn (requestId : String) (channelId : Option ChannelId)
  | destroy (channelId : ChannelId)
  deriving DecidableEq

inductive ToHub where
  | spawnOk (requestId : String) (channelId : ChannelId)
  | spawnErr (requestId : String)
  | channelExit (channelId : ChannelId)
  /-- AGENT_CHANNEL_STATE for each channel, and CHANNEL_STATE_END. -/
  | channelStates (channelIds : List ChannelId)
  deriving DecidableEq

/-- The request that a message is about. -/
def ToAgent.requestId : ToAgent → Option String
  | .spawn requestId _ => some requestId
  | .destroy _ => none

def ToHub.requestId : ToHub → Option String
  | .spawnOk requestId _ | .spawnErr requestId => some requestId
  | _ => none

/-- What became of a process for which SPAWN_OK was sent. -/
inductive ProcessStage where
  /-- In the registry of the agent. -/
  | registered
  /-- DESTROY signalled it and took it out of the registry. -/
  | signalled
  /-- The cleanup of an older process of the channel took it out of the registry. -/
  | stray
  /-- CHANNEL_EXIT was sent. -/
  | exited
  deriving DecidableEq

structure Process where
  channelId : ChannelId
  /-- The connection whose frames its reader sends. -/
  connection : ℕ
  stage : ProcessStage

/-- One host: the hub's side, the connection and the agent. -/
structure Host where
  hostType : HostType
  channels : ChannelId → Option ChannelStatus
  rows : ChannelId → Option ChannelStatus
  pending : String → Option SpawnRequest
  link : Link
  connection : ℕ
  toAgent : List ToAgent
  toHub : List ToHub
  stale : List (ℕ × ToAgent)
  processes : List Process

/-- What happens next. -/
inductive HostEvent where
  /-- `handleSpawn` reaches its SPAWN. -/
  | spawn (requestId : String)
  /-- `restartChannel`, or the rest of it behind a new connection or a password prompt. -/
  | restart (requestId : String) (c : ChannelId) (resumed : Bool)
  | respawn (requestId : String) (c : ChannelId)
  | rehost (requestId : String) (c : ChannelId) (reattach : Bool)
  | timeout (requestId : String)
  | destroyChannel (c : ChannelId)
  | closeSession
  /-- The last client of a channel leaves it. -/
  | detach (c : ChannelId)
  /-- The hub handles a message; `clients` says whether the channel has clients. -/
  | receive (clients : Bool)
  /-- The connection ends. -/
  | drop
  | connect
  /-- The agent handles a message: whether the terminal starts, or is signalled, and the id that a
  new channel gets. -/
  | handle (ok : Bool) (ulid : ChannelId)
  /-- The handler of a closed connection handles a message that it had read. -/
  | handleStale (i : ℕ) (ok : Bool) (ulid : ChannelId)
  | loseStale (i : ℕ)
  /-- The reader of a process sends CHANNEL_EXIT. -/
  | exit (i : ℕ)

namespace Host

def new (hostType : HostType) : Host :=
  ⟨hostType, fun _ ↦ none, fun _ ↦ none, fun _ ↦ none, .down, 0, [], [], [], []⟩

/-! ## The hub -/

section Hub

variable (h : Host) (c : ChannelId) (requestId : String)

/-- The channel is in `ctx.channels` with a status other than dead. -/
def alive : Bool := (h.channels c).any (· ≠ .dead)

/-- `StateBroadcaster.updateChannelStatus`. -/
@[simps] def updateChannelStatus (status : ChannelStatus) : Host :=
  { h with
    channels := Function.update h.channels c ((h.channels c).map fun _ ↦ status)
    rows := Function.update h.rows c ((h.rows c).map fun _ ↦ status) }

@[simps] def deleteChannel : Host := { h with channels := Function.update h.channels c none }

def retireChannel : Host := (h.updateChannelStatus c .dead).deleteChannel c

/-- The row and the entry of a channel whose process is running. -/
@[simps] def setLive : Host :=
  { h with
    channels := Function.update h.channels c (some .live)
    rows := Function.update h.rows c ((h.rows c).map fun _ ↦ .live) }

/-- The INSERT of a row with its channel. -/
@[simps] def createChannel : Host :=
  { h with
    channels := Function.update h.channels c (some .live)
    rows := Function.update h.rows c (some .live) }

def applyRestartState (previous : ChannelId) : Host :=
  if c = previous then h.setLive c
  else
    let h := h.retireChannel previous
    if (h.rows c).isSome then h.setLive c else h.createChannel c

@[simps] def forget : Host := { h with pending := Function.update h.pending requestId none }

@[simps] def send (m : ToAgent) : Host := { h with toAgent := h.toAgent ++ [m] }

/-- The channel that a request names in its SPAWN. -/
def target : SpawnRequest → Option ChannelId
  | .spawn => none
  | .restart c | .respawn c | .rehost c _ => some c

/-- `sendGuardedSpawn`, and the handler for the answer. -/
@[simps] def request (q : SpawnRequest) : Host :=
  { h.send (.spawn requestId (target q)) with
    pending := Function.update h.pending requestId (some q) }

/-- SPAWN_ERR, or no answer in time. -/
def spawnFailed : SpawnRequest → Host
  | .rehost c _ => h.updateChannelStatus c .dead
  | _ => h

/-- SPAWN_OK. An INSERT throws when there is a row, and the channel is then not set. -/
def spawned (clients : Bool) : SpawnRequest → Host
  | .spawn => if (h.rows c).isSome then h else h.createChannel c
  | .restart previous => h.applyRestartState c previous
  | .respawn previous => h.setLive previous
  | .rehost c reattach => if reattach && clients then h.updateChannelStatus c .live else h

/-- `reconcileChannelState`, for one channel. -/
def reconcile (reported : Bool) : ChannelStatus → ChannelStatus
  | .orphan => if reported then .live else .dead
  | status => if reported then status else .dead

/-- The listener of `wireAgentEvents`. An answer to a request that was forgotten is ignored. -/
def dispatch (clients : Bool) : ToHub → Host
  | .spawnOk requestId c =>
    match h.pending requestId with
    | some q => (h.forget requestId).spawned c clients q
    | none => h
  | .spawnErr requestId =>
    match h.pending requestId with
    | some q => (h.forget requestId).spawnFailed q
    | none => h
  | .channelExit c => if (h.channels c).isSome then h.updateChannelStatus c .dead else h
  | .channelStates ids =>
    { h with
      channels := fun c ↦ (h.channels c).map (reconcile (ids.contains c))
      rows := fun c ↦
        match h.channels c with
        | none => h.rows c
        | some status =>
          if reconcile (ids.contains c) status = status then h.rows c
          else (h.rows c).map fun _ ↦ reconcile (ids.contains c) status
      link := .up }

/-- What the connection still holds for the agent goes stale, and what it holds for the hub is
lost. -/
@[simps] def hangUp : Host :=
  { h with
    link := .down
    toAgent := []
    toHub := []
    stale := h.stale ++ h.toAgent.map fun m ↦ (h.connection, m) }

/-- `closeSession`. An attach of the daemon that is under way is not stopped by it. -/
def closeSession : Host :=
  let h := if h.link = .up then h.hangUp else h
  { h with
    channels := fun c ↦ (h.channels c).map fun _ ↦ .dead
    rows := fun c ↦ if h.alive c then (h.rows c).map fun _ ↦ .dead else h.rows c }

end Hub

/-! ## The agent -/

section Agent

variable (h : Host) (c : ChannelId)

/-- The channel is in the registry of the agent. -/
def registered : Bool := h.processes.any fun p ↦ p.channelId = c ∧ p.stage = .registered

/-- A process of the channel leaves the registry. -/
def unregister (stage : ProcessStage) (p : Process) : Process :=
  if p.channelId = c ∧ p.stage = .registered then { p with stage := stage } else p

def refuses (channelId : Option ChannelId) (ok : Bool) : Bool := channelId.any h.registered || !ok

/-- `handle_message`, and the answer. A signal that fails leaves the process registered. -/
def handleMessage (connection : ℕ) (ok : Bool) (ulid : ChannelId) : ToAgent → Host × List ToHub
  | .spawn requestId channelId =>
    if h.refuses channelId ok then (h, [.spawnErr requestId])
    else
      ({ h with processes := h.processes ++ [⟨channelId.getD ulid, connection, .registered⟩] },
        [.spawnOk requestId (channelId.getD ulid)])
  | .destroy c =>
    (if ok then { h with processes := h.processes.map (unregister c .signalled) } else h, [])

def answer (x : Host × List ToHub) : Host := { x.1 with toHub := x.1.toHub ++ x.2 }

/-- The reader of process `i` ends: the cleanup goes by the id of the channel. -/
def finish (i : ℕ) (p : Process) : Host :=
  let h := { h with
    processes := (h.processes.set i { p with stage := .exited }).map
      (unregister p.channelId .stray) }
  if h.link ≠ .down ∧ p.connection = h.connection then
    { h with toHub := h.toHub ++ [.channelExit p.channelId] }
  else h

/-- The ids in the report of a daemon. -/
def registeredIds : List ChannelId :=
  (h.processes.filter fun p ↦ p.stage = .registered).map Process.channelId

/-- A new agent over SSH, or a new connection to the daemon, which reports its channels first. -/
def reconnect : Host :=
  match h.hostType with
  | .daemon =>
    { h with
      link := .handshake
      connection := h.connection + 1
      toHub := [.channelStates h.registeredIds] }
  | .ssh => { h with link := .up, connection := h.connection + 1, stale := [], processes := [] }

end Agent

/-! ## Steps -/

/-- The requests whose SPAWN or answer is on the way. -/
def onTheWay (h : Host) : List String :=
  h.toAgent.filterMap ToAgent.requestId ++ h.toHub.filterMap ToHub.requestId

/-- A request can be made with this id. -/
def canRequest (h : Host) (requestId : String) : Bool :=
  h.link = .up && h.pending requestId = none && requestId ∉ h.onTheWay

/-- The id was never given to a channel. -/
def unused (h : Host) (c : ChannelId) : Bool :=
  h.rows c = none && h.processes.all fun p ↦ p.channelId ≠ c

/-- A new channel gets an id that no channel has. -/
def allots (h : Host) (ulid : ChannelId) : ToAgent → Bool
  | .spawn _ none => h.unused ulid
  | _ => true

def step (h : Host) : HostEvent → Option Host
  | .spawn requestId => if h.canRequest requestId then some (h.request requestId .spawn) else none
  | .restart requestId c resumed =>
    if h.canRequest requestId && (h.rows c).isSome then
      some ((if h.alive c && !resumed then h.send (.destroy c) else h).request requestId
        (.restart c))
    else none
  | .respawn requestId c =>
    if h.canRequest requestId && (h.channels c).isNone && h.rows c = some .dead then
      some (h.request requestId (.respawn c))
    else none
  | .rehost requestId c reattach =>
    if h.canRequest requestId && h.alive c then some (h.request requestId (.rehost c reattach))
    else none
  | .timeout requestId =>
    match h.pending requestId with
    | some q => some ((h.forget requestId).spawnFailed q)
    | none => none
  | .destroyChannel c =>
    if (h.channels c).isSome then
      some ((if h.link = .up then h.send (.destroy c) else h).retireChannel c)
    else none
  | .closeSession => some h.closeSession
  | .detach c =>
    if h.channels c = some .live then some (h.updateChannelStatus c .orphan) else none
  | .receive clients =>
    match h.toHub with
    | m :: toHub => some ({ h with toHub := toHub }.dispatch clients m)
    | [] => none
  | .drop => if h.link = .down then none else some h.hangUp
  | .connect => if h.link = .down then some h.reconnect else none
  | .handle ok ulid =>
    match h.toAgent with
    | m :: toAgent =>
      if h.allots ulid m then
        some (answer ({ h with toAgent := toAgent }.handleMessage h.connection ok ulid m))
      else none
    | [] => none
  | .handleStale i ok ulid =>
    match h.stale[i]? with
    | some (connection, m) =>
      if h.allots ulid m then
        some ({ h with stale := h.stale.eraseIdx i }.handleMessage connection ok ulid m).1
      else none
    | none => none
  | .loseStale i => if i < h.stale.length then some { h with stale := h.stale.eraseIdx i } else none
  | .exit i =>
    match h.processes[i]? with
    | some p => if p.stage = .exited then none else some (h.finish i p)
    | none => none

end Host

/-! ## The dispatcher

`Hub.Dispatch` has the same handlers with the scheduler and the chunker. They do to the status and
the row of a channel what the handlers do here.
-/

/-- The action for a SPAWN_OK. The answers to `spawnChannelsForHost` are not there. -/
def SpawnRequest.action {S : Type*} (c : ChannelId) : SpawnRequest → Option (Action S)
  | .spawn => some (.created c)
  | .restart previous => some (.restarted c previous)
  | .respawn previous => some (.respawned previous)
  | .rehost _ _ => none

namespace Host

variable {S : Type*} {h : Host} {c c' : ChannelId} {clients : Bool}

/-- What a channel sees of the hub. -/
def view (h : Host) (c : ChannelId) (scheduled : Bool) : View := ⟨h.channels c, h.rows c, scheduled⟩

theorem view_setLive (b : Bool) :
    (h.setLive c').view c b =
      if c' = c then ⟨some .live, (h.rows c).map fun _ ↦ .live, b⟩ else h.view c b := by
  split
  case isTrue heq => simp [view, heq]
  case isFalse hne => simp [view, Function.update_of_ne (Ne.symm hne)]

theorem view_createChannel (b : Bool) :
    (h.createChannel c').view c b = if c' = c then ⟨some .live, some .live, b⟩ else h.view c b := by
  split
  case isTrue heq => simp [view, heq]
  case isFalse hne => simp [view, Function.update_of_ne (Ne.symm hne)]

theorem view_updateChannelStatus (status : ChannelStatus) (b : Bool) :
    (h.updateChannelStatus c' status).view c b =
      if c' = c then ⟨(h.channels c).map fun _ ↦ status, (h.rows c).map fun _ ↦ status, b⟩
      else h.view c b := by
  split
  case isTrue heq => simp [view, heq]
  case isFalse hne => simp [view, Function.update_of_ne (Ne.symm hne)]

theorem view_retireChannel (b : Bool) :
    (h.retireChannel c').view c b =
      if c' = c then ⟨none, (h.rows c).map fun _ ↦ .dead, b⟩ else h.view c b := by
  split
  case isTrue heq => simp [view, retireChannel, heq]
  case isFalse hne => simp [view, retireChannel, Function.update_of_ne (Ne.symm hne)]

theorem view_applyRestartState {previous : ChannelId} (hne : c' ≠ previous) (b : Bool) :
    (h.applyRestartState c' previous).view c b =
      if c' = c then ⟨some .live, some .live, b⟩ else (h.retireChannel previous).view c b := by
  rw [applyRestartState, if_neg hne]
  dsimp only
  split
  case isTrue hrow =>
    rw [view_setLive]
    split
    case isTrue heq =>
      obtain ⟨status, hstatus⟩ := Option.isSome_iff_exists.mp hrow
      rw [← heq, hstatus, Option.map_some]
    case isFalse => rfl
  case isFalse => rw [view_createChannel]

/-- SPAWN_OK does to every channel what the action for it does. -/
theorem onView_spawned {q : SpawnRequest} {a : Action S} (ha : q.action c' = some a)
    (hnew : q = .spawn → h.rows c' = none) (b : Bool) :
    ∃ b', (a.kind c).onView (h.view c b) = some ((h.spawned c' clients q).view c b') := by
  cases q with
  | spawn =>
    cases ha
    have hrow := hnew rfl
    rw [Action.kind, spawned, hrow, Option.isSome_none, if_neg Bool.false_ne_true]
    simp only [view_createChannel]
    split
    case isTrue heq => exact ⟨true, by simp [Kind.onView, view, ← heq, hrow]⟩
    case isFalse => exact ⟨b, rfl⟩
  | restart previous =>
    cases ha
    rw [Action.kind, spawned]
    by_cases hprev : c' = previous
    · rw [if_pos hprev, applyRestartState, if_pos hprev]
      split
      case isTrue heq => exact ⟨true, by rw [view_setLive, if_pos heq]; rfl⟩
      case isFalse hne => exact ⟨b, by rw [if_neg (hprev ▸ hne), view_setLive, if_neg hne]; rfl⟩
    · simp only [view_applyRestartState hprev, view_retireChannel, if_neg hprev]
      split
      case isTrue => exact ⟨true, rfl⟩
      case isFalse =>
        split
        case isTrue => exact ⟨false, rfl⟩
        case isFalse => exact ⟨b, rfl⟩
  | respawn previous =>
    cases ha
    rw [Action.kind, spawned]
    simp only [view_setLive]
    split
    case isTrue => exact ⟨true, rfl⟩
    case isFalse => exact ⟨b, rfl⟩
  | rehost => cases ha

/-- And so does CHANNEL_EXIT. -/
theorem onView_channelExit (b : Bool) :
    ∃ b', ((Action.exited c' : Action S).kind c).onView (h.view c b) =
      some ((h.dispatch clients (.channelExit c')).view c b') := by
  rw [Action.kind, dispatch]
  by_cases heq : c' = c
  · refine ⟨false, ?_⟩
    subst heq
    cases hc : h.channels c' with
    | none => simp [Kind.onView, view, hc]
    | some status => simp [Kind.onView, view, hc]
  · refine ⟨b, ?_⟩
    rw [if_neg heq]
    split
    · rw [view_updateChannelStatus, if_neg heq]
      rfl
    · rfl

end Host

/-! ## Hosts -/

/-- A hub with the agents of its hosts. -/
abbrev Hosts (ι : Type*) := ι → Host

namespace Hosts

variable {ι : Type*} [DecidableEq ι]

def new (hostType : ι → HostType) : Hosts ι := fun i ↦ .new (hostType i)

/-- An event of one host. -/
def step (s : Hosts ι) (e : ι × HostEvent) : Option (Hosts ι) :=
  ((s e.1).step e.2).map fun h ↦ Function.update s e.1 h

end Hosts

end Lasterm.Wire
