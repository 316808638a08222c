import Lasterm.Hub.AgentSlot
import Lasterm.Hub.Dispatch
import Lasterm.Library.Journal
import Lasterm.Library.OrderedSet

/-!
# The state that the managers of the hub share

Model of `SharedSessionContext` and of the database behind it: the clients, the channels with their
sets of clients, the sessions, the agents, and what the scheduler and the chunker track. The
managers of the hub work on it in pieces of code that no `await` interrupts. The writes of such a
piece are a `ContextAction`, and `apply` does them. Which pieces run when is the subject of
`Hub.SessionManager`.

Objects that several closures share are numbers into a heap: a client, a set of clients, a session.
The set of clients of a channel is an object of its own, because a restart hands it on. A session
stands for its row in the database and for the object in `ctx.sessions`. An agent is a number, and
of its connection only the end is kept. A loop that treats each channel by itself is one update of
all of them.

What clients are told, titles, and how a shell is started are left out.
-/

namespace Lasterm.Hub

/-- A client that ever connected. -/
structure WsClient where
  /-- It is in `ctx.clients`. -/
  connected : Bool
  attachedChannels : OrderedSet ChannelId

structure ChannelState where
  sessionId : ℕ
  hostId : String
  status : ChannelStatus
  /-- The number of the set. -/
  clients : ℕ

/-- The row of a channel in the database. -/
structure ChannelRow where
  sessionId : ℕ
  status : ChannelStatus
  elevated : Bool

/-- A session: the status of its object, and that of its row. -/
structure SessionState where
  hostId : String
  status : SessionStatus
  row : SessionStatus

structure SharedSessionContext where
  hosts : OrderedMap String HostKind
  clients : List WsClient
  clientSets : List (OrderedSet ℕ)
  channels : OrderedMap ChannelId ChannelState
  channelRows : OrderedMap ChannelId ChannelRow
  /-- The sessions that there ever were, in the order of their creation. -/
  sessionStates : List SessionState
  sessions : OrderedMap String ℕ
  agents : OrderedMap String ℕ
  /-- The agents whose connection is over. -/
  closedAgents : OrderedSet ℕ
  scheduler : OrderedSet ChannelId
  chunker : OrderedSet ChannelId
  quitting : Bool
  quitEpoch : ℕ
  /-- The routes are registered, which is done behind `startup`. -/
  serving : Bool

/-- What the database has while no hub runs. -/
structure Database where
  hosts : OrderedMap String HostKind
  /-- The hosts and the statuses of the sessions, in the order of their creation. -/
  sessions : List (String × SessionStatus)
  channels : OrderedMap ChannelId ChannelRow
  /-- Every channel is of a session. -/
  references : ∀ c row, channels.get c = some row → row.sessionId < sessions.length

/-- The database of a hub that has one host, and was never used. -/
def Database.ofHost (hostId : String) (kind : HostKind) : Database where
  hosts := OrderedMap.empty.set hostId kind
  sessions := []
  channels := .empty
  references := nofun

/-- The database of a hub that was stopped while a channel of its one host was alive. -/
def Database.ofChannel (hostId : String) (kind : HostKind) (c : ChannelId) : Database where
  hosts := OrderedMap.empty.set hostId kind
  sessions := [(hostId, .active)]
  channels := OrderedMap.empty.set c ⟨0, .live, false⟩
  references c' row hrow := by
    rw [OrderedMap.get_set] at hrow
    split at hrow
    · cases hrow
      exact Nat.zero_lt_one
    · cases hrow

/-- A synchronous piece of code that writes to the context. Sessions are passed by number; the host
of a session is in its object. -/
inductive ContextAction
  | setHost (hostId : String) (kind : HostKind)
  | serve
  | beginQuit
  | addClient
  | removeClient (k : ℕ)
  | detachClient (k : ℕ) (c : ChannelId)
  /-- `handleAttach`, up to the message to the agent. -/
  | handleAttach (k : ℕ) (c : ChannelId)
  /-- The agent of `handleAttach` does not know the channel. `clients` is the set that the
  call has. -/
  | attachRejected (k : ℕ) (c : ChannelId) (clients : ℕ)
  /-- SPAWN_OK in `sendSpawnAndWait`. -/
  | spawned (k : ℕ) (c : ChannelId) (session : ℕ) (elevated : Bool)
  /-- The end of `respawnDeadChannel`. -/
  | respawned (k : ℕ) (c : ChannelId) (session : ℕ)
  /-- `clients` is the set of the channel object that the restart has, if there was one. -/
  | applyRestartState (c previous : ChannelId) (session : ℕ) (clients : Option ℕ) (elevated : Bool)
  | destroyChannel (c : ChannelId)
  /-- The row of a channel that is not in memory is marked dead by the API. -/
  | markRowDead (c : ChannelId)
  /-- The row of a dead channel is deleted by the API. -/
  | purgeRow (c : ChannelId)
  /-- CHANNEL_EXIT. -/
  | channelExit (c : ChannelId)
  /-- `onSpawnOk` of `reAttachChannels`, or of a warm restart. -/
  | hostSpawned (reAttach : Bool) (c : ChannelId) (clients : ℕ)
  /-- `onSpawnErr` of both. -/
  | hostSpawnFailed (c : ChannelId)
  | createSession (hostId : String)
  /-- `updateSessionStatus` with "active", under the check that the session is current. -/
  | activateSession (session : ℕ)
  | adoptAgent (hostId : String) (agent : ℕ)
  /-- The end of `attachDaemonFresh`. -/
  | daemonReady (session agent : ℕ) (states : List (ChannelId × Bool))
  | closeAgent (agent : ℕ)
  | deleteAgent (hostId : String)
  /-- The `close` event of the agent of a host. `disconnects` says that the session is marked. -/
  | agentClosed (hostId : String) (disconnects : Bool)
  /-- `lifecycle.closeSession`. -/
  | closeSession (session : ℕ)
  /-- The connect of a leader has failed. -/
  | connectFailed (session : ℕ)
  /-- The guard behind the connect of a leader has failed. -/
  | dropSession (session : ℕ)
  /-- The client of a SPAWN is gone, and nothing else needs the session. -/
  | abandonSession (session : ℕ)
  /-- `SessionManager.closeSession` for a session that is not current. -/
  | closeRow (session : ℕ)
  /-- `markHostSessionDisconnected`, in `startup`. -/
  | markDisconnected (hostId : String)
  /-- `startup`, for a host with an open session and channels that were alive. -/
  | restoreHost (session : ℕ) (alive : List ChannelId)
  /-- `startup`, for channels that cannot be restored. -/
  | bury (alive : List ChannelId)
  deriving DecidableEq

namespace SharedSessionContext

/-- The context of a hub that has just been started. -/
def opened (db : Database) : SharedSessionContext where
  hosts := db.hosts
  clients := []
  clientSets := []
  channels := .empty
  channelRows := db.channels
  sessionStates := db.sessions.map fun e ↦ ⟨e.1, e.2, e.2⟩
  sessions := .empty
  agents := .empty
  closedAgents := .empty
  scheduler := .empty
  chunker := .empty
  quitting := false
  quitEpoch := 0
  serving := false

variable (s : SharedSessionContext)

/-! ## Reading -/

def isConnected (k : ℕ) : Bool := s.clients[k]?.any WsClient.connected

def attachedChannels (k : ℕ) : OrderedSet ChannelId :=
  (s.clients[k]?.map WsClient.attachedChannels).getD .empty

/-- The elements of a set of clients. -/
def clientSet (n : ℕ) : OrderedSet ℕ := s.clientSets[n]?.getD .empty

/-- `ctx.channels.get(channelId)?.clients`. -/
def channelSet (c : ChannelId) : Option ℕ := (s.channels.get c).map ChannelState.clients

def members (c : ChannelId) : OrderedSet ℕ := (s.channelSet c).elim .empty s.clientSet

/-- `ctx.agents.get(hostId)?.connected`. -/
def agentConnected (hostId : String) : Bool := (s.agents.get hostId).any (· ∉ s.closedAgents)

def sessionHost (i : ℕ) : Option String := s.sessionStates[i]?.map SessionState.hostId

/-- The status of the object of a session. -/
def sessionStatus (i : ℕ) : Option SessionStatus := s.sessionStates[i]?.map SessionState.status

/-- The status in the row of a session. -/
def sessionRow (i : ℕ) : Option SessionStatus := s.sessionStates[i]?.map SessionState.row

def captureQuitFence : Option ℕ := if s.quitting then none else some s.quitEpoch

def isQuitFenceCurrent (fence : ℕ) : Bool := !s.quitting && s.quitEpoch == fence

/-! ## Primitives -/

def modifyClient (k : ℕ) (f : WsClient → WsClient) : SharedSessionContext :=
  { s with clients := s.clients.modify k f }

/-- Change the clients of a set that are connected. -/
def modifyMembers (set : OrderedSet ℕ) (f : OrderedSet ChannelId → OrderedSet ChannelId) :
    SharedSessionContext :=
  { s with clients := s.clients.mapIdx fun k x ↦
      if k ∈ set ∧ x.connected then { x with attachedChannels := f x.attachedChannels } else x }

def modifySet (n : ℕ) (f : OrderedSet ℕ → OrderedSet ℕ) : SharedSessionContext :=
  { s with clientSets := s.clientSets.modify n f }

def newSet (set : OrderedSet ℕ) : SharedSessionContext :=
  { s with clientSets := s.clientSets ++ [set] }

/-- The status of every channel, as a function of its entry. The row is written where it changes. -/
def setStatuses (f : ChannelId → ChannelState → ChannelStatus) : SharedSessionContext :=
  { s with
    channels := s.channels.mapValues fun c ch ↦ { ch with status := f c ch }
    channelRows := s.channelRows.mapValues fun c row ↦
      match s.channels.get c with
      | none => row
      | some ch => if f c ch = ch.status then row else { row with status := f c ch } }

def updateRow (c : ChannelId) (status : ChannelStatus) : SharedSessionContext :=
  { s with channelRows := s.channelRows.modify c fun row ↦ { row with status := status } }

def updateChannelStatus (c : ChannelId) (status : ChannelStatus) : SharedSessionContext :=
  { s with
    channels := s.channels.modify c fun ch ↦ { ch with status := status }
    channelRows := s.channelRows.modify c fun row ↦ { row with status := status } }

/-- The object is only written while it is the session of its host. -/
def updateSessionStatus (i : ℕ) (status : SessionStatus) : SharedSessionContext :=
  { s with sessionStates := s.sessionStates.modify i fun x ↦
      { x with
        status := if s.sessions.get x.hostId = some i then status else x.status
        row := status } }

def deleteSession (hostId : String) : SharedSessionContext :=
  { s with sessions := s.sessions.delete hostId }

/-- `trackChannel` of the scheduler and of the chunker. -/
def trackChannel (c : ChannelId) : SharedSessionContext :=
  { s with scheduler := s.scheduler.add c, chunker := s.chunker.add c }

def untrackChannel (c : ChannelId) : SharedSessionContext :=
  { s with scheduler := s.scheduler.delete c, chunker := s.chunker.delete c }

def putChannel (c : ChannelId) (ch : ChannelState) : SharedSessionContext :=
  { s with channels := s.channels.set c ch }

def deleteChannel (c : ChannelId) : SharedSessionContext :=
  { s with channels := s.channels.delete c }

/-- An INSERT. The callers know that there is no row. -/
def createChannel (c : ChannelId) (row : ChannelRow) : SharedSessionContext :=
  { s with channelRows := s.channelRows.set c row }

def closeAgent (a : ℕ) : SharedSessionContext := { s with closedAgents := s.closedAgents.add a }

def deleteAgent (hostId : String) : SharedSessionContext :=
  { s with agents := s.agents.delete hostId }

def adoptAgent (hostId : String) (a : ℕ) : SharedSessionContext :=
  { s with agents := s.agents.set hostId a }

/-! ## StateBroadcaster -/

def checkSessionDetached (hostId : String) : SharedSessionContext :=
  match s.sessions.get hostId with
  | none => s
  | some i =>
    if s.sessionStatus i ≠ some .active then s
    else if s.channels.anyValue fun ch ↦ ch.hostId = hostId ∧ ch.status = ChannelStatus.live then s
    else s.updateSessionStatus i .detached

/-- The part of `detachClient` for a channel that is there. -/
def leaveChannel (k : ℕ) (c : ChannelId) (ch : ChannelState) : SharedSessionContext :=
  let t := s.modifySet ch.clients fun set ↦ set.delete k
  if (t.clientSet ch.clients).isEmpty = true ∧ ch.status = ChannelStatus.live then
    (t.updateChannelStatus c .orphan).checkSessionDetached ch.hostId
  else t

def detachClient (k : ℕ) (c : ChannelId) : SharedSessionContext :=
  let t := (s.channels.get c).elim s fun ch ↦ s.leaveChannel k c ch
  if t.isConnected k then
    t.modifyClient k fun x ↦ { x with attachedChannels := x.attachedChannels.delete c }
  else t

def removeClient (k : ℕ) : SharedSessionContext :=
  if s.isConnected k then
    ((s.attachedChannels k).elems.foldl (fun t c ↦ t.detachClient k c) s).modifyClient k fun x ↦
      { x with connected := false }
  else s

/-! ## ChannelLifecycleManager -/

def spawned (k : ℕ) (c : ChannelId) (i : ℕ) (elevated : Bool) : SharedSessionContext :=
  match s.sessionStates[i]?, s.channelRows.get c with
  | some session, none =>
    let t := (s.createChannel c ⟨i, .born, elevated⟩).newSet (.singleton k)
    let t := (t.putChannel c ⟨i, session.hostId, .live, s.clientSets.length⟩).updateRow c .live
    (t.trackChannel c).modifyClient k fun x ↦
      { x with attachedChannels := x.attachedChannels.add c }
  -- The INSERT throws.
  | _, _ => s

def destroyChannel (c : ChannelId) : SharedSessionContext :=
  match s.channels.get c with
  | none => s
  | some _ => ((s.updateChannelStatus c .dead).untrackChannel c).deleteChannel c

def retireChannel (c : ChannelId) : SharedSessionContext :=
  let t := s.updateChannelStatus c .dead
  let t := t.modifyMembers (s.members c) fun set ↦ set.delete c
  (t.untrackChannel c).deleteChannel c

/-- The part of `applyRestartState` for an agent that answers with another id. -/
def moveChannel (c previous : ChannelId) (i clients : ℕ) (elevated : Bool) : SharedSessionContext :=
  let t := (s.retireChannel previous).modifyMembers (s.clientSet clients) fun set ↦
    (set.delete previous).add c
  if (t.channelRows.get c).isSome then t else t.createChannel c ⟨i, .born, elevated⟩

/-- `ch?.clients ?? new Set()`. A number without a set, which no call has, counts as none. -/
def setOrNew (clients : Option ℕ) : SharedSessionContext × ℕ :=
  match clients with
  | some n => if n < s.clientSets.length then (s, n) else (s.newSet .empty, s.clientSets.length)
  | none => (s.newSet .empty, s.clientSets.length)

def applyRestartState (c previous : ChannelId) (i : ℕ) (clients : Option ℕ) (elevated : Bool) :
    SharedSessionContext :=
  match s.sessionStates[i]? with
  | none => s
  | some session =>
    let (t, n) := s.setOrNew clients
    let t := if c = previous then t else t.moveChannel c previous i n elevated
    let t := ((t.updateRow c .live).putChannel c ⟨i, session.hostId, .live, n⟩).trackChannel c
    if session.status = .detached then t.updateSessionStatus i .active else t

/-- The loop of `closeSession` over the channels of a host. -/
def killChannels (hostId : String) : SharedSessionContext :=
  let dying (ch : ChannelState) : Bool := ch.hostId = hostId ∧ ch.status ≠ .dead
  (s.channels.entries.filter fun e ↦ dying e.2).foldl (fun t e ↦ t.untrackChannel e.1)
    (s.setStatuses fun _ ch ↦ if dying ch then .dead else ch.status)

def closeSession (i : ℕ) : SharedSessionContext :=
  match s.sessionStates[i]? with
  | none => s
  | some session =>
    ((s.killChannels session.hostId).updateSessionStatus i .closed).deleteSession session.hostId

def respawned (k : ℕ) (c : ChannelId) (i : ℕ) : SharedSessionContext :=
  match s.sessionStates[i]? with
  | none => s
  | some session =>
    let t := (s.updateRow c .live).newSet (.singleton k)
    let t := (t.putChannel c ⟨i, session.hostId, .live, s.clientSets.length⟩).trackChannel c
    t.modifyClient k fun x ↦ { x with attachedChannels := x.attachedChannels.add c }

def hostSpawned (reAttach : Bool) (c : ChannelId) (clients : ℕ) : SharedSessionContext :=
  let t :=
    if reAttach ∧ (s.clientSet clients).isEmpty = false then s.updateChannelStatus c .live else s
  t.trackChannel c

/-- The status of a channel behind `reconcileChannelState`. -/
def reconciled (hostId : String) (i : ℕ) (reportedIds : List ChannelId) (c : ChannelId)
    (ch : ChannelState) : ChannelStatus :=
  if ch.hostId = hostId ∧ ch.sessionId = i then
    if c ∈ reportedIds then if ch.status = .orphan then .live else ch.status
    else .dead
  else ch.status

def reconcileChannelState (hostId : String) (states : List (ChannelId × Bool)) :
    SharedSessionContext :=
  match s.sessions.get hostId with
  | none => s
  | some i => s.setStatuses (reconciled hostId i ((states.filter Prod.snd).map Prod.fst))

/-! ## AgentConnectionManager -/

def createSession (hostId : String) : SharedSessionContext :=
  { s with
    sessionStates := s.sessionStates ++ [⟨hostId, .starting, .starting⟩]
    sessions := s.sessions.set hostId s.sessionStates.length }

def daemonReady (i a : ℕ) (states : List (ChannelId × Bool)) : SharedSessionContext :=
  match s.sessionStates[i]? with
  | none => s
  | some session =>
    ((s.reconcileChannelState session.hostId states).adoptAgent session.hostId a)
      |>.updateSessionStatus i .active

def agentClosed (hostId : String) (disconnects : Bool) : SharedSessionContext :=
  let t := s.deleteAgent hostId
  match t.sessions.get hostId with
  | none => t
  | some i => if disconnects then t.updateSessionStatus i .disconnected else t

/-- What `startup` relies on: the routes are not registered, and the host has no agent yet. -/
def restoring (hostId : String) : Bool := !s.serving && (s.agents.get hostId).isNone

def markDisconnected (hostId : String) : SharedSessionContext :=
  if s.restoring hostId then
    { s with sessionStates := s.sessionStates.map fun x ↦
        if x.hostId = hostId ∧ x.row ≠ .closed then { x with row := .disconnected } else x }
  else s

/-- A session object for an open row, and entries without clients for its channels. -/
def restoreHost (i : ℕ) (alive : List ChannelId) : SharedSessionContext :=
  match s.sessionStates[i]? with
  | none => s
  | some session =>
    if s.restoring session.hostId ∧ session.row ≠ .closed then
      let t := { s with
        sessions := s.sessions.set session.hostId i
        sessionStates := s.sessionStates.modify i fun x ↦ { x with status := .disconnected } }
      alive.foldl (fun t c ↦ ((t.updateRow c .orphan).newSet .empty).putChannel c
        ⟨i, session.hostId, .orphan, t.clientSets.length⟩) t
    else s

def bury (alive : List ChannelId) : SharedSessionContext :=
  alive.foldl (fun t c ↦ t.updateChannelStatus c .dead) s

/-! ## SessionManager -/

def handleAttach (k : ℕ) (c : ChannelId) : SharedSessionContext :=
  if s.isConnected k = false then s
  else
    match s.channels.get c with
    | none => s
    | some ch =>
      let t := (s.modifySet ch.clients fun set ↦ set.add k).modifyClient k fun x ↦
        { x with attachedChannels := x.attachedChannels.add c }
      if ch.status = .orphan then t.updateChannelStatus c .live else t

/-- The `catch` of `handleAttach`. -/
def attachRejected (k : ℕ) (c : ChannelId) (clients : ℕ) : SharedSessionContext :=
  ((s.retireChannel c).modifySet clients fun set ↦ set.delete k).modifyClient k fun x ↦
    { x with attachedChannels := x.attachedChannels.delete c }

def activateSession (i : ℕ) : SharedSessionContext :=
  if (s.sessionHost i).bind s.sessions.get = some i then s.updateSessionStatus i .active else s

def connectFailed (i : ℕ) : SharedSessionContext :=
  match s.sessionStates[i]? with
  | none => s
  | some session =>
    if session.status = .starting then
      (s.updateSessionStatus i .closed).deleteSession session.hostId
    else s

def dropSession (i : ℕ) : SharedSessionContext :=
  match s.sessionHost i with
  | none => s
  | some hostId => if s.sessions.get hostId = some i then s.deleteSession hostId else s

/-- `this.ctx.channels` has a channel of the session. -/
def sessionHasChannels (i : ℕ) : Bool := s.channels.anyValue fun ch ↦ ch.sessionId = i

def abandonSession (i : ℕ) : SharedSessionContext :=
  match s.sessionHost i with
  | none => s
  | some hostId =>
    if s.sessionHasChannels i = false ∧ s.sessions.get hostId = some i then
      let t :=
        match s.agents.get hostId with
        | none => s
        | some a => (s.closeAgent a).deleteAgent hostId
      (t.updateSessionStatus i .closed).deleteSession hostId
    else s

def closeRow (i : ℕ) : SharedSessionContext :=
  if (s.sessionHost i).bind s.sessions.get = some i then s
  else { s with sessionStates := s.sessionStates.modify i fun x ↦ { x with row := .closed } }

/-! ## Actions -/

def apply : ContextAction → SharedSessionContext
  | .setHost hostId kind => { s with hosts := s.hosts.set hostId kind }
  | .serve => { s with serving := true }
  | .beginQuit =>
    if s.quitting then s else { s with quitting := true, quitEpoch := s.quitEpoch + 1 }
  | .addClient => if s.serving then { s with clients := s.clients ++ [⟨true, .empty⟩] } else s
  | .removeClient k => s.removeClient k
  | .detachClient k c => s.detachClient k c
  | .handleAttach k c => s.handleAttach k c
  | .attachRejected k c clients => s.attachRejected k c clients
  | .spawned k c i elevated => s.spawned k c i elevated
  | .respawned k c i => s.respawned k c i
  | .applyRestartState c previous i clients elevated =>
    s.applyRestartState c previous i clients elevated
  | .destroyChannel c => s.destroyChannel c
  | .markRowDead c => if (s.channels.get c).isSome then s else s.updateRow c .dead
  | .purgeRow c =>
    if (s.channelRows.get c).any (·.status = .dead) then
      { s with channelRows := s.channelRows.delete c }
    else s
  | .channelExit c =>
    (if (s.channels.get c).isSome then s.updateChannelStatus c .dead else s).untrackChannel c
  | .hostSpawned reAttach c clients => s.hostSpawned reAttach c clients
  | .hostSpawnFailed c => s.updateChannelStatus c .dead
  | .createSession hostId => s.createSession hostId
  | .activateSession i => s.activateSession i
  | .adoptAgent hostId a => s.adoptAgent hostId a
  | .daemonReady i a states => s.daemonReady i a states
  | .closeAgent a => s.closeAgent a
  | .deleteAgent hostId => s.deleteAgent hostId
  | .agentClosed hostId disconnects => s.agentClosed hostId disconnects
  | .closeSession i => s.closeSession i
  | .connectFailed i => s.connectFailed i
  | .dropSession i => s.dropSession i
  | .abandonSession i => s.abandonSession i
  | .closeRow i => s.closeRow i
  | .markDisconnected hostId => s.markDisconnected hostId
  | .restoreHost i alive => s.restoreHost i alive
  | .bury alive => s.bury alive

/-! ## Rules for the operations in parts -/

section Rules

variable {s} {motive : SharedSessionContext → Prop}

theorem detachClient_rule {k : ℕ} {c : ChannelId} (h : motive s)
    (hleave : ∀ ch, s.channels.get c = some ch → motive (s.leaveChannel k c ch))
    (hclient : ∀ t f, motive t → motive (t.modifyClient k f)) : motive (s.detachClient k c) := by
  have hleft : motive ((s.channels.get c).elim s fun ch ↦ s.leaveChannel k c ch) := by
    rcases hch : s.channels.get c with _ | ch
    · exact h
    · exact hleave ch hch
  rw [detachClient]
  split
  · exact hclient _ _ hleft
  · exact hleft

/-- The loop of `removeClient` over the channels of the client keeps what `detachClient` keeps. -/
theorem removeClient_rule {k : ℕ} (h : motive s)
    (hdetach : ∀ t c, motive t → motive (t.detachClient k c))
    (hclient : ∀ t f, motive t → motive (t.modifyClient k f)) : motive (s.removeClient k) := by
  rw [removeClient]
  split
  · exact hclient _ _ (List.foldlRecOn _ _ h fun t ht c _ ↦ hdetach t c ht)
  · exact h

theorem killChannels_rule {hostId : String}
    (h : motive (s.setStatuses fun _ ch ↦
      if decide (ch.hostId = hostId ∧ ch.status ≠ .dead) = true then .dead else ch.status))
    (huntrack : ∀ t c, motive t → motive (t.untrackChannel c)) :
    motive (s.killChannels hostId) :=
  List.foldlRecOn _ _ h fun t ht e _ ↦ huntrack t e.1 ht

theorem checkSessionDetached_rule {hostId : String} (h : motive s)
    (hdetach : ∀ i, motive (s.updateSessionStatus i .detached)) :
    motive (s.checkSessionDetached hostId) := by
  rw [checkSessionDetached]
  split
  · exact h
  · split
    · exact h
    · split
      · exact h
      · exact hdetach _

theorem bury_rule {alive : List ChannelId} (h : motive s)
    (hdie : ∀ t c, motive t → motive (t.updateChannelStatus c .dead)) : motive (s.bury alive) :=
  List.foldlRecOn _ _ h fun t ht c _ ↦ hdie t c ht

theorem setOrNew_rule {clients : Option ℕ} (h : motive s) (hnew : motive (s.newSet .empty)) :
    motive (s.setOrNew clients).1 := by
  rcases clients with _ | n
  · exact hnew
  · rw [setOrNew]
    split
    · exact h
    · exact hnew

theorem moveChannel_rule {c previous : ChannelId} {i n : ℕ} {elevated : Bool}
    (hmove : motive ((s.retireChannel previous).modifyMembers (s.clientSet n) fun set ↦
      (set.delete previous).add c))
    (hcreate : ∀ t, motive t → motive (t.createChannel c ⟨i, .born, elevated⟩)) :
    motive (s.moveChannel c previous i n elevated) := by
  rw [moveChannel]
  split
  · exact hmove
  · exact hcreate _ hmove

theorem reconcileChannelState_rule {hostId : String} {states : List (ChannelId × Bool)}
    (h : motive s) (hset : ∀ f, motive (s.setStatuses f)) :
    motive (s.reconcileChannelState hostId states) := by
  rw [reconcileChannelState]
  split
  · exact h
  · exact hset _

/-- The loop of `startup` over the channels of a session that is open again. -/
theorem restoreHost_rule {i : ℕ} {alive : List ChannelId} (h : motive s)
    (hrestore : ∀ session, s.sessionStates[i]? = some session →
      s.restoring session.hostId = true → session.row ≠ .closed →
      motive { s with
        sessions := s.sessions.set session.hostId i
        sessionStates := s.sessionStates.modify i fun x ↦ { x with status := .disconnected } } ∧
      ∀ t, ∀ c ∈ alive, motive t → motive (((t.updateRow c .orphan).newSet .empty).putChannel c
        ⟨i, session.hostId, .orphan, t.clientSets.length⟩)) :
    motive (s.restoreHost i alive) := by
  rw [restoreHost]
  split
  · exact h
  · rename_i session hsession
    split
    · rename_i hcond
      obtain ⟨hopen, hput⟩ := hrestore session hsession hcond.1 hcond.2
      exact List.foldlRecOn _ _ hopen fun t ht c hc ↦ hput t c hc ht
    · exact h

end Rules

/-! ## Actions on sessions alone -/

/-- `t` has the clients and the channels of `s`, and serves where `s` does. -/
structure SameChannels (s t : SharedSessionContext) : Prop where
  clients : t.clients = s.clients
  clientSets : t.clientSets = s.clientSets
  channels : t.channels = s.channels
  channelRows : t.channelRows = s.channelRows
  scheduler : t.scheduler = s.scheduler
  chunker : t.chunker = s.chunker
  serving : t.serving = s.serving

/-- The action writes to hosts, sessions and agents. -/
def OnSessions : ContextAction → Prop
  | .setHost .. | .createSession _ | .activateSession _ | .adoptAgent .. | .closeAgent _
  | .deleteAgent _ | .agentClosed .. | .connectFailed _ | .dropSession _ | .abandonSession _
  | .closeRow _ | .markDisconnected _ => True
  | _ => False

variable {s}

theorem SameChannels.refl : SameChannels s s := ⟨rfl, rfl, rfl, rfl, rfl, rfl, rfl⟩

theorem sameChannels_checkSessionDetached (hostId : String) :
    SameChannels s (s.checkSessionDetached hostId) :=
  checkSessionDetached_rule .refl fun _ ↦ ⟨rfl, rfl, rfl, rfl, rfl, rfl, rfl⟩

theorem sameChannels_apply (a : ContextAction) (ha : OnSessions a) :
    SameChannels s (s.apply a) := by
  cases a with
  | activateSession i =>
    rw [apply, activateSession]
    split <;> exact ⟨rfl, rfl, rfl, rfl, rfl, rfl, rfl⟩
  | agentClosed hostId disconnects =>
    rw [apply, agentClosed]
    split
    · exact ⟨rfl, rfl, rfl, rfl, rfl, rfl, rfl⟩
    · split <;> exact ⟨rfl, rfl, rfl, rfl, rfl, rfl, rfl⟩
  | connectFailed i =>
    rw [apply, connectFailed]
    split
    · exact .refl
    · split <;> exact ⟨rfl, rfl, rfl, rfl, rfl, rfl, rfl⟩
  | dropSession i =>
    rw [apply, dropSession]
    split
    · exact .refl
    · split <;> exact ⟨rfl, rfl, rfl, rfl, rfl, rfl, rfl⟩
  | abandonSession i =>
    rw [apply, abandonSession]
    split
    · exact .refl
    · split
      · dsimp only
        split <;> exact ⟨rfl, rfl, rfl, rfl, rfl, rfl, rfl⟩
      · exact .refl
  | closeRow i =>
    rw [apply, closeRow]
    split <;> exact ⟨rfl, rfl, rfl, rfl, rfl, rfl, rfl⟩
  | markDisconnected hostId =>
    rw [apply, markDisconnected]
    split <;> exact ⟨rfl, rfl, rfl, rfl, rfl, rfl, rfl⟩
  | setHost | createSession | adoptAgent | closeAgent | deleteAgent =>
    exact ⟨rfl, rfl, rfl, rfl, rfl, rfl, rfl⟩
  | _ => exact ha.elim

end SharedSessionContext

end Lasterm.Hub
