import Lasterm.Hub.Acquisition

/-!
# The agent of a host

Model of the paths on which the hub connects to the agent of one host: the SPAWN that leads an
acquisition, the reconnect of a timer, the reconnect of a restart, and the attach to a daemon. Each
starts a handshake, is suspended until it is over, then wires the agent and puts it into
`ctx.agents` with `adoptAgent`.

An agent is the number of its wiring. Agents that are closed before they are wired are left out. The
handshake and the code behind it up to the next `await` are one event, so that what happens in
between counts as before. A call that leads an acquisition has the number of the acquisition, and an
attempt to reconnect that of its `AbortController`. `elapsed` is a guess of the event, as is the
version that an agent reports. The hub does not quit.

`AgentSlot` holds what the paths have in common, and `HostConnections` adds the session with the
reconnect timers.
-/

namespace Lasterm.Hub

/-- `Host.type`. -/
inductive HostKind
  | daemon
  | ssh
  deriving DecidableEq

inductive SessionStatus
  | starting
  | active
  | detached
  | disconnected
  | closed
  deriving DecidableEq

/-- The abort signal that is passed to the `start` of an SSH agent. -/
inductive Signal
  | acquisition (a : ℕ)
  | attempt (n : ℕ)

/-- An agent that was given to `wireAgentEvents`. -/
structure WiredAgent where
  /-- `instanceof LastermAgent`. -/
  daemon : Bool
  sessionId : ℕ
  signal : Option Signal
  /-- The socket, or the channel of the SSH client, is open. -/
  isOpen : Bool

/-- Where the call of `handleSpawn` that leads an acquisition is suspended. -/
inductive Leading
  | idle
  /-- In `start`. -/
  | connecting (sessionId lease : ℕ)
  /-- `_connectSshAgent` has returned, and the guard is still to be passed. -/
  | wired (sessionId lease agent : ℕ)
  deriving DecidableEq

/-- An attempt to reconnect over SSH. -/
structure Attempt where
  sessionId : ℕ
  /-- It was started by a timer, not by the restart of a channel. -/
  timed : Bool
  /-- `ac.signal.aborted`. -/
  aborted : Bool
  /-- Its `start` is over. -/
  settled : Bool

/-- The promise in `daemonAttachPromises`. -/
inductive Attach
  | connecting (sessionId : ℕ)
  | wired (sessionId agent : ℕ)
  /-- The promise is settled, and its `finally` is still to come. -/
  | settled
  deriving DecidableEq

structure AgentSlot where
  hostId : String
  agents : List WiredAgent
  /-- `ctx.agents.get(hostId)`. -/
  agent : Option ℕ
  acquisitions : Acquisitions
  leading : ℕ → Leading
  attempts : List Attempt
  /-- `ctx.reconnectAbortControllers.get(hostId)`. -/
  controller : Option ℕ
  /-- `daemonAttachPromises.get(hostId)`. -/
  attach : Option Attach

/-! ## Operations on the slot -/

namespace Acquisitions

def isAborted (s : Acquisitions) (a : ℕ) : Bool := s.acqs[a]?.any Acquisition.aborted

end Acquisitions

namespace AgentSlot

def new (hostId : String) : AgentSlot where
  hostId := hostId
  agents := []
  agent := none
  acquisitions := .empty
  leading _ := .idle
  attempts := []
  controller := none
  attach := none

variable (s : AgentSlot)

def isAborted : Signal → Bool
  | .acquisition a => s.acquisitions.isAborted a
  | .attempt n => s.attempts[n]?.any Attempt.aborted

/-- `agent.connected`. The abort of its signal destroys the client of an SSH agent, also after
`start`. -/
def connected (a : ℕ) : Bool :=
  s.agents[a]?.any fun g ↦ g.isOpen && !g.signal.any s.isAborted

/-- `ctx.agents.get(hostId)?.connected`. -/
def agentConnected : Bool := s.agent.any s.connected

def closeAgent (a : ℕ) : AgentSlot :=
  { s with agents := s.agents.modify a fun g ↦ { g with isOpen := false } }

def deleteAgent : AgentSlot := { s with agent := none }

/-- Close the agent in `ctx.agents` and delete it there. -/
def closeCurrent : AgentSlot :=
  match s.agent with
  | none => s
  | some a => (s.closeAgent a).deleteAgent

/-- Close an agent, and delete it from `ctx.agents` if it is the one there. -/
def discard (a : ℕ) : AgentSlot :=
  (if s.agent = some a then s.deleteAgent else s).closeAgent a

def wireAgentEvents (g : WiredAgent) : AgentSlot :=
  { s with agents := s.agents ++ [g] }

def adoptAgent (a : ℕ) : AgentSlot := { s with agent := some a }

def abortAttempt (n : ℕ) : AgentSlot :=
  { s with attempts := s.attempts.modify n fun at' ↦ { at' with aborted := true } }

/-- Abort the registered controller and delete it. -/
def abortController : AgentSlot :=
  match s.controller with
  | none => s
  | some n => { s.abortAttempt n with controller := none }

/-- Abort the registered controller, and register that of a new attempt. -/
def startAttempt (sessionId : ℕ) (timed : Bool) : AgentSlot :=
  let t := s.abortController
  { t with
    attempts := t.attempts ++ [⟨sessionId, timed, false, false⟩]
    controller := some t.attempts.length }

def settleAttempt (n : ℕ) : AgentSlot :=
  { s with attempts := s.attempts.modify n fun at' ↦ { at' with settled := true } }

/-- Delete the controller of an attempt, if it is the registered one. -/
def deleteController (n : ℕ) : AgentSlot :=
  if s.controller = some n then { s with controller := none } else s

/-- The part of `attachDaemon` behind the check of `ctx.agents`. -/
def joinAttach (sessionId : ℕ) : AgentSlot :=
  if s.attach.isSome then s else { s with attach := some (.connecting sessionId) }

def attachDaemon (sessionId : ℕ) : AgentSlot :=
  if s.agentConnected then s else s.closeCurrent.joinAttach sessionId

/-- `Acq.acquire`, for a call that then connects for the session. -/
def lead (clientId : String) (sessionId : ℕ) : AgentSlot :=
  { s with
    acquisitions := s.acquisitions.acquire s.hostId clientId
    leading := Function.update s.leading s.acquisitions.acqs.length
      (.connecting sessionId s.acquisitions.leases.length) }

/-- `failConnectingAcq`. The session of the call is not assigned yet, so that it has no channels. -/
def failConnectingAcq (n lease : ℕ) (message : String) : AgentSlot :=
  { s with
    acquisitions := ((s.acquisitions.fail n message).release lease false).1
    leading := Function.update s.leading n .idle }

def commit (n sessionId : ℕ) : AgentSlot :=
  { s with
    acquisitions := s.acquisitions.commit n (toString sessionId)
    leading := Function.update s.leading n .idle }

end AgentSlot

/-! ## The host -/

structure ReconnectTimer where
  sessionId : ℕ
  pending : Bool

structure HostConnections extends AgentSlot where
  /-- The row of the host, which a user may change and delete. -/
  host : Option HostKind
  /-- The `SessionState` objects, by their ids. -/
  sessions : List SessionStatus
  /-- `ctx.sessions.get(hostId)`. -/
  session : Option ℕ
  timers : List ReconnectTimer
  /-- `ctx.reconnectTimers.get(hostId)`. -/
  reconnectTimer : Option ℕ

/-- What happens to a host. `alive` says that an agent is still connected when its handshake is
handled, `mismatch` that it reports the wrong version, `late` and `expired` that the time for
reconnecting is up when it is looked at. -/
inductive ConnectionEvent
  /-- The user creates, changes or deletes the host. -/
  | setHost (host : Option HostKind)
  /-- `handleSpawn`, up to its first `await` behind the host. -/
  | spawn (clientId : String)
  | release (lease : ℕ) (hasChannels : Bool)
  | leaderConnected (n : ℕ) (alive mismatch : Bool)
  | leaderFailed (n : ℕ)
  /-- The guard of the leader. -/
  | leaderSettles (n : ℕ)
  | timerFires (t : ℕ)
  /-- `restartChannel`. -/
  | restart
  | attemptConnected (n : ℕ) (alive mismatch late expired : Bool)
  | attemptFailed (n : ℕ) (late expired : Bool)
  /-- `connectDaemonAgent`, in a SPAWN on a local host that found no connected agent and at
  startup. -/
  | connectDaemon (sessionId : ℕ)
  | attachConnected (alive : Bool)
  | attachReady
  | attachFailed
  | attachFinally
  /-- The connection of an agent is lost. -/
  | lost (a : ℕ)
  /-- The `close` event of an agent. `crashLoop` says that it had to be restarted too often. -/
  | closed (a : ℕ) (crashLoop : Bool)
  /-- The `error` event of an agent. -/
  | error (a : ℕ)
  /-- An agent reports the wrong version after it was wired. -/
  | helloMismatch (a : ℕ)
  /-- `SessionManager.closeSession`. -/
  | closeSession (sessionId : ℕ)
  /-- `lifecycle.closeSession` after a failed attach. -/
  | giveUp (sessionId : ℕ)
  /-- The client of a SPAWN is gone, and nothing else uses the session. -/
  | clientGone (sessionId : ℕ)

namespace HostConnections

/-- The hub with its session for the host restored from the database, or without one. -/
def start (hostId : String) (host : Option HostKind) (restored : Bool) : HostConnections where
  toAgentSlot := .new hostId
  host := host
  sessions := if restored then [.disconnected] else []
  session := if restored then some 0 else none
  timers := []
  reconnectTimer := none

variable (s : HostConnections)

/-- An operation on the slot. -/
def slot (f : AgentSlot → AgentSlot) : HostConnections :=
  { s with toAgentSlot := f s.toAgentSlot }

/-- The object is only written while it is the session of the host. -/
def updateSessionStatus (sessionId : ℕ) (status : SessionStatus) :
    HostConnections :=
  if s.session = some sessionId then { s with sessions := s.sessions.set sessionId status } else s

def deleteSession : HostConnections := { s with session := none }

/-- `getOrCreateSession`, with the id of the session. -/
def getOrCreateSession (isSsh : Bool) : HostConnections × ℕ :=
  match s.session.bind fun id ↦ s.sessions[id]?.map (id, ·) with
  | some (id, status) =>
    if status = .active ∨ status = .disconnected ∨ (isSsh = false ∧ status = .starting) then (s, id)
    else
      ({ s with sessions := s.sessions ++ [.starting], session := some s.sessions.length },
        s.sessions.length)
  | none =>
    ({ s with sessions := s.sessions ++ [.starting], session := some s.sessions.length },
      s.sessions.length)

def clearTimer : HostConnections :=
  match s.reconnectTimer with
  | none => s
  | some t =>
    { s with
      timers := s.timers.modify t fun x ↦ { x with pending := false }
      reconnectTimer := none }

/-- `lifecycle.closeSession`, which goes by the host. -/
def lifecycleCloseSession (sessionId : ℕ) : HostConnections :=
  ((s.clearTimer.slot AgentSlot.abortController).updateSessionStatus sessionId .closed)
    |>.deleteSession

def scheduleReconnect (sessionId : ℕ) (expired : Bool) : HostConnections :=
  if expired then s.lifecycleCloseSession sessionId
  else
    { s with
      timers := s.timers ++ [⟨sessionId, true⟩]
      reconnectTimer := some s.timers.length }

/-- The end of the `catch` of an attempt that was not aborted. -/
def retry (at' : Attempt) (late expired : Bool) : HostConnections :=
  if at'.timed = false then s
  else if late then
    if s.session = some at'.sessionId then s.lifecycleCloseSession at'.sessionId else s
  else s.scheduleReconnect at'.sessionId expired

/-- The `catch` of a leader whose connect failed. -/
def failLeader (n sessionId lease : ℕ) : HostConnections :=
  let t :=
    if s.sessions[sessionId]? = some .starting then
      (s.updateSessionStatus sessionId .closed).deleteSession
    else s
  t.slot fun u ↦ u.failConnectingAcq n lease "SSH connection failed"

/-- Join the acquisition of the host, or lead a new one. -/
def acquireOrJoin (clientId : String) : HostConnections :=
  let leader :=
    let (t, sessionId) := s.getOrCreateSession true
    t.slot fun u ↦ u.lead clientId sessionId
  match s.acquisitions.map.get s.hostId with
  | none => leader
  | some a =>
    match s.acquisitions.join a clientId with
    | (acquisitions, some _) => s.slot fun u ↦ { u with acquisitions := acquisitions }
    | (_, none) => leader

/-- `abortAgentVersionMismatch`. -/
def abortAgentVersionMismatch (a sessionId : ℕ) : HostConnections :=
  (s.slot fun u ↦ u.discard a).lifecycleCloseSession sessionId

/-- `this.ctx.sessions.get(hostId)?.id === sessionId`, with the guard of `commit`. -/
def mayCommit (n sessionId : ℕ) : Prop :=
  s.acquisitions.map.get s.hostId = some n ∧
    (∀ q ∈ s.acquisitions.acqs[n]?, q.state = .connecting ∧ q.aborted = false) ∧
    s.session = some sessionId

instance (s : HostConnections) (n sessionId : ℕ) : Decidable (s.mayCommit n sessionId) :=
  inferInstanceAs (Decidable (_ ∧ _ ∧ _))

/-- The re-check of an attempt behind its `start`. -/
def mayReconnect (n : ℕ) (at' : Attempt) : Prop :=
  at'.aborted = false ∧ s.controller = some n ∧ s.session = some at'.sessionId

instance (s : HostConnections) (n : ℕ) (at' : Attempt) : Decidable (s.mayReconnect n at') :=
  inferInstanceAs (Decidable (_ ∧ _ ∧ _))

/-- The `close` handler of the agent of the host, which is no longer connected. -/
def onClose (g : WiredAgent) (crashLoop : Bool) : HostConnections :=
  let t := s.slot AgentSlot.deleteAgent
  match t.session with
  | none => t
  | some sessionId =>
    if g.daemon then
      (t.updateSessionStatus sessionId .disconnected).slot fun u ↦ u.attachDaemon sessionId
    else if t.host = some .ssh then
      (t.updateSessionStatus sessionId .disconnected).scheduleReconnect sessionId false
    else if crashLoop then t.lifecycleCloseSession sessionId
    else t.slot fun u ↦ u.attachDaemon sessionId

def step : ConnectionEvent → Option HostConnections
  | .setHost host => some { s with host := host }
  | .spawn clientId =>
    match s.host with
    | none => some s
    | some kind =>
      if s.agentConnected = false ∧ kind = .ssh then some (s.acquireOrJoin clientId)
      else some (s.getOrCreateSession (kind = .ssh)).1
  | .release lease hasChannels =>
    if lease < s.acquisitions.leases.length then
      some (s.slot fun u ↦ { u with acquisitions := (u.acquisitions.release lease hasChannels).1 })
    else none
  | .leaderConnected n alive mismatch =>
    match s.leading n with
    | .connecting sessionId lease =>
      if s.acquisitions.isAborted n ∨ s.session ≠ some sessionId then
        some (s.failLeader n sessionId lease)
      else
        let a := s.agents.length
        let t := (s.updateSessionStatus sessionId .active).slot fun u ↦
          u.wireAgentEvents ⟨false, sessionId, some (.acquisition n), alive⟩
        if mismatch then
          some ((t.abortAgentVersionMismatch a sessionId).failLeader n sessionId lease)
        else some (t.slot fun u ↦
          { u with leading := Function.update u.leading n (.wired sessionId lease a) })
    | _ => none
  | .leaderFailed n =>
    match s.leading n with
    | .connecting sessionId lease => some (s.failLeader n sessionId lease)
    | _ => none
  | .leaderSettles n =>
    match s.leading n with
    | .wired sessionId lease a =>
      if s.mayCommit n sessionId then some (s.slot fun u ↦ (u.adoptAgent a).commit n sessionId)
      else
        let t := s.slot fun u ↦ u.closeAgent a
        let t := if t.session = some sessionId then t.deleteSession else t
        some (t.slot fun u ↦ u.failConnectingAcq n lease "SSH connect aborted")
    | _ => none
  | .timerFires t =>
    match s.timers[t]? with
    | some ⟨sessionId, true⟩ =>
      let u := { s with
        timers := s.timers.modify t fun x ↦ { x with pending := false }, reconnectTimer := none }
      if s.session = some sessionId ∧ s.sessions[sessionId]? ≠ some .closed then
        match s.host with
        | none => some (u.lifecycleCloseSession sessionId)
        | some _ => some (u.slot fun v ↦ v.startAttempt sessionId true)
      else some u
    | _ => none
  | .restart =>
    match s.session with
    | some sessionId =>
      if s.agentConnected = false ∧ s.host = some .ssh then
        some (s.slot fun u ↦ u.startAttempt sessionId false)
      else some s
    | none => some s
  | .attemptConnected n alive mismatch late expired =>
    match s.attempts[n]? with
    | some at' =>
      if at'.settled then none
      else
        let t := s.slot fun u ↦ u.settleAttempt n
        if s.mayReconnect n at' then
          let a := s.agents.length
          let t := (t.slot fun u ↦ u.deleteController n).updateSessionStatus at'.sessionId .active
          let t := t.slot fun u ↦
            u.wireAgentEvents ⟨false, at'.sessionId, some (.attempt n), alive⟩
          if mismatch then
            some ((t.abortAgentVersionMismatch a at'.sessionId).retry at' late expired)
          else some (t.slot fun u ↦ u.adoptAgent a)
        else some t
    | none => none
  | .attemptFailed n late expired =>
    match s.attempts[n]? with
    | some at' =>
      if at'.settled then none
      else
        let t := s.slot fun u ↦ (u.settleAttempt n).deleteController n
        if at'.aborted then some t else some (t.retry at' late expired)
    | none => none
  | .connectDaemon sessionId => some (s.slot fun u ↦ u.attachDaemon sessionId)
  | .attachConnected alive =>
    match s.attach with
    | some (.connecting sessionId) =>
      some (s.slot fun u ↦
        { u.wireAgentEvents ⟨true, sessionId, none, alive⟩ with
          attach := some (.wired sessionId u.agents.length) })
    | _ => none
  | .attachReady =>
    match s.attach with
    | some (.wired sessionId a) =>
      some ((s.slot fun u ↦ { u.adoptAgent a with attach := some .settled }).updateSessionStatus
        sessionId .active)
    | _ => none
  | .attachFailed =>
    match s.attach with
    | some (.connecting _) => some (s.slot fun u ↦ { u with attach := some .settled })
    | some (.wired _ a) => some (s.slot fun u ↦ { u.discard a with attach := some .settled })
    | _ => none
  | .attachFinally =>
    match s.attach with
    | some .settled => some (s.slot fun u ↦ { u with attach := none })
    | _ => none
  | .lost a => if a < s.agents.length then some (s.slot fun u ↦ u.closeAgent a) else none
  | .closed a crashLoop =>
    match s.agents[a]? with
    | some g =>
      if s.connected a then none
      else if s.agent = some a then some (s.onClose g crashLoop)
      else some s
    | none => none
  | .error a =>
    if a < s.agents.length then
      some (if s.agent = some a then s.slot fun u ↦ u.closeAgent a else s)
    else none
  | .helloMismatch a =>
    s.agents[a]?.map fun g ↦ s.abortAgentVersionMismatch a g.sessionId
  | .closeSession sessionId =>
    if s.session = some sessionId then
      some ((s.slot fun u ↦
        { u.closeCurrent with acquisitions := u.acquisitions.close u.hostId }).lifecycleCloseSession
          sessionId)
    else some s
  | .giveUp sessionId => some (s.lifecycleCloseSession sessionId)
  | .clientGone sessionId =>
    if s.session = some sessionId then
      some ((s.slot AgentSlot.closeCurrent).updateSessionStatus sessionId .closed).deleteSession
    else some s

end HostConnections

end Lasterm.Hub
