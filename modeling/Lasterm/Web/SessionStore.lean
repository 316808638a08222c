import Lasterm.Web.WsClient

/-!
# The session of a page

Model of `stores/session.ts` over `WsClient`: what `connect`, `_authenticate` and `disconnect`
register with the client and take back, and which of it an event of a socket runs.

`_doConnect` registers the handlers of all stores as soon as its socket is open, and nothing takes
them back. So there are as many of each as sockets of a `connect` that opened (`Counted`).
Where only one opens, the handlers are there once, and as long as nothing that `disconnect` came too
early for is let through (`Careful`), a reconnect of an authenticated session authenticates once and
no lifecycle callback runs behind `disconnect` (`handledOnce_of_careful`).

The listeners are closures that are made at their registration, so that none is registered twice as
the same one. What a reconnect fetches behind its authentication is left out.
-/

namespace Lasterm.Web.Session

open Runs

/-- The messages that something listens for. -/
inductive MessageType
  | AUTH_OK
  | AUTH_FAIL
  | WRITE_LOCK
  | WRITE_REQUEST
  | WRITE_REVOKED
  | WRITE_DENY
  | AUTH_PROMPT
  | HOST_VERIFY
  | AGENT_BINARY_VERIFY
  | AGENT_SYNCED
  | ERROR
  | AGENT_FETCH_PROGRESS
  | AGENT_FETCH_DONE
  | AGENT_FETCH_ERROR
  | PROMPT_CANCEL
  | SESSION_STATE
  | CHANNEL_STATE
  | CHANNEL_CREATED
  | TITLE_CHANGE
  | PROCESS_TITLE
  | BELL
  | NOTIFICATION
  | STATE_SYNC
  | other (type : String)
  deriving DecidableEq

open MessageType

structure Message (β : Type) where
  type : MessageType
  body : β

/-- Who waits for an authentication. -/
inductive Caller
  | doConnect
  | reconnect
  deriving DecidableEq

structure SessionStore (β : Type) where
  wsClient : WsClient (Message β)
  /-- The handlers of the stores, each by the type that it is registered for. -/
  listeners : List MessageType
  disconnectListeners : List ℕ
  reconnectListeners : List ℕ
  /-- `_unsubs`. -/
  unsubDisconnect : Option ℕ
  unsubReconnect : Option ℕ
  /-- `_connectPromise` is pending. -/
  connectPromise : Bool
  /-- The calls of `_authenticate` that wait, with a timer and two handlers each. -/
  auths : List Caller
  connected : Bool
  authenticated : Bool
  authFailed : Bool
  /-- What the handlers of the stores were called with. -/
  applied : List (Message β)
  /-- How often `AUTH` was sent, and how often a lifecycle callback ran. -/
  authsSent : ℕ
  lifecycleRuns : ℕ
  /-- How many sockets of a `connect` opened. -/
  opens : ℕ
  /-- `disconnect` was called, and `connect` was not called since. -/
  stopped : Bool
  /-- `disconnect` was called, and no socket of a `connect` opened since. -/
  down : Bool

inductive SessionEvent (β : Type)
  | connect (hubWsUrl : String)
  | disconnect
  | socket (e : WsEvent (Message β))
  /-- The timer of a call of `_authenticate` fires. -/
  | authTimeout (k : ℕ)

/-! ## Registrations -/

def registerWriteLockHandlers : List MessageType :=
  [WRITE_LOCK, WRITE_REQUEST, WRITE_REVOKED, WRITE_DENY]

def registerAuthPromptHandlers : List MessageType := [AUTH_PROMPT]

def registerHostVerifyHandlers : List MessageType := [HOST_VERIFY]

def registerAgentVerifyHandlers : List MessageType := [AGENT_BINARY_VERIFY, AGENT_SYNCED, ERROR]

def registerAgentFetchHandlers : List MessageType :=
  [AGENT_FETCH_PROGRESS, AGENT_FETCH_DONE, AGENT_FETCH_ERROR]

def registerPromptCancelHandlers : List MessageType := [PROMPT_CANCEL]

def registerSessionHandlers : List MessageType := [SESSION_STATE]

def registerChannelHandlers : List MessageType :=
  [CHANNEL_STATE, CHANNEL_CREATED, TITLE_CHANGE, PROCESS_TITLE]

def registerNotificationHandlers : List MessageType := [BELL, NOTIFICATION]

def registerStateSyncHandler : List MessageType := [STATE_SYNC]

/-- What `_doConnect` registers for the stores, in its order. -/
def storeHandlers : List MessageType :=
  registerWriteLockHandlers ++ registerAuthPromptHandlers ++ registerHostVerifyHandlers ++
    registerAgentVerifyHandlers ++ registerAgentFetchHandlers ++ registerPromptCancelHandlers ++
    registerSessionHandlers ++ registerChannelHandlers ++ registerNotificationHandlers ++
    registerStateSyncHandler

namespace SessionStore

variable {β : Type}

def new : SessionStore β :=
  ⟨WsClient.new, [], [], [], none, none, false, [], false, false, false, [], 0, 0, 0, false, false⟩

variable (s : SessionStore β)

def isConnected : Bool :=
  (s.wsClient.ws.bind (s.wsClient.sockets[·]?)).any fun x ↦ x.state = .opened

/-! ## The store -/

def connect (hubWsUrl : String) : SessionStore β :=
  if s.isConnected ∨ s.connectPromise then { s with stopped := false }
  else
    { s with
      stopped := false
      connectPromise := true
      wsClient := s.wsClient.connect hubWsUrl }

/-- `_authenticate`, up to the answer. -/
def authenticate (caller : Caller) : SessionStore β :=
  { s with auths := s.auths ++ [caller], authsSent := s.authsSent + 1 }

/-- `_doConnect`, from the open socket up to the answer. -/
def doConnectOpened : SessionStore β :=
  { s with
    connected := true
    listeners := s.listeners ++ storeHandlers
    opens := s.opens + 1
    down := false }.authenticate .doConnect

/-- `_doConnect`, behind the answer. The two callbacks bear the number of the socket that opened. -/
def registerLifecycle : SessionStore β :=
  { s with
    disconnectListeners := s.disconnectListeners ++ [s.opens]
    unsubDisconnect := some s.opens
    reconnectListeners := s.reconnectListeners ++ [s.opens]
    unsubReconnect := some s.opens
    connectPromise := false }

/-- `AUTH_OK`, with what runs behind the promises. -/
def authOk : SessionStore β :=
  if s.auths = [] then s
  else
    (s.auths.filter (· = .doConnect)).foldl (fun s _ ↦ s.registerLifecycle)
      { s with auths := [], authenticated := true, authFailed := false }

/-- `AUTH_FAIL`, likewise. -/
def authFail : SessionStore β :=
  if s.auths = [] then s
  else
    { s with
      auths := []
      authenticated := false
      authFailed := true
      connectPromise := s.connectPromise && !decide (.doConnect ∈ s.auths) }

def authTimeout (k : ℕ) (caller : Caller) : SessionStore β :=
  { s with
    auths := s.auths.eraseIdx k
    connectPromise := s.connectPromise && !decide (caller = .doConnect) }

def disconnect : SessionStore β :=
  { s with
    disconnectListeners := s.unsubDisconnect.elim s.disconnectListeners s.disconnectListeners.erase
    unsubDisconnect := none
    reconnectListeners := s.unsubReconnect.elim s.reconnectListeners s.reconnectListeners.erase
    unsubReconnect := none
    wsClient := s.wsClient.close
    connected := false
    authenticated := false
    stopped := true
    down := true }

/-! ## What a socket runs -/

/-- The callback of `onDisconnect`. -/
def disconnectCallback : SessionStore β :=
  { s with connected := false, lifecycleRuns := s.lifecycleRuns + 1 }

/-- The callback of `onReconnect`. -/
def reconnectCallback : SessionStore β :=
  { s with connected := true, lifecycleRuns := s.lifecycleRuns + 1 }.authenticate .reconnect

def runDisconnectListeners : SessionStore β :=
  s.disconnectListeners.foldl (fun s _ ↦ s.disconnectCallback) s

def runReconnectListeners : SessionStore β :=
  s.reconnectListeners.foldl (fun s _ ↦ s.reconnectCallback) s

/-- `_dispatch`: the handlers of the stores for the type, and those of `_authenticate`. -/
def dispatch (msg : Message β) : SessionStore β :=
  let s := { s with applied := s.applied ++ List.replicate (s.listeners.count msg.type) msg }
  match msg.type with
  | AUTH_OK => s.authOk
  | AUTH_FAIL => s.authFail
  | _ => s

/-- What an event of a socket runs, once the client has dealt with it. -/
def react (x : WebSocket) : WsEvent (Message β) → SessionStore β
  | .onopen _ => if x.reconnects then s.runReconnectListeners else s.doConnectOpened
  | .onerror _ =>
    if x.state = .connecting ∧ x.reconnects = false then { s with connectPromise := false } else s
  | .onclose _ => s.runDisconnectListeners
  | .onmessage _ (some msg) => s.dispatch msg
  | _ => s

/-- The socket of an event. -/
def socketOf : WsEvent (Message β) → Option ℕ
  | .onopen i | .onerror i | .onclose i | .onmessage i _ => some i
  | _ => none

/-- One event. `none` says that it cannot happen. -/
def step : SessionEvent β → Option (SessionStore β)
  | .connect hubWsUrl => some (s.connect hubWsUrl)
  | .disconnect => some s.disconnect
  | .authTimeout k => (s.auths[k]?).map fun caller ↦ s.authTimeout k caller
  | .socket (.connect _) | .socket .close => none
  | .socket (.timerFires t) =>
    (s.wsClient.step (.timerFires t)).map fun client ↦ { s with wsClient := client }
  | .socket e =>
    (s.wsClient.step e).bind fun client ↦
      ((socketOf e).bind (s.wsClient.sockets[·]?)).map fun x ↦
        { s with wsClient := client }.react x e

/-! ## What is to hold -/

/-- The messages that the stores handle. -/
def handled : SessionEvent β → List (Message β)
  | .socket (.onmessage _ (some msg)) => if msg.type ∈ storeHandlers then [msg] else []
  | _ => []

structure HandledOnce (e : SessionEvent β) (s' : SessionStore β) : Prop where
  registered : ∀ type ∈ storeHandlers, s'.listeners.count type ≤ 1
  applied : s'.applied = s.applied ++ handled e
  /-- An automatic reconnect of an authenticated session. -/
  reauthenticates : ∀ i x, e = .socket (.onopen i) → s.wsClient.sockets[i]? = some x →
    x.reconnects = true → s.authenticated = true → s'.authsSent = s.authsSent + 1
  silent : s.stopped = true → (∀ url, e ≠ .connect url) → s'.lifecycleRuns = s.lifecycleRuns

/-- One socket of a `connect` opens, and not behind `disconnect`; and nothing is authenticated
behind `disconnect`. -/
def Careful : SessionEvent β → Prop
  | .socket (.onopen i) => ∀ x ∈ s.wsClient.sockets[i]?, x.reconnects = false →
    s.opens = 0 ∧ s.stopped = false
  | .socket (.onmessage _ (some msg)) => msg.type = AUTH_OK → s.down = false
  | _ => True

variable {s} {s' : SessionStore β} {e : SessionEvent β} {c : WsClient (Message β)}

/-! ## The handlers -/

/-- The callbacks of `onReconnect`: each of them authenticates. -/
theorem runReconnectListeners_eq : s.runReconnectListeners =
    { s with
      connected := s.connected || !s.reconnectListeners.isEmpty
      auths := s.auths ++ List.replicate s.reconnectListeners.length .reconnect
      authsSent := s.authsSent + s.reconnectListeners.length
      lifecycleRuns := s.lifecycleRuns + s.reconnectListeners.length } := by
  have hfold : ∀ (ids : List ℕ) (s : SessionStore β), ids.foldl (fun s _ ↦ s.reconnectCallback) s =
      { s with
        connected := s.connected || !ids.isEmpty
        auths := s.auths ++ List.replicate ids.length .reconnect
        authsSent := s.authsSent + ids.length
        lifecycleRuns := s.lifecycleRuns + ids.length } := by
    intro ids
    induction ids with
    | nil =>
      intro s
      simp
    | cons id ids ih =>
      intro s
      rw [List.foldl_cons, ih, reconnectCallback, authenticate]
      simp [List.replicate_succ, Nat.add_assoc, Nat.add_comm 1]
  exact hfold s.reconnectListeners s

theorem runDisconnectListeners_eq : s.runDisconnectListeners =
    { s with
      connected := s.connected && s.disconnectListeners.isEmpty
      lifecycleRuns := s.lifecycleRuns + s.disconnectListeners.length } := by
  have hfold : ∀ (ids : List ℕ) (s : SessionStore β),
      ids.foldl (fun s _ ↦ s.disconnectCallback) s =
        { s with
          connected := s.connected && ids.isEmpty
          lifecycleRuns := s.lifecycleRuns + ids.length } := by
    intro ids
    induction ids with
    | nil =>
      intro s
      simp
    | cons id ids ih =>
      intro s
      rw [List.foldl_cons, ih, disconnectCallback]
      simp [Nat.add_assoc, Nat.add_comm 1]
  exact hfold s.disconnectListeners s

theorem nodup_storeHandlers : storeHandlers.Nodup := by decide

theorem connect_cases (hubWsUrl : String) : s.connect hubWsUrl = { s with stopped := false } ∨
    s.connect hubWsUrl = { s with
      stopped := false
      connectPromise := true
      wsClient := s.wsClient.connect hubWsUrl } := by
  unfold connect
  split
  · exact .inl rfl
  · exact .inr rfl

/-- What an answer to `AUTH` leaves alone. -/
theorem authOk_keeps : s.authOk.listeners = s.listeners ∧ s.authOk.opens = s.opens ∧
    s.authOk.wsClient = s.wsClient ∧ s.authOk.applied = s.applied ∧
    s.authOk.lifecycleRuns = s.lifecycleRuns := by
  have hfold : ∀ (callers : List Caller) (s : SessionStore β),
      let t := callers.foldl (fun s _ ↦ s.registerLifecycle) s
      t.listeners = s.listeners ∧ t.opens = s.opens ∧ t.wsClient = s.wsClient ∧
        t.applied = s.applied ∧ t.lifecycleRuns = s.lifecycleRuns := by
    intro callers
    induction callers with
    | nil => exact fun s ↦ ⟨rfl, rfl, rfl, rfl, rfl⟩
    | cons caller callers ih => exact fun s ↦ ih s.registerLifecycle
  unfold authOk
  split
  · exact ⟨rfl, rfl, rfl, rfl, rfl⟩
  · exact hfold _ _

theorem authFail_keeps : s.authFail.listeners = s.listeners ∧ s.authFail.opens = s.opens ∧
    s.authFail.wsClient = s.wsClient ∧ s.authFail.applied = s.applied ∧
    s.authFail.lifecycleRuns = s.lifecycleRuns := by
  unfold authFail
  split <;> exact ⟨rfl, rfl, rfl, rfl, rfl⟩

theorem dispatch_keeps (msg : Message β) : (s.dispatch msg).listeners = s.listeners ∧
    (s.dispatch msg).opens = s.opens ∧ (s.dispatch msg).wsClient = s.wsClient ∧
    (s.dispatch msg).applied = s.applied ++ List.replicate (s.listeners.count msg.type) msg ∧
    (s.dispatch msg).lifecycleRuns = s.lifecycleRuns := by
  unfold dispatch
  dsimp only
  split
  · exact authOk_keeps
  · exact authFail_keeps
  · exact ⟨rfl, rfl, rfl, rfl, rfl⟩

/-- Sockets of a `connect` that open register the handlers. -/
theorem react_registers (x : WebSocket) (e : WsEvent (Message β)) :
    (s.react x e).listeners = s.listeners ∧ (s.react x e).opens = s.opens ∨
      (∃ i, e = .onopen i) ∧ x.reconnects = false ∧
        (s.react x e).listeners = s.listeners ++ storeHandlers ∧
        (s.react x e).opens = s.opens + 1 := by
  cases e with
  | onopen i =>
    rw [react]
    split
    · rw [runReconnectListeners_eq]
      exact .inl ⟨rfl, rfl⟩
    · exact .inr ⟨⟨i, rfl⟩, Bool.eq_false_iff.mpr ‹_›, rfl, rfl⟩
  | onerror i =>
    rw [react]
    split <;> exact .inl ⟨rfl, rfl⟩
  | onclose i =>
    rw [react, runDisconnectListeners_eq]
    exact .inl ⟨rfl, rfl⟩
  | onmessage i msg =>
    cases msg with
    | none => exact .inl ⟨rfl, rfl⟩
    | some msg =>
      obtain ⟨hlisteners, hopens, -⟩ := s.dispatch_keeps msg
      exact .inl ⟨hlisteners, hopens⟩
  | connect url => exact .inl ⟨rfl, rfl⟩
  | close => exact .inl ⟨rfl, rfl⟩
  | timerFires t => exact .inl ⟨rfl, rfl⟩

/-- What an event of a socket leads to. -/
theorem step_socket {e : WsEvent (Message β)} (h : s.step (.socket e) = some s') :
    ∃ client, s.wsClient.step e = some client ∧
      ((∃ t, e = .timerFires t) ∧ s' = { s with wsClient := client } ∨
        ∃ i x, socketOf e = some i ∧ s.wsClient.sockets[i]? = some x ∧
          s' = { s with wsClient := client }.react x e) := by
  have hsocket : (s.wsClient.step e).bind (fun client ↦
      ((socketOf e).bind (s.wsClient.sockets[·]?)).map fun x ↦
        { s with wsClient := client }.react x e) = some s' →
      ∃ client, s.wsClient.step e = some client ∧ ∃ i x, socketOf e = some i ∧
        s.wsClient.sockets[i]? = some x ∧ s' = { s with wsClient := client }.react x e := by
    intro hbind
    obtain ⟨client, hclient, hbind⟩ := Option.bind_eq_some_iff.mp hbind
    obtain ⟨x, hx, hreact⟩ := Option.map_eq_some_iff.mp hbind
    obtain ⟨i, hi, hx⟩ := Option.bind_eq_some_iff.mp hx
    exact ⟨client, hclient, i, x, hi, hx, hreact.symm⟩
  cases e with
  | connect url => cases h
  | close => cases h
  | timerFires t =>
    obtain ⟨client, hclient, rfl⟩ := Option.map_eq_some_iff.mp h
    exact ⟨client, hclient, .inl ⟨⟨t, rfl⟩, rfl⟩⟩
  | onopen i =>
    obtain ⟨client, hclient, hreact⟩ := hsocket h
    exact ⟨client, hclient, .inr hreact⟩
  | onerror i =>
    obtain ⟨client, hclient, hreact⟩ := hsocket h
    exact ⟨client, hclient, .inr hreact⟩
  | onclose i =>
    obtain ⟨client, hclient, hreact⟩ := hsocket h
    exact ⟨client, hclient, .inr hreact⟩
  | onmessage i msg =>
    obtain ⟨client, hclient, hreact⟩ := hsocket h
    exact ⟨client, hclient, .inr hreact⟩

/-- As many of each handler as sockets of a `connect` that opened. -/
def Counted (s : SessionStore β) : Prop :=
  ∀ type, s.listeners.count type = if type ∈ storeHandlers then s.opens else 0

theorem Counted.append (h : s.Counted) (hlisteners : s'.listeners = s.listeners ++ storeHandlers)
    (hopens : s'.opens = s.opens + 1) : s'.Counted := by
  intro type
  rw [hlisteners, hopens, List.count_append, h type, nodup_storeHandlers.count]
  split <;> rfl

theorem Counted.step (h : s.Counted) (hstep : s.step e = some s') : s'.Counted := by
  have hkeeps : s'.listeners = s.listeners → s'.opens = s.opens → s'.Counted := by
    intro hlisteners hopens type
    rw [hlisteners, hopens]
    exact h type
  cases e with
  | connect url =>
    cases hstep
    rcases connect_cases (s := s) url with hconnect | hconnect <;> rw [hconnect] at hkeeps ⊢
    · exact hkeeps rfl rfl
    · exact hkeeps rfl rfl
  | disconnect =>
    cases hstep
    exact hkeeps rfl rfl
  | authTimeout k =>
    obtain ⟨caller, -, rfl⟩ := Option.map_eq_some_iff.mp hstep
    exact hkeeps rfl rfl
  | socket e =>
    obtain ⟨client, -, ⟨-, rfl⟩ | ⟨i, x, -, -, rfl⟩⟩ := step_socket hstep
    · exact hkeeps rfl rfl
    · rcases react_registers (s := { s with wsClient := client }) x e with
        ⟨hlisteners, hopens⟩ | ⟨-, -, hlisteners, hopens⟩
      · exact hkeeps hlisteners hopens
      · exact h.append hlisteners hopens

/-! ## One socket of a `connect` -/

/-- A client of which no socket has opened. -/
structure Unopened (c : WsClient (Message β)) : Prop where
  timers : c.timers = []
  reconnectUrl : c.reconnectUrl = none
  sockets : ∀ x ∈ c.sockets, x.reconnects = false ∧ x.state ≠ .opened

/-- What holds as long as all is `Careful`: at most one socket of a `connect` opened, and the store
knows the lifecycle callbacks that are registered, of which there are none behind `disconnect`. -/
structure Ready (s : SessionStore β) : Prop where
  counted : s.Counted
  opens : s.opens ≤ 1
  unopened : s.opens = 0 → s.auths = [] ∧ s.unsubReconnect = none ∧ Unopened s.wsClient
  reconnects : s.reconnectListeners = s.unsubReconnect.toList
  disconnects : s.disconnectListeners = s.unsubReconnect.toList
  unsubs : s.unsubDisconnect = s.unsubReconnect
  stopped : s.stopped = true → s.down = true
  down : s.down = true → s.unsubReconnect = none
  authenticated : s.authenticated = true → s.down = false ∧ s.unsubReconnect ≠ none
  /-- It is `_doConnect` that waits for an answer, or only reconnects are. -/
  waits : s.down = false → s.auths = [.doConnect] ∧ s.unsubReconnect = none ∨
    (∀ a ∈ s.auths, a = .reconnect) ∧ (s.auths ≠ [] → s.unsubReconnect ≠ none)

theorem ready_new : (new : SessionStore β).Ready where
  counted _ := by
    split <;> rfl
  opens := Nat.zero_le _
  unopened _ := ⟨rfl, rfl, rfl, rfl, nofun⟩
  reconnects := rfl
  disconnects := rfl
  unsubs := rfl
  stopped := nofun
  down := nofun
  authenticated := nofun
  waits _ := .inr ⟨nofun, fun h ↦ absurd rfl h⟩

/-! ### The client -/

theorem Unopened.setState (h : Unopened c) {i : ℕ} {x : WebSocket}
    (hx : c.sockets[i]? = some x) {state : SocketState} (hstate : state ≠ .opened) :
    Unopened (c.setState i x state) where
  timers := h.timers
  reconnectUrl := h.reconnectUrl
  sockets := by
    intro y hy
    rcases List.mem_or_eq_of_mem_set hy with hy | rfl
    · exact h.sockets y hy
    · exact ⟨(h.sockets x (List.mem_of_getElem? hx)).1, hstate⟩

theorem Unopened.connect (h : Unopened c) (url : String) :
    Unopened (c.connect url) where
  timers := h.timers
  reconnectUrl := h.reconnectUrl
  sockets := by
    intro x hx
    rcases List.mem_append.mp hx with hx | hx
    · exact h.sockets x hx
    · rw [List.mem_singleton.mp hx]
      exact ⟨rfl, nofun⟩

theorem Unopened.close (h : Unopened c) : Unopened c.close := by
  have htimers : c.close.timers = [] := by
    rw [WsClient.close, h.timers]
    cases c.reconnectTimer with
    | none => rfl
    | some t => exact List.modify_nil ..
  have hsockets : c.close.sockets = c.sockets := by
    rw [WsClient.close]
    cases c.ws with
    | none => rfl
    | some i =>
      -- No socket is open.
      refine List.ext_getElem? fun j ↦ ?_
      rw [Option.elim_some, WsClient.closeSocket, List.getElem?_modify]
      split
      · cases hj : c.sockets[j]? with
        | none => rfl
        | some x => exact congrArg some (if_neg (h.sockets x (List.mem_of_getElem? hj)).2)
      · exact Option.map_id' ..
  exact ⟨htimers, rfl, fun x hx ↦ h.sockets x (hsockets ▸ hx)⟩

theorem Unopened.scheduleReconnect (h : Unopened c) :
    c.scheduleReconnect = c := by
  unfold WsClient.scheduleReconnect WsClient.reconnectTarget
  rw [h.reconnectUrl]
  rfl

/-- Before a socket opens, sockets fail and close. -/
theorem Unopened.step {c c' : WsClient (Message β)} (h : Unopened c) {e : WsEvent (Message β)}
    (hstep : c.step e = some c') (hopen : ∀ i, e ≠ .onopen i) : Unopened c' := by
  cases e with
  | connect url =>
    cases hstep
    exact h.connect url
  | close =>
    cases hstep
    exact h.close
  | onopen i => exact absurd rfl (hopen i)
  | onerror i =>
    rw [WsClient.step] at hstep
    split at hstep
    · cases hstep
    · rename_i x hx
      obtain ⟨-, hstep⟩ := Option.ite_none_left_eq_some.mp hstep
      cases hstep
      have hset : Unopened (c.setState i x .failed) := h.setState hx (by rintro ⟨⟩)
      have hplain := (h.sockets x (List.mem_of_getElem? hx)).1
      rw [WsClient.onerror, if_neg fun hboth ↦ Bool.false_ne_true (hplain.symm.trans hboth.2)]
      exact hset
  | onclose i =>
    rw [WsClient.step] at hstep
    split at hstep
    · cases hstep
    · rename_i x hx
      obtain ⟨-, hstep⟩ := Option.ite_none_left_eq_some.mp hstep
      cases hstep
      have hset : Unopened (c.setState i x .closed) := h.setState hx (by rintro ⟨⟩)
      have hnone : Unopened { c.setState i x .closed with ws := none } :=
        ⟨hset.timers, hset.reconnectUrl, hset.sockets⟩
      rw [WsClient.onclose, hnone.scheduleReconnect]
      exact hnone
  | onmessage i msg =>
    rw [WsClient.step] at hstep
    split at hstep
    · cases hstep
    · rename_i x hx
      obtain ⟨hopened, -⟩ := Option.ite_none_right_eq_some.mp hstep
      exact absurd hopened (h.sockets x (List.mem_of_getElem? hx)).2
  | timerFires t =>
    rw [WsClient.step, h.timers] at hstep
    cases hstep

/-! ### Events -/

theorem Ready.withClient (h : s.Ready) {client : WsClient (Message β)}
    (hclient : s.opens = 0 → Unopened client) : Ready { s with wsClient := client } :=
  { h with
    unopened := fun hopens ↦ ⟨(h.unopened hopens).1, (h.unopened hopens).2.1, hclient hopens⟩ }

theorem Ready.connect (h : s.Ready) (url : String) : (s.connect url).Ready := by
  rcases connect_cases (s := s) url with hconnect | hconnect <;> rw [hconnect]
  · exact { h with stopped := nofun }
  · exact
      { h.withClient fun hopens ↦ (h.unopened hopens).2.2.connect url with stopped := nofun }

theorem erase_toList (id : Option ℕ) : id.elim id.toList id.toList.erase = [] := by
  cases id with
  | none => rfl
  | some id => exact List.erase_cons_head ..

section

variable (h : s.Ready)
include h

theorem Ready.disconnect : s.disconnect.Ready where
  counted := h.counted
  opens := h.opens
  unopened hopens := ⟨(h.unopened hopens).1, rfl, (h.unopened hopens).2.2.close⟩
  reconnects := by
    rw [SessionStore.disconnect]
    dsimp only
    rw [h.reconnects, erase_toList]
    rfl
  disconnects := by
    rw [SessionStore.disconnect]
    dsimp only
    rw [h.disconnects, h.unsubs, erase_toList]
    rfl
  unsubs := rfl
  stopped _ := rfl
  down _ := rfl
  authenticated := nofun
  waits := nofun

theorem Ready.authTimeout {k : ℕ} {caller : Caller} (hk : s.auths[k]? = some caller) :
    (s.authTimeout k caller).Ready :=
  { h with
    unopened := fun hopens ↦ by
      rw [(h.unopened hopens).1] at hk
      cases hk
    waits := fun hdown ↦ by
      refine .inr ?_
      rw [SessionStore.authTimeout]
      dsimp only
      rcases h.waits hdown with ⟨hauths, -⟩ | ⟨hreconnects, hlistens⟩
      · rw [hauths] at hk ⊢
        cases k with
        | zero => exact ⟨nofun, fun hne ↦ absurd rfl hne⟩
        | succ k => cases hk
      · refine ⟨fun a ha ↦ hreconnects a (List.mem_of_mem_eraseIdx ha), fun hne ↦ hlistens ?_⟩
        rintro hnil
        exact hne (by rw [hnil, List.eraseIdx_nil]) }

/-- `_doConnect`, when the first socket opens. -/
theorem Ready.doConnectOpened (hopens : s.opens = 0) (hstopped : s.stopped = false)
    (client : WsClient (Message β)) : { s with wsClient := client }.doConnectOpened.Ready := by
  obtain ⟨hauths, hunsub, -⟩ := h.unopened hopens
  unfold SessionStore.doConnectOpened authenticate
  exact
    { h with
      counted := h.counted.append rfl rfl
      opens := Nat.le_of_eq (by rw [hopens])
      unopened := fun hzero ↦ absurd hzero (Nat.succ_ne_zero _)
      stopped := fun hstop ↦ absurd (hstop.symm.trans hstopped) Bool.noConfusion
      down := nofun
      authenticated := fun hauth ↦ absurd hunsub (h.authenticated hauth).2
      waits := fun _ ↦ .inl ⟨by rw [hauths]; rfl, hunsub⟩ }

theorem Ready.runReconnectListeners (hopens : s.opens ≠ 0) :
    s.runReconnectListeners.Ready := by
  rw [runReconnectListeners_eq]
  refine
    { h with
      unopened := fun hzero ↦ absurd hzero hopens
      waits := fun hdown ↦ ?_ }
  dsimp only
  rw [h.reconnects]
  cases hunsub : s.unsubReconnect with
  | none =>
    have hwaits := h.waits hdown
    rw [hunsub] at hwaits
    rw [Option.toList_none, List.length_nil, List.replicate_zero, List.append_nil]
    exact hwaits
  | some id =>
    refine .inr ⟨fun a ha ↦ ?_, fun _ ↦ Option.some_ne_none id⟩
    rcases h.waits hdown with ⟨-, hnone⟩ | ⟨hreconnects, -⟩
    · rw [hunsub] at hnone
      cases hnone
    · rcases List.mem_append.mp ha with ha | ha
      · exact hreconnects a ha
      · exact (List.mem_replicate.mp ha).2

theorem Ready.runDisconnectListeners : s.runDisconnectListeners.Ready := by
  rw [runDisconnectListeners_eq]
  exact { h with }

theorem Ready.authOk (hopens : s.opens ≠ 0) (hdown : s.down = false) :
    s.authOk.Ready := by
  unfold SessionStore.authOk
  split
  · exact h
  · rename_i hne
    have hnot : ∀ P : Prop, s.down = true → P :=
      fun P hd ↦ absurd (hdown.symm.trans hd) Bool.noConfusion
    rcases h.waits hdown with ⟨hauths, hunsub⟩ | ⟨hreconnects, hlistens⟩
    · have hnone : s.unsubReconnect.toList = [] := by rw [hunsub]; rfl
      rw [hauths, List.filter_cons_of_pos rfl, List.filter_nil, List.foldl_cons, List.foldl_nil]
      unfold registerLifecycle
      exact
        { h with
          unopened := fun hzero ↦ absurd hzero hopens
          reconnects := by
            dsimp only
            rw [h.reconnects, hnone]
            rfl
          disconnects := by
            dsimp only
            rw [h.disconnects, hnone]
            rfl
          unsubs := rfl
          down := hnot _
          authenticated := fun _ ↦ ⟨hdown, Option.some_ne_none _⟩
          waits := fun _ ↦ .inr ⟨nofun, fun hnil ↦ absurd rfl hnil⟩ }
    · have hfilter : s.auths.filter (· = Caller.doConnect) = [] := by
        refine List.filter_eq_nil_iff.mpr fun a ha ↦ ?_
        rw [hreconnects a ha]
        exact Bool.false_ne_true
      rw [hfilter, List.foldl_nil]
      exact
        { h with
          unopened := fun hzero ↦ absurd hzero hopens
          authenticated := fun _ ↦ ⟨hdown, hlistens hne⟩
          waits := fun _ ↦ .inr ⟨nofun, fun hnil ↦ absurd rfl hnil⟩ }

theorem Ready.authFail : s.authFail.Ready := by
  unfold SessionStore.authFail
  split
  · exact h
  · exact
      { h with
        unopened := fun hopens ↦ ⟨rfl, (h.unopened hopens).2⟩
        authenticated := nofun
        waits := fun _ ↦ .inr ⟨nofun, fun hnil ↦ absurd rfl hnil⟩ }

theorem Ready.dispatch (hopens : s.opens ≠ 0) {msg : Message β}
    (hdown : msg.type = AUTH_OK → s.down = false) : (s.dispatch msg).Ready := by
  have happlied : Ready
      { s with applied := s.applied ++ List.replicate (s.listeners.count msg.type) msg } :=
    { h with }
  unfold SessionStore.dispatch
  dsimp only
  split
  · rename_i htype
    exact happlied.authOk hopens (hdown htype)
  · exact happlied.authFail
  · exact happlied

end

/-- What is left to say of an event that keeps the store `Ready`. -/
theorem Ready.handledOnce (h : s'.Ready) (happlied : s'.applied = s.applied ++ handled e)
    (hreauthenticates : ∀ i x, e = .socket (.onopen i) → s.wsClient.sockets[i]? = some x →
      x.reconnects = true → s.authenticated = true → s'.authsSent = s.authsSent + 1)
    (hsilent : s.stopped = true → (∀ url, e ≠ .connect url) →
      s'.lifecycleRuns = s.lifecycleRuns) : HandledOnce s e s' := by
  refine ⟨fun type htype ↦ ?_, happlied, hreauthenticates, hsilent⟩
  rw [h.counted type, if_pos htype]
  exact h.opens

/-- Behind `disconnect` there is no listener. -/
theorem Ready.length_listeners (h : s.Ready) (hstopped : s.stopped = true) :
    s.unsubReconnect.toList.length = 0 := by
  rw [h.down (h.stopped hstopped)]
  rfl

theorem Ready.step_onopen (h : s.Ready) {i : ℕ} (hcareful : s.Careful (.socket (.onopen i)))
    {x : WebSocket} (hx : s.wsClient.sockets[i]? = some x) (client : WsClient (Message β)) :
    ({ s with wsClient := client }.react x (.onopen i)).Ready ∧
      HandledOnce s (.socket (.onopen i)) ({ s with wsClient := client }.react x (.onopen i)) := by
  rw [react]
  split
  · rename_i hreconnects
    have hopens : s.opens ≠ 0 := by
      intro hzero
      have hplain := ((h.unopened hzero).2.2.sockets x (List.mem_of_getElem? hx)).1
      exact Bool.false_ne_true (hplain.symm.trans hreconnects)
    have hclient : Ready { s with wsClient := client } :=
      h.withClient fun hzero ↦ absurd hzero hopens
    have hready := hclient.runReconnectListeners hopens
    refine ⟨hready, hready.handledOnce ?_ ?_ ?_⟩
    · rw [runReconnectListeners_eq]
      exact (List.append_nil _).symm
    · intro _ _ _ _ _ hauth
      obtain ⟨id, hid⟩ := Option.ne_none_iff_exists'.mp (h.authenticated hauth).2
      rw [runReconnectListeners_eq]
      dsimp only
      rw [h.reconnects, hid]
      rfl
    · intro hstopped _
      rw [runReconnectListeners_eq]
      dsimp only
      rw [h.reconnects, h.length_listeners hstopped, Nat.add_zero]
  · rename_i hconnects
    obtain ⟨hopens, hstopped⟩ := hcareful x hx (Bool.eq_false_iff.mpr hconnects)
    have hready := h.doConnectOpened hopens hstopped client
    refine ⟨hready, hready.handledOnce (List.append_nil _).symm ?_ fun _ _ ↦ rfl⟩
    intro j y hj hy hreconnects
    cases hj
    rw [hx] at hy
    cases hy
    exact absurd hreconnects hconnects

theorem Ready.step_onmessage (h : s.Ready) {i : ℕ} {msg : Option (Message β)}
    (hcareful : s.Careful (.socket (.onmessage i msg))) {client : WsClient (Message β)}
    (hclient : s.wsClient.step (.onmessage i msg) = some client) (x : WebSocket) :
    ({ s with wsClient := client }.react x (.onmessage i msg)).Ready ∧
      HandledOnce s (.socket (.onmessage i msg))
        ({ s with wsClient := client }.react x (.onmessage i msg)) := by
  -- The socket is open, and so is a socket of a `connect` or was.
  have hopens : s.opens ≠ 0 := by
    intro hzero
    rw [WsClient.step] at hclient
    split at hclient
    · cases hclient
    · rename_i y hy
      obtain ⟨hopened, -⟩ := Option.ite_none_right_eq_some.mp hclient
      exact ((h.unopened hzero).2.2.sockets y (List.mem_of_getElem? hy)).2 hopened
  have hready : Ready { s with wsClient := client } :=
    h.withClient fun hzero ↦ absurd hzero hopens
  cases msg with
  | none =>
    refine ⟨hready, hready.handledOnce (List.append_nil _).symm ?_ fun _ _ ↦ rfl⟩
    rintro _ _ ⟨⟩
  | some msg =>
    rw [react]
    obtain ⟨-, -, -, happlied, hruns⟩ := dispatch_keeps (s := { s with wsClient := client }) msg
    have hready' := hready.dispatch hopens hcareful
    refine ⟨hready', hready'.handledOnce ?_ ?_ fun _ _ ↦ hruns⟩
    · rw [happlied, handled]
      dsimp only
      split
      · rename_i htype
        have hone : s.opens = 1 := Nat.le_antisymm h.opens (Nat.pos_of_ne_zero hopens)
        rw [h.counted, if_pos htype, hone]
        rfl
      · rename_i htype
        rw [h.counted, if_neg htype]
        rfl
    · rintro _ _ ⟨⟩

/-- **An event that is let through**: it keeps the store `Ready`, and it is handled once. -/
theorem Ready.step (h : s.Ready) (hcareful : s.Careful e) (hstep : s.step e = some s') :
    s'.Ready ∧ HandledOnce s e s' := by
  cases e with
  | connect url =>
    cases hstep
    refine ⟨h.connect url, (h.connect url).handledOnce ?_ nofun fun _ hno ↦ absurd rfl (hno url)⟩
    rcases connect_cases (s := s) url with hconnect | hconnect <;> rw [hconnect]
    · exact (List.append_nil _).symm
    · exact (List.append_nil _).symm
  | disconnect =>
    cases hstep
    exact ⟨h.disconnect, h.disconnect.handledOnce (List.append_nil _).symm nofun fun _ _ ↦ rfl⟩
  | authTimeout k =>
    obtain ⟨caller, hk, rfl⟩ := Option.map_eq_some_iff.mp hstep
    have hready := h.authTimeout hk
    exact ⟨hready, hready.handledOnce (List.append_nil _).symm nofun fun _ _ ↦ rfl⟩
  | socket e =>
    obtain ⟨client, hclient, ⟨⟨t, rfl⟩, rfl⟩ | ⟨i, x, hi, hx, rfl⟩⟩ := step_socket hstep
    · have hready := h.withClient fun hopens ↦ (h.unopened hopens).2.2.step hclient nofun
      exact ⟨hready, hready.handledOnce (List.append_nil _).symm nofun fun _ _ ↦ rfl⟩
    · cases e with
      | connect url => cases hi
      | close => cases hi
      | timerFires t => cases hi
      | onopen i =>
        cases hi
        exact h.step_onopen hcareful hx client
      | onerror i =>
        have hready := h.withClient fun hopens ↦ (h.unopened hopens).2.2.step hclient nofun
        rw [react]
        split
        · have hready' : Ready { s with wsClient := client, connectPromise := false } :=
            { hready with }
          exact ⟨hready', hready'.handledOnce (List.append_nil _).symm nofun fun _ _ ↦ rfl⟩
        · exact ⟨hready, hready.handledOnce (List.append_nil _).symm nofun fun _ _ ↦ rfl⟩
      | onclose i =>
        have hready := (h.withClient fun hopens ↦
          (h.unopened hopens).2.2.step hclient nofun).runDisconnectListeners
        rw [react]
        refine ⟨hready, hready.handledOnce ?_ nofun fun hstopped _ ↦ ?_⟩
        · rw [runDisconnectListeners_eq]
          exact (List.append_nil _).symm
        · rw [runDisconnectListeners_eq]
          dsimp only
          rw [h.disconnects, h.length_listeners hstopped, Nat.add_zero]
      | onmessage i msg =>
        exact h.step_onmessage hcareful hclient x

/-! ## Runs -/

/-- The only socket of a `connect` that opens. -/
def FirstOpen (s : SessionStore β) : SessionEvent β → Prop
  | .socket (.onopen i) => ∀ x ∈ s.wsClient.sockets[i]?, x.reconnects = false → s.opens = 0
  | _ => True

theorem firstOpen_of_ne {e : WsEvent (Message β)} (h : ¬∃ i, e = .onopen i) :
    s.FirstOpen (.socket e) := by
  cases e with
  | onopen i => exact absurd ⟨i, rfl⟩ h
  | _ => trivial

theorem opens_step (hstep : s.step e = some s') (h : s.opens ≤ 1) :
    s'.opens ≤ 1 ↔ s.FirstOpen e := by
  have hsame : s'.opens = s.opens → s.FirstOpen e → (s'.opens ≤ 1 ↔ s.FirstOpen e) :=
    fun hopens hfirst ↦ iff_of_true (hopens ▸ h) hfirst
  cases e with
  | connect url =>
    obtain rfl := Option.some.inj hstep
    rcases connect_cases (s := s) url with hconnect | hconnect <;> rw [hconnect] at hsame ⊢
    · exact hsame rfl trivial
    · exact hsame rfl trivial
  | disconnect =>
    obtain rfl := Option.some.inj hstep
    exact hsame rfl trivial
  | authTimeout k =>
    obtain ⟨caller, -, rfl⟩ := Option.map_eq_some_iff.mp hstep
    exact hsame rfl trivial
  | socket e =>
    obtain ⟨client, -, ⟨⟨t, rfl⟩, rfl⟩ | ⟨i, x, hi, hx, rfl⟩⟩ := step_socket hstep
    · exact hsame rfl trivial
    · by_cases hopen : ∃ j, e = .onopen j
      · obtain ⟨j, rfl⟩ := hopen
        obtain rfl := Option.some.inj hi
        have hfirst : s.FirstOpen (.socket (.onopen j)) ↔ (x.reconnects = false → s.opens = 0) := by
          rw [FirstOpen, hx]
          exact ⟨fun hall ↦ hall x rfl, fun hall y hy ↦ Option.some.inj hy ▸ hall⟩
        rw [hfirst, react]
        split
        · rename_i hreconnects
          rw [runReconnectListeners_eq]
          exact iff_of_true h fun hplain ↦ absurd (hreconnects.symm.trans hplain) Bool.noConfusion
        · rename_i hconnects
          rw [imp_iff_right (Bool.eq_false_iff.mpr hconnects)]
          exact Nat.add_le_add_iff_right.trans Nat.le_zero
      · rcases react_registers (s := { s with wsClient := client }) x e with
          ⟨-, hopens⟩ | ⟨hexists, -⟩
        · exact hsame hopens (firstOpen_of_ne hopen)
        · exact absurd hexists hopen

/-- **Each message is handled once**: the handlers of the stores are registered as often as a socket
of a `connect` opened, and so once at most if and only if one opens at most. Where it does not open
behind `disconnect`, and nothing is authenticated behind it, each message is handled once, each
reconnect of an authenticated session authenticates once, and no lifecycle callback runs behind
`disconnect`. -/
theorem handledOnce_of_careful (events : List (SessionEvent β)) :
    Along step (fun _ _ s' ↦ ∀ type ∈ storeHandlers, s'.listeners.count type = s'.opens)
        new events ∧
      (Along step (fun _ _ s' ↦ ∀ type ∈ storeHandlers, s'.listeners.count type ≤ 1) new events ↔
        Along step (fun s e _ ↦ s.FirstOpen e) new events) ∧
      (Along step (fun s e _ ↦ s.Careful e) new events → Along step HandledOnce new events) := by
  have hall : Along step (fun _ _ _ ↦ True) (new : SessionStore β) events :=
    along_of_forall_mem fun _ _ _ _ _ ↦ trivial
  refine ⟨?_, ?_, fun hcareful ↦ ?_⟩
  · refine along_of_invariant Counted (fun s e s' hs _ hstep ↦ ?_) ready_new.counted hall
    exact ⟨hs.step hstep, fun type htype ↦ (hs.step hstep type).trans (if_pos htype)⟩
  · refine along_congr_of_keeps (fun s ↦ s.Counted ∧ s.opens ≤ 1) ?_
      ⟨ready_new.counted, ready_new.opens⟩
    rintro s e s' ⟨hs, hopens⟩ hstep
    have hiff := opens_step hstep hopens
    have hone : (∀ type ∈ storeHandlers, s'.listeners.count type ≤ 1) ↔ s'.opens ≤ 1 := by
      constructor
      · intro hle
        have hnotification : NOTIFICATION ∈ storeHandlers := by decide
        have hcount := hle _ hnotification
        rwa [hs.step hstep, if_pos hnotification] at hcount
      · intro hle type htype
        rw [hs.step hstep, if_pos htype]
        exact hle
    exact ⟨hone.trans hiff, fun hfirst ↦ ⟨hs.step hstep, hiff.mpr hfirst⟩⟩
  · have hstep : ∀ (s : SessionStore β) e s', s.Ready → s.Careful e → s.step e = some s' →
        s'.Ready ∧ HandledOnce s e s' := fun s e s' hs hc hstep ↦ hs.step hc hstep
    exact along_of_invariant Ready hstep ready_new hcareful

/-- A session that drops, comes back and ends. -/
def keptSession : List (SessionEvent Unit) :=
  [.connect "u", .socket (.onopen 0), .socket (.onmessage 0 (some ⟨AUTH_OK, ()⟩)),
    .socket (.onclose 0), .socket (.timerFires 0), .socket (.onopen 1),
    .socket (.onmessage 1 (some ⟨NOTIFICATION, ()⟩)), .disconnect, .socket (.onclose 1)]

theorem handledOnce_of_careful_keptSession : Along step HandledOnce new keptSession := by
  refine (handledOnce_of_careful keptSession).2.2 ?_
  refine (along_cons_of_eq rfl).mpr ⟨trivial, ?_⟩
  refine (along_cons_of_eq rfl).mpr ⟨fun _ _ _ ↦ ⟨rfl, rfl⟩, ?_⟩
  refine (along_cons_of_eq rfl).mpr ⟨fun _ ↦ rfl, ?_⟩
  refine (along_cons_of_eq rfl).mpr ⟨trivial, (along_cons_of_eq rfl).mpr ⟨trivial, ?_⟩⟩
  refine (along_cons_of_eq rfl).mpr ⟨fun x hx hplain ↦ ?_, ?_⟩
  · -- The second socket is one of a reconnect.
    cases hx
    cases hplain
  · refine (along_cons_of_eq rfl).mpr ⟨fun _ ↦ rfl, ?_⟩
    exact (along_cons_of_eq rfl).mpr ⟨trivial, (along_cons_of_eq rfl).mpr ⟨trivial, trivial⟩⟩

/-- The pairing screen connects again after a failure. -/
def failedSession : List (SessionEvent Unit) :=
  [.connect "u", .socket (.onopen 0), .socket (.onmessage 0 (some ⟨AUTH_FAIL, ()⟩)), .disconnect,
    .connect "u", .socket (.onopen 1)]

/-- A pane is mounted while a reconnect is pending. -/
def droppedSession : List (SessionEvent Unit) :=
  [.connect "u", .socket (.onopen 0), .socket (.onmessage 0 (some ⟨AUTH_OK, ()⟩)),
    .socket (.onclose 0), .connect "u", .socket (.onopen 1),
    .socket (.onmessage 1 (some ⟨AUTH_OK, ()⟩)), .socket (.timerFires 0)]

/-- A notification counts twice, a reconnect authenticates twice, and a lifecycle callback runs
behind `disconnect`. -/
theorem not_handledOnce_failedSession :
    (∃ s s', run step new failedSession = some s ∧
        step s (.socket (.onmessage 1 (some ⟨NOTIFICATION, ()⟩))) = some s' ∧
        s'.applied = s.applied ++ [⟨NOTIFICATION, ()⟩, ⟨NOTIFICATION, ()⟩]) ∧
      (∃ s s', run step new droppedSession = some s ∧ s.authenticated = true ∧
        step s (.socket (.onopen 2)) = some s' ∧ s'.authsSent = s.authsSent + 2) ∧
      ∃ s s', run step new (droppedSession ++ [.socket (.onopen 2), .disconnect]) = some s ∧
        s.stopped = true ∧ step s (.socket (.onclose 2)) = some s' ∧
        s'.lifecycleRuns = s.lifecycleRuns + 1 :=
  ⟨⟨_, _, rfl, rfl, rfl⟩, ⟨_, _, rfl, rfl, rfl, rfl⟩, ⟨_, _, rfl, rfl, rfl, rfl⟩⟩

end SessionStore

end Lasterm.Web.Session
