import Lasterm.Library.Runs
import Mathlib.Data.List.Basic

/-!
# The web socket of a page

Model of `WsClient` in `services/ws-client.ts`: the sockets that it has created, the timers of
`_scheduleReconnect`, and the fields that the handlers write. A step is a call of `connect` or
`close`, an event of a socket, or a timer that fires. The code behind a promise that an event
settles runs in the same step.

What the browser does with a socket is in its state: a connect that fails gives an `error` event and
then a `close` event, and messages only come to an open socket.

The handlers do not look at which socket they belong to. `oneReconnect_iff_careful` says under which
events there is one reconnect at a time, nevertheless.
-/

namespace Lasterm.Web

open Runs

inductive SocketState
  | connecting
  | opened
  /-- The `error` event has come, and the `close` event is still to come. -/
  | failed
  /-- `close` was called on it, and the `close` event is still to come. -/
  | closing
  | closed
  deriving DecidableEq

structure WebSocket where
  url : String
  /-- The callback of a reconnect timer has created it. -/
  reconnects : Bool
  state : SocketState

/-- A socket of a reconnect that still connects. -/
def WebSocket.attempts (x : WebSocket) : Bool := x.reconnects && decide (x.state = .connecting)

/-- A timer of `_scheduleReconnect`. -/
structure ReconnectTimer where
  url : String
  delay : ℕ
  /-- Neither fired nor cleared. -/
  armed : Bool

structure WsClient (M : Type*) where
  /-- The sockets that there ever were, in the order of their creation. -/
  sockets : List WebSocket
  timers : List ReconnectTimer
  ws : Option ℕ
  reconnectUrl : Option String
  reconnectTimer : Option ℕ
  reconnectAttempt : ℕ
  /-- What was given to the listeners, with the socket that it came from. -/
  dispatched : List (ℕ × M)
  /-- `close` was called, and `connect` was not called since. -/
  stopped : Bool

inductive WsEvent (M : Type*)
  | connect (url : String)
  | close
  /-- The `open` event of a socket, and so on. -/
  | onopen (i : ℕ)
  | onerror (i : ℕ)
  | onclose (i : ℕ)
  /-- `none` is a message that cannot be decoded. -/
  | onmessage (i : ℕ) (msg : Option M)
  | timerFires (t : ℕ)

namespace WsClient

variable {M : Type*}

def new : WsClient M := ⟨[], [], none, none, none, 0, [], false⟩

variable (s : WsClient M)

/-! ## Methods -/

def createSocket (url : String) (reconnects : Bool) : WsClient M :=
  { s with sockets := s.sockets ++ [⟨url, reconnects, .connecting⟩] }

def setState (i : ℕ) (x : WebSocket) (state : SocketState) : WsClient M :=
  { s with sockets := s.sockets.set i { x with state := state } }

def delays : List ℕ := [1000, 2000, 4000, 8000, 15000, 30000]

/-- The URL for `_scheduleReconnect`. An empty one counts as none. -/
def reconnectTarget : Option String := s.reconnectUrl.filter fun url ↦ url ≠ ""

def scheduleReconnect : WsClient M :=
  match s.reconnectTarget with
  | none => s
  | some url =>
    let delay := delays.getD (min s.reconnectAttempt (delays.length - 1)) 0
    { s with
      timers := s.timers ++ [⟨url, delay, true⟩]
      reconnectTimer := some s.timers.length }

def connect (url : String) : WsClient M := { s.createSocket url false with stopped := false }

/-- `WebSocket.close`, on a socket that is open. -/
def closeSocket (sockets : List WebSocket) (i : ℕ) : List WebSocket :=
  sockets.modify i fun x ↦ if x.state = .opened then { x with state := .closing } else x

def close : WsClient M :=
  { s with
    reconnectUrl := none
    timers := s.reconnectTimer.elim s.timers fun t ↦
      s.timers.modify t fun x ↦ { x with armed := false }
    reconnectTimer := none
    sockets := s.ws.elim s.sockets (closeSocket s.sockets)
    ws := none
    stopped := true }

/-! ## Handlers -/

def onopen (i : ℕ) (x : WebSocket) : WsClient M :=
  { s.setState i x .opened with ws := some i, reconnectUrl := some x.url, reconnectAttempt := 0 }

/-- The promise of a socket that connects is rejected. For a reconnect, the callback of its timer
schedules the next one. -/
def onerror (i : ℕ) (x : WebSocket) : WsClient M :=
  let t := s.setState i x .failed
  if x.state = .connecting ∧ x.reconnects then t.scheduleReconnect else t

def onclose (i : ℕ) (x : WebSocket) : WsClient M :=
  { s.setState i x .closed with ws := none }.scheduleReconnect

def onmessage (i : ℕ) (msg : Option M) : WsClient M :=
  msg.elim s fun msg ↦ { s with dispatched := s.dispatched ++ [(i, msg)] }

/-- The callback of a timer, up to the `await`. -/
def timerFires (t : ℕ) (x : ReconnectTimer) : WsClient M :=
  { s with
    timers := s.timers.set t { x with armed := false }
    reconnectTimer := none
    reconnectAttempt := s.reconnectAttempt + 1 }.createSocket x.url true

/-- One event. `none` says that it cannot happen. -/
def step : WsEvent M → Option (WsClient M)
  | .connect url => some (s.connect url)
  | .close => some s.close
  | .onopen i =>
    match s.sockets[i]? with
    | none => none
    | some x => if x.state = .connecting then some (s.onopen i x) else none
  | .onerror i =>
    match s.sockets[i]? with
    | none => none
    | some x => if x.state = .failed ∨ x.state = .closed then none else some (s.onerror i x)
  | .onclose i =>
    match s.sockets[i]? with
    | none => none
    | some x => if x.state = .connecting ∨ x.state = .closed then none else some (s.onclose i x)
  | .onmessage i msg =>
    match s.sockets[i]? with
    | none => none
    | some x => if x.state = .opened then some (s.onmessage i msg) else none
  | .timerFires t =>
    match s.timers[t]? with
    | none => none
    | some x => if x.armed then some (s.timerFires t x) else none

/-! ## One reconnect at a time -/

def armedTimers : ℕ := s.timers.countP ReconnectTimer.armed

/-- The reconnect attempts that are pending. -/
def pending : ℕ := s.armedTimers + s.sockets.countP WebSocket.attempts

/-- What there is to say of an event that leads to `s'`. -/
structure OneReconnect (e : WsEvent M) (s' : WsClient M) : Prop where
  pending : s'.pending ≤ 1
  /-- What is dispatched came from the current socket. -/
  dispatched : s'.dispatched = s.dispatched ∨
    ∃ i msg, e = .onmessage i (some msg) ∧ s.ws = some i ∧
      s'.dispatched = s.dispatched ++ [(i, msg)]
  kept : ∀ i, e = .onclose i → s.ws ≠ some i → s'.ws = s.ws
  /-- Behind `close`, no timer is armed and no socket is created. -/
  stopped : s.stopped = true → (∀ url, e ≠ .connect url) →
    s'.timers.length = s.timers.length ∧ s'.sockets.length = s.sockets.length

/-- Messages come from the current socket. A socket closes while it is current or none is, and where
the client has a URL to reconnect to, it is not stopped, and no reconnect is pending. A reconnect
does not fail in a stopped client that has such a URL. -/
def Careful : WsEvent M → Prop
  | .onmessage i msg => msg.isSome → s.ws = some i
  | .onclose i => (s.ws = some i ∨ s.ws = none) ∧
    (s.reconnectTarget.isSome → s.stopped = false ∧ s.pending = 0)
  | .onerror i => ∀ x ∈ s.sockets[i]?, x.attempts = true → s.reconnectTarget.isSome →
    s.stopped = false
  | _ => True

instance (e : WsEvent M) : Decidable (s.Careful e) := by
  apply e.casesOn (motive := fun e ↦ Decidable (s.Careful e)) <;> intros <;>
    dsimp only [Careful] <;> infer_instance

/-- One reconnect is pending at most, the armed timer is the one that `close` clears, and none is
armed in a stopped client. -/
structure Single : Prop where
  pending : s.pending ≤ 1
  armed : ∀ (t : ℕ) x, s.timers[t]? = some x → x.armed = true → s.reconnectTimer = some t
  idle : s.stopped = true → s.armedTimers = 0

variable {s} {s' : WsClient M} {i t : ℕ} {x : WebSocket} {url : String}

theorem single_new : (new : WsClient M).Single := ⟨Nat.zero_le _, nofun, nofun⟩

/-! ### Attempts -/

theorem armedTimers_eq_zero : s.armedTimers = 0 ↔ ∀ x ∈ s.timers, x.armed = false := by
  rw [armedTimers, List.countP_eq_zero]
  simp only [Bool.not_eq_true]

theorem pending_createSocket (url : String) (reconnects : Bool) :
    (s.createSocket url reconnects).pending = s.pending + if reconnects then 1 else 0 := by
  rw [WsClient.pending, WsClient.pending, createSocket, List.countP_append, List.countP_singleton]
  cases reconnects <;> simp [WebSocket.attempts, armedTimers, Nat.add_assoc]

/-- A socket leaves the connecting state for good. -/
theorem pending_setState (state : SocketState) (hx : s.sockets[i]? = some x)
    (hstate : state ≠ .connecting) :
    (s.setState i x state).pending + (if x.attempts then 1 else 0) = s.pending := by
  obtain ⟨hlt, rfl⟩ := List.getElem?_eq_some_iff.mp hx
  have hover : WebSocket.attempts { s.sockets[i] with state := state } = false := by
    simp [WebSocket.attempts, hstate]
  have hcount : (if s.sockets[i].attempts then 1 else 0) ≤ s.sockets.countP WebSocket.attempts := by
    split
    · rename_i hattempts
      exact List.countP_pos_iff.mpr ⟨_, List.getElem_mem hlt, hattempts⟩
    · exact Nat.zero_le _
  rw [WsClient.pending, WsClient.pending, setState, List.countP_set hlt, hover]
  simp only [armedTimers, Bool.false_eq_true, if_false]
  omega

theorem countP_closeSocket (sockets : List WebSocket) (i : ℕ) :
    (closeSocket sockets i).countP WebSocket.attempts = sockets.countP WebSocket.attempts := by
  rw [closeSocket]
  induction sockets generalizing i with
  | nil => rw [List.modify_nil]
  | cons x sockets ih =>
    cases i with
    | zero =>
      rw [List.modify_zero_cons, List.countP_cons, List.countP_cons]
      congr 2
      split
      · rename_i hopened
        simp [WebSocket.attempts, hopened]
      · rfl
    | succ i => rw [List.modify_succ_cons, List.countP_cons, List.countP_cons, ih i]

/-! ### Scheduling -/

/-- Nothing happens, or the last timer is the one that `reconnectTimer` has. -/
theorem scheduleReconnect_cases :
    (s.reconnectTarget = none ∧ s.scheduleReconnect = s) ∨
    ∃ url x, s.reconnectTarget = some url ∧ ReconnectTimer.armed x = true ∧
      s.scheduleReconnect =
        { s with timers := s.timers ++ [x], reconnectTimer := some s.timers.length } := by
  rw [scheduleReconnect]
  rcases s.reconnectTarget with _ | url
  · exact .inl ⟨rfl, rfl⟩
  · exact .inr ⟨url, _, rfl, rfl, rfl⟩

theorem Single.scheduleReconnect (h : s.Single)
    (hidle : s.reconnectTarget.isSome → s.stopped = false ∧ s.pending = 0) :
    s.scheduleReconnect.Single := by
  rcases s.scheduleReconnect_cases with ⟨-, hsame⟩ | ⟨url, y, htarget, hy, hnew⟩
  · rwa [hsame]
  · obtain ⟨hstopped, hpending⟩ := hidle (by rw [htarget]; rfl)
    have hnone : s.armedTimers = 0 := Nat.le_zero.mp (hpending ▸ Nat.le_add_right ..)
    rw [hnew]
    refine ⟨?_, fun t x hx harmed ↦ ?_, fun hs ↦ absurd hs (by simp [hstopped])⟩
    · rw [WsClient.pending] at hpending ⊢
      rw [armedTimers, List.countP_append, List.countP_singleton, if_pos hy]
      rw [armedTimers] at hpending
      dsimp only
      omega
    · rcases Nat.lt_or_ge t s.timers.length with hlt | hge
      · rw [List.getElem?_append_left hlt] at hx
        have hunarmed := armedTimers_eq_zero.mp hnone x (List.mem_of_getElem? hx)
        exact Bool.noConfusion (harmed.symm.trans hunarmed)
      · rw [List.getElem?_append_right hge, List.getElem?_singleton] at hx
        split at hx
        · rename_i hzero
          exact congrArg some (by omega)
        · cases hx

theorem pending_scheduleReconnect :
    s.scheduleReconnect.pending = s.pending + if s.reconnectTarget.isSome then 1 else 0 := by
  rcases s.scheduleReconnect_cases with ⟨htarget, hsame⟩ | ⟨url, y, htarget, hy, hnew⟩
  · rw [hsame, htarget]
    rfl
  · rw [hnew, htarget, WsClient.pending, WsClient.pending, armedTimers, List.countP_append,
      List.countP_singleton, if_pos hy, armedTimers]
    simp only [Option.isSome_some, if_true]
    omega

theorem timers_scheduleReconnect :
    s.scheduleReconnect.timers.length =
      s.timers.length + if s.reconnectTarget.isSome then 1 else 0 := by
  rcases s.scheduleReconnect_cases with ⟨htarget, hsame⟩ | ⟨url, y, htarget, hy, hnew⟩
  · rw [hsame, htarget]
    rfl
  · rw [hnew, htarget, List.length_append]
    rfl

/-- The timers and the stops of a state are those of another one, and less is pending. -/
theorem Single.of_le (h : s.Single) (htimers : s'.timers = s.timers)
    (htimer : s'.reconnectTimer = s.reconnectTimer) (hstopped : s'.stopped = s.stopped)
    (hpending : s'.pending ≤ s.pending) : s'.Single where
  pending := Nat.le_trans hpending h.pending
  armed := by
    rw [htimers, htimer]
    exact h.armed
  idle hs := by
    rw [armedTimers, htimers]
    exact h.idle (hstopped ▸ hs)

/-! ### Events -/

theorem Single.connect (h : s.Single) (url : String) : (s.connect url).Single where
  pending := by
    have hpending : (s.connect url).pending = s.pending :=
      pending_createSocket (s := s) url false
    exact hpending ▸ h.pending
  armed := h.armed
  idle := nofun

theorem Single.close (h : s.Single) : s.close.Single := by
  have hnone : ∀ (t : ℕ) x, s.close.timers[t]? = some x → x.armed = false := by
    intro t x hx
    rw [WsClient.close] at hx
    rcases htimer : s.reconnectTimer with _ | n
    · -- Without a current timer none is armed.
      rw [htimer, Option.elim_none] at hx
      rw [Bool.eq_false_iff]
      exact fun harmed ↦ nomatch htimer.symm.trans (h.armed t x hx harmed)
    · rw [htimer, Option.elim_some, List.getElem?_modify, Option.map_eq_map,
        Option.map_eq_some_iff] at hx
      obtain ⟨y, hy, rfl⟩ := hx
      split
      · rfl
      · rename_i hne
        rw [Bool.eq_false_iff]
        intro harmed
        exact hne (Option.some.inj (htimer.symm.trans (h.armed t y hy harmed)))
  have hzero : s.close.armedTimers = 0 := by
    rw [armedTimers_eq_zero]
    intro x hx
    obtain ⟨t, ht⟩ := List.getElem?_of_mem hx
    exact hnone t x ht
  refine ⟨?_, fun t x hx harmed ↦ Bool.noConfusion (harmed.symm.trans (hnone t x hx)),
    fun _ ↦ hzero⟩
  have hcount : s.close.sockets.countP WebSocket.attempts =
      s.sockets.countP WebSocket.attempts := by
    rw [WsClient.close]
    rcases s.ws with _ | i
    · rfl
    · exact countP_closeSocket s.sockets i
  rw [WsClient.pending, hzero, hcount, Nat.zero_add]
  exact Nat.le_trans (Nat.le_add_left ..) h.pending

theorem Single.onopen (h : s.Single) (hx : s.sockets[i]? = some x) : (s.onopen i x).Single := by
  have hpending := pending_setState .opened hx (by decide)
  exact h.of_le rfl rfl rfl (hpending ▸ Nat.le_add_right ..)

/-- The timer that fires was the one in `reconnectTimer`, and its attempt goes on with a socket. -/
theorem Single.timerFires (h : s.Single) {x : ReconnectTimer} (hx : s.timers[t]? = some x)
    (harmed : x.armed = true) : (s.timerFires t x).Single ∧ s.stopped = false := by
  obtain ⟨hlt, rfl⟩ := List.getElem?_eq_some_iff.mp hx
  have hone : 1 ≤ s.armedTimers := List.countP_pos_iff.mpr ⟨_, List.getElem_mem hlt, harmed⟩
  have hle := h.pending
  rw [WsClient.pending] at hle
  have hstopped : s.stopped = false := by
    rw [Bool.eq_false_iff]
    intro hs
    have := h.idle hs
    omega
  -- At most one thing is pending, and it was this timer.
  have hcount : (s.timers.set t { s.timers[t] with armed := false }).countP
      ReconnectTimer.armed = 0 := by
    rw [List.countP_set hlt, if_pos harmed]
    rw [armedTimers] at hone hle
    simp only [Bool.false_eq_true, if_false]
    omega
  refine ⟨⟨?_, fun n y hy hyarmed ↦ ?_, fun _ ↦ hcount⟩, hstopped⟩
  · rw [WsClient.timerFires, pending_createSocket, if_pos rfl, WsClient.pending, armedTimers,
      hcount]
    dsimp only
    omega
  · rw [List.countP_eq_zero] at hcount
    exact absurd hyarmed (hcount y (List.mem_of_getElem? hy))

/-- What is left to check where a handler ends with `_scheduleReconnect`, in the state `t`. -/
theorem oneReconnect_scheduleReconnect {e : WsEvent M} {u : WsClient M} (h : u.Single)
    (hdispatched : u.dispatched = s.dispatched) (htimers : u.timers = s.timers)
    (hsockets : u.sockets.length = s.sockets.length) (he : ∀ url, e ≠ .connect url) :
    s.OneReconnect e u.scheduleReconnect ↔
      (∀ i, e = .onclose i → s.ws ≠ some i → u.ws = s.ws) ∧
      (u.reconnectTarget.isSome → s.stopped = false ∧ u.pending = 0) := by
  have hsame : u.scheduleReconnect.ws = u.ws ∧ u.scheduleReconnect.dispatched = u.dispatched ∧
      u.scheduleReconnect.sockets = u.sockets := by
    rcases u.scheduleReconnect_cases with ⟨-, hsame⟩ | ⟨url, y, -, -, hnew⟩
    · rw [hsame]
      exact ⟨rfl, rfl, rfl⟩
    · rw [hnew]
      exact ⟨rfl, rfl, rfl⟩
  obtain ⟨hws, hdispatched', hsockets'⟩ := hsame
  constructor
  · intro hone
    refine ⟨fun i hi hne ↦ hws ▸ hone.kept i hi hne, fun hsome ↦ ⟨?_, ?_⟩⟩
    · -- Behind `close` a new timer would be one too many.
      rw [Bool.eq_false_iff]
      intro hs
      have hlength := (hone.stopped hs he).1
      rw [timers_scheduleReconnect, htimers, if_pos hsome] at hlength
      exact absurd hlength (Nat.succ_ne_self _)
    · have hpending := hone.pending
      rw [pending_scheduleReconnect, if_pos hsome] at hpending
      omega
  · rintro ⟨hkept, hidle⟩
    refine ⟨?_, .inl (hdispatched'.trans hdispatched), fun i hi hne ↦ hws.trans (hkept i hi hne),
      fun hs _ ↦ ⟨?_, by rw [hsockets', hsockets]⟩⟩
    · rw [pending_scheduleReconnect]
      split
      · rename_i hsome
        exact Nat.le_of_eq (by rw [(hidle hsome).2])
      · exact h.pending
    · rw [timers_scheduleReconnect, htimers]
      split
      · rename_i hsome
        exact Bool.noConfusion (hs.symm.trans (hidle hsome).1)
      · rfl

/-- An event that the conditions do not exclude. -/
theorem agrees_of_careful {e : WsEvent M} (hcareful : s.Careful e) (hsingle : s'.Single)
    (hdispatched : s'.dispatched = s.dispatched) (hclose : ∀ i, e ≠ .onclose i)
    (hstopped : s.stopped = true → (∀ url, e ≠ .connect url) →
      s'.timers.length = s.timers.length ∧ s'.sockets.length = s.sockets.length) :
    (s.OneReconnect e s' ↔ s.Careful e) ∧ (s.Careful e → s'.Single) :=
  ⟨⟨fun _ ↦ hcareful, fun _ ↦ ⟨hsingle.pending, .inl hdispatched, fun i hi ↦ absurd hi (hclose i),
    hstopped⟩⟩, fun _ ↦ hsingle⟩

theorem agrees_onerror (h : s.Single) (hx : s.sockets[i]? = some x) :
    (s.OneReconnect (.onerror i) (s.onerror i x) ↔ s.Careful (.onerror i)) ∧
      (s.Careful (.onerror i) → (s.onerror i x).Single) := by
  obtain ⟨u, hu⟩ : ∃ u, u = s.setState i x .failed := ⟨_, rfl⟩
  have hpending : u.pending + (if x.attempts then 1 else 0) = s.pending :=
    hu ▸ pending_setState _ hx (by decide)
  have hsockets : u.sockets.length = s.sockets.length := by rw [hu, setState, List.length_set]
  have hsingle : u.Single := h.of_le (hu ▸ rfl) (hu ▸ rfl) (hu ▸ rfl) (by omega)
  by_cases hattempts : x.attempts = true
  · have hnew : s.onerror i x = u.scheduleReconnect := by
      rw [WebSocket.attempts, Bool.and_eq_true, decide_eq_true_iff] at hattempts
      rw [WsClient.onerror, if_pos hattempts.symm, hu]
    -- The attempt of the socket is over, and no other one is pending.
    have hzero : u.pending = 0 := by
      have := h.pending
      rw [if_pos hattempts] at hpending
      omega
    have hcareful : (u.reconnectTarget.isSome → s.stopped = false ∧ u.pending = 0) ↔
        s.Careful (.onerror i) := by
      rw [Careful, hx, show u.reconnectTarget = s.reconnectTarget from hu ▸ rfl]
      simp [hattempts, hzero]
    rw [hnew, oneReconnect_scheduleReconnect hsingle (hu ▸ rfl) (hu ▸ rfl) hsockets (by simp),
      hcareful]
    refine ⟨and_iff_right nofun, fun hc ↦ hsingle.scheduleReconnect fun hsome ↦ ?_⟩
    rw [show u.stopped = s.stopped from hu ▸ rfl]
    exact hcareful.mpr hc hsome
  · have hnew : s.onerror i x = u := by
      rw [WebSocket.attempts, Bool.and_eq_true, decide_eq_true_iff] at hattempts
      rw [WsClient.onerror, if_neg fun hand ↦ hattempts hand.symm, hu]
    rw [hnew]
    refine agrees_of_careful ?_ hsingle (hu ▸ rfl) nofun fun _ _ ↦ ⟨hu ▸ rfl, hsockets⟩
    rw [Careful, hx]
    simp [hattempts]

theorem agrees_onclose (h : s.Single) (hx : s.sockets[i]? = some x)
    (hstate : x.state ≠ .connecting) :
    (s.OneReconnect (.onclose i) (s.onclose i x) ↔ s.Careful (.onclose i)) ∧
      (s.Careful (.onclose i) → (s.onclose i x).Single) := by
  -- The state in front of `_scheduleReconnect`. Nothing pends on a socket that was open.
  obtain ⟨u, hu⟩ : ∃ u, u = { s.setState i x .closed with ws := none } := ⟨_, rfl⟩
  have hpending : u.pending = s.pending := by
    have hattempts : x.attempts = false := by simp [WebSocket.attempts, hstate]
    have hset := pending_setState .closed hx (by decide)
    rw [hattempts] at hset
    exact hu ▸ hset
  have hsockets : u.sockets.length = s.sockets.length := by
    rw [hu, setState, List.length_set]
  have hsingle : u.Single := h.of_le (hu ▸ rfl) (hu ▸ rfl) (hu ▸ rfl) (Nat.le_of_eq hpending)
  have htarget : u.reconnectTarget = s.reconnectTarget := hu ▸ rfl
  have hkept : (∀ j, WsEvent.onclose i = (.onclose j : WsEvent M) → s.ws ≠ some j → u.ws = s.ws) ↔
      s.ws = some i ∨ s.ws = none := by
    rw [show u.ws = none from hu ▸ rfl]
    constructor
    · intro hkept
      by_cases hws : s.ws = some i
      · exact .inl hws
      · exact .inr (hkept i rfl hws).symm
    · rintro hws j hj hne
      obtain rfl := WsEvent.onclose.inj hj
      exact (hws.resolve_left hne).symm
  have hnew : s.onclose i x = u.scheduleReconnect := by rw [WsClient.onclose, hu]
  rw [hnew, oneReconnect_scheduleReconnect hsingle (hu ▸ rfl) (hu ▸ rfl) hsockets (by simp), hkept,
    htarget, hpending]
  refine ⟨Iff.rfl, fun hc ↦ hsingle.scheduleReconnect fun hsome ↦ ?_⟩
  rw [hpending, show u.stopped = s.stopped from hu ▸ rfl]
  exact hc.2 (htarget ▸ hsome)

theorem agrees_onmessage (h : s.Single) (msg : Option M) :
    (s.OneReconnect (.onmessage i msg) (s.onmessage i msg) ↔ s.Careful (.onmessage i msg)) ∧
      (s.Careful (.onmessage i msg) → (s.onmessage i msg).Single) := by
  rcases msg with _ | msg
  · exact agrees_of_careful nofun h rfl nofun fun _ _ ↦ ⟨rfl, rfl⟩
  · have hsingle : (s.onmessage i (some msg)).Single := ⟨h.pending, h.armed, h.idle⟩
    refine ⟨⟨fun hone _ ↦ ?_, fun hc ↦ ⟨hsingle.pending, .inr ⟨i, msg, rfl, hc rfl, rfl⟩, nofun,
      fun _ _ ↦ ⟨rfl, rfl⟩⟩⟩, fun _ ↦ hsingle⟩
    rcases hone.dispatched with hsame | ⟨j, msg', he, hws, -⟩
    · exact absurd (congrArg List.length hsame) (by simp [WsClient.onmessage])
    · obtain ⟨rfl, -⟩ := WsEvent.onmessage.inj he
      exact hws

theorem step_agrees {e : WsEvent M} (h : s.Single) :
    Ensures (fun s' ↦ (s.OneReconnect e s' ↔ s.Careful e) ∧ (s.Careful e → s'.Single))
      (s.step e) := by
  cases e with
  | connect url =>
    refine .of_some ?_
    exact agrees_of_careful trivial (h.connect url) rfl (by simp) fun _ hne ↦ absurd rfl (hne url)
  | close =>
    refine .of_some (agrees_of_careful trivial h.close rfl (by simp) fun _ _ ↦ ?_)
    rw [WsClient.close]
    rcases s.reconnectTimer with _ | t <;> rcases s.ws with _ | i <;> simp [closeSocket]
  | onopen i =>
    rw [step]
    split
    · exact .of_none
    · rename_i x hx
      refine .guard fun _ ↦ .of_some ?_
      exact agrees_of_careful trivial (h.onopen hx) rfl (by simp) fun _ _ ↦
        ⟨rfl, List.length_set⟩
  | onerror i =>
    rw [step]
    split
    · exact .of_none
    · rename_i x hx
      exact .guardNot fun _ ↦ .of_some (agrees_onerror h hx)
  | onclose i =>
    rw [step]
    split
    · exact .of_none
    · rename_i x hx
      exact .guardNot fun hstate ↦ .of_some (agrees_onclose h hx fun hc ↦ hstate (.inl hc))
  | onmessage i msg =>
    rw [step]
    split
    · exact .of_none
    · exact .guard fun _ ↦ .of_some (agrees_onmessage h msg)
  | timerFires t =>
    rw [step]
    split
    · exact .of_none
    · rename_i x hx
      refine .guard fun harmed ↦ .of_some ?_
      obtain ⟨hsingle, hstopped⟩ := h.timerFires hx harmed
      refine agrees_of_careful trivial hsingle rfl (by simp) fun hs _ ↦ ?_
      exact Bool.noConfusion (hs.symm.trans hstopped)

/-! ## Whole runs -/

/-- **One reconnect at a time**: in every run, at most one reconnect is pending, only the current
socket's messages are dispatched, old sockets leave the current one alone, and nothing is started
behind `close`, if and only if the events are careful. -/
theorem oneReconnect_iff_careful (es : List (WsEvent M)) :
    Along step OneReconnect new es ↔ Along step (fun s e _ ↦ s.Careful e) new es :=
  along_congr_of_keeps Single (fun _ e _ h hstep ↦ step_agrees (e := e) h hstep) single_new

/-- A reconnect that fails: its `error` event arms a timer, and its `close` event another one. -/
def failedReconnect : List (WsEvent String) :=
  [.connect "ws://hub/ws", .onopen 0, .onclose 0, .timerFires 0, .onerror 1, .onclose 1]

theorem failedReconnect_arms_two :
    ∃ s, run step new failedReconnect = some s ∧ s.pending = 2 ∧
      ¬ Along step OneReconnect new failedReconnect := by
  refine ⟨_, rfl, rfl, fun halong ↦ ?_⟩
  rw [failedReconnect] at halong
  repeat rw [along_cons_of_eq rfl] at halong
  obtain ⟨-, -, -, -, -, hlast, -⟩ := halong
  exact absurd hlast.pending (by decide)

end WsClient

end Lasterm.Web
