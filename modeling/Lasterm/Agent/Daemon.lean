import Lasterm.Agent.Handover

/-!
# The connections of the daemon

`daemon.rs`: the accept loop, a task for each connection, the output router and the reader tasks of
the channels, all around one slot for the *active* connection. A newly accepted connection takes the
slot at once, with whatever it displaces being signalled; only then does its own task send HELLO and
wait for AUTH. The router sends OUTPUT to whatever is in the slot. A reader task sends the events of
its channel into the queue that it was given when the channel was spawned.

A frame counts as sent on a connection when it is put into the queue of that connection. An `Event`
is a piece of one task between two awaits. `turn` is what one connection does by itself, and `step`
adds what is shared, so that facts about single connections are facts about `turn`.

`displaced` and `late` record the past for the statements about displacement; nothing reads them.
-/

namespace Lasterm.Agent

open Runs (Ensures)

/-! ## State -/

/-- Where the task of a connection is. -/
inductive Phase where
  | accepted
  /-- HELLO is sent; the task waits in `validate_auth`. -/
  | validating
  /-- The task waits in `select!` for bytes or for the signal. -/
  | selecting
  /-- The rest of a read is still to be handled. -/
  | dispatching (batch : List HubToAgent)
  | ended
  deriving DecidableEq

structure Connection where
  phase : Phase
  /-- AUTH was passed, or none was asked for. -/
  passed : Bool
  /-- The signal has reached the `cancel.notified()` of the `select!` the task waits in. -/
  notified : Bool
  /-- A newer connection has taken the slot from this one. -/
  displaced : Bool
  /-- The messages in hand were read after that. -/
  late : Bool
  deriving DecidableEq

/-- What the reader task of a channel sends into its queue besides LOG. -/
inductive ChannelEvent where
  | titleChange (title : String)
  | processTitle (title : String)
  | bell
  | notification (message : String)
  | exit (exitCode : ℤ) (signal : Option String)
  deriving DecidableEq

inductive Frame where
  | hello
  | agentChannelState (channelId : String) (pid : ℕ)
  | channelStateEnd
  | reply (frame : Reply)
  | output (output : BatchedOutput)
  | event (channelId : String) (event : ChannelEvent)
  deriving DecidableEq

/-- The reader task of a channel, with the connection whose queue it sends to. -/
structure ReaderTask where
  channelId : String
  connection : ℕ
  running : Bool
  deriving DecidableEq

/-- A connection is known by its place in `connections`, in the order of acceptance. -/
structure Daemon where
  connections : List Connection
  /-- `active_conn`. -/
  active : Option ℕ
  /-- The router's frames for which there was no connection. -/
  pending : List BatchedOutput
  terminals : Terminals
  readers : List ReaderTask
  sent : List (ℕ × Frame)

/-- What the task of a connection does next. -/
inductive Turn where
  | hello
  | firstMessage (result : Except AuthError HubToAgent)
  /-- `select!` takes the branch of the socket. -/
  | read (brought : ReadLoop.Brought)
  | dispatch (answers : Answers)
  /-- `select!` takes the branch of the signal. -/
  | wake

inductive DaemonEvent where
  | accept
  | turn (n : ℕ) (t : Turn)
  /-- A batch reaches the output router; a frame that cannot be encoded is dropped. -/
  | output (b : BatchedOutput) (encoded : Bool)
  /-- The reader task at place `r` sends an event of its channel. -/
  | channelEvent (r : ℕ) (event : ChannelEvent)

/-! ## One connection -/

namespace Connection

/-- A connection that was just accepted. -/
def new : Connection := ⟨.accepted, false, false, false, false⟩

/-- `notify_waiters`: only a task that waits for the signal at this moment gets it. -/
def signal (c : Connection) : Connection :=
  { c with displaced := true, notified := c.notified || c.phase = .selecting }

/-- The `select!` at the head of the loop, or the walk over what is left of a read. -/
def afterDispatch : List HubToAgent → Phase
  | [] => .selecting
  | m :: ms => .dispatching (m :: ms)

/-- What a connection does by itself; a new round of `select!` starts without a signal. -/
def turn (expected : Option String) (terminals : Terminals) (c : Connection) :
    Turn → Option Connection
  | .hello =>
    if c.phase = .accepted then
      if expected.isSome then some { c with phase := .validating }
      else some { c with phase := .selecting, passed := true }
    else none
  | .firstMessage result =>
    if c.phase = .validating then
      match result with
      | .error _ => some { c with phase := .ended }
      | .ok msg =>
        if expected.all fun token ↦ passesAuth token msg then
          some { c with phase := .selecting, passed := true }
        else some { c with phase := .ended }
    else none
  | .read brought =>
    if c.phase = .selecting then
      match brought with
      | .messages ms =>
        some { c with phase := afterDispatch ms, notified := false, late := c.displaced }
      | .endOfStream | .readError => some { c with phase := .ended }
    else none
  | .dispatch answers =>
    match c.phase with
    | .dispatching (m :: ms) =>
      if (terminals.handleMessage answers m).2.isNone then some { c with phase := afterDispatch ms }
      else some { c with phase := .selecting }
    | _ => none
  | .wake =>
    if c.phase = .selecting ∧ c.notified then some { c with phase := .ended } else none

end Connection

/-! ## The daemon -/

namespace Daemon

def MAX_FRAME_QUEUE : ℕ := 1000

def init : Daemon := ⟨[], none, [], .new, [], []⟩

variable (s : Daemon)

def send (n : ℕ) (frames : List Frame) : Daemon :=
  { s with sent := s.sent ++ frames.map (n, ·) }

/-- AGENT_CHANNEL_STATE for every channel, and CHANNEL_STATE_END. -/
def channelStates : List Frame :=
  (s.terminals.channels.entries.map fun e ↦ .agentChannelState e.1 e.2.pid) ++ [.channelStateEnd]

/-- The frames of a turn that are not replies. -/
def greeting (c' : Connection) : Turn → List Frame
  | .hello => .hello :: if c'.phase = .selecting then s.channelStates else []
  | .firstMessage _ => if c'.phase = .selecting then s.channelStates else []
  | _ => []

/-- `clear_active_if_ours`, at the end of a connection. -/
def clearActiveIfOurs (n : ℕ) (c' : Connection) : Option ℕ :=
  if c'.phase = .ended ∧ s.active = some n then none else s.active

/-- The channels whose reader tasks were started for the replies. -/
def spawned (replies : List Reply) : List String :=
  replies.filterMap fun
    | .spawnOk _ channelId => some channelId
    | _ => none

/-- The terminals after a turn, and its replies. -/
def replies (c : Connection) : Turn → Terminals × List Reply
  | .dispatch answers =>
    match c.phase with
    | .dispatching (m :: _) =>
      let terminals := (s.terminals.handleMessage answers m).1
      (terminals, terminals.sent.drop s.terminals.sent.length)
    | _ => (s.terminals, [])
  | _ => (s.terminals, [])

/-- The output router. -/
def route (b : BatchedOutput) : Daemon :=
  match s.active with
  | some k => { s.send k ((s.pending ++ [b]).map .output) with pending := [] }
  | none =>
    let kept := if MAX_FRAME_QUEUE ≤ s.pending.length then s.pending.drop 1 else s.pending
    { s with pending := kept ++ [b] }

/-- A new connection takes the slot; the one that had it is signalled. -/
def accept : Daemon :=
  { s with
    connections :=
      (match s.active with
        | some k => s.connections.modify k Connection.signal
        | none => s.connections) ++ [.new]
    active := some s.connections.length }

/-- A channel ends with its reader task. -/
def closeChannel (r : ℕ) (channelId : String) : ChannelEvent → Daemon
  | .exit _ _ =>
    { s with
      readers := s.readers.modify r fun x ↦ { x with running := false }
      terminals := { s.terminals with
        channels := s.terminals.channels.delete channelId
        senders := s.terminals.senders.delete channelId } }
  | _ => s

def step (expected : Option String) (s : Daemon) : DaemonEvent → Option Daemon
  | .accept => some s.accept
  | .turn n t => do
    let c ← s.connections[n]?
    let c' ← c.turn expected s.terminals t
    let (terminals, replies) := s.replies c t
    some { s.send n (s.greeting c' t ++ replies.map .reply) with
      connections := s.connections.set n c'
      active := s.clearActiveIfOurs n c'
      terminals
      readers := s.readers ++ (spawned replies).map (⟨·, n, true⟩) }
  | .output b encoded => some (if encoded then s.route b else s)
  | .channelEvent r event => do
    let x ← s.readers[r]?
    if x.running then
      some ((s.send x.connection [.event x.channelId event]).closeChannel r x.channelId event)
    else none

end Daemon

/-! ## What a turn does -/

namespace Connection

variable {expected : Option String} {terminals : Terminals} {c c' : Connection} {t : Turn}

/-- The turns of a connection. -/
inductive Turns (expected : Option String) (c : Connection) : Turn → Connection → Prop where
  | hello : c.phase = .accepted → expected.isSome = true →
      Turns expected c .hello { c with phase := .validating }
  | welcome : c.phase = .accepted → expected = none →
      Turns expected c .hello { c with phase := .selecting, passed := true }
  | pass {msg : HubToAgent} : c.phase = .validating →
    (expected.all fun token ↦ passesAuth token msg) →
      Turns expected c (.firstMessage (.ok msg)) { c with phase := .selecting, passed := true }
  | refuse {result : Except AuthError HubToAgent} : c.phase = .validating →
      (∀ msg, result = .ok msg → ¬ expected.all fun token ↦ passesAuth token msg) →
      Turns expected c (.firstMessage result) { c with phase := .ended }
  | read {ms : List HubToAgent} : c.phase = .selecting →
      Turns expected c (.read (.messages ms))
        { c with phase := afterDispatch ms, notified := false, late := c.displaced }
  | close {brought : ReadLoop.Brought} : c.phase = .selecting → (∀ ms, brought ≠ .messages ms) →
      Turns expected c (.read brought) { c with phase := .ended }
  | next {answers : Answers} {m : HubToAgent} {ms : List HubToAgent} :
      c.phase = .dispatching (m :: ms) →
      Turns expected c (.dispatch answers) { c with phase := afterDispatch ms }
  | fail {answers : Answers} {m : HubToAgent} {ms : List HubToAgent} :
      c.phase = .dispatching (m :: ms) →
      Turns expected c (.dispatch answers) { c with phase := .selecting }
  | wake : c.phase = .selecting → c.notified = true →
      Turns expected c .wake { c with phase := .ended }

theorem turns_of_turn : Ensures (Turns expected c t) (c.turn expected terminals t) := by
  cases t with
  | hello =>
    rw [turn]
    refine .guard fun hphase ↦ ?_
    split
    · rename_i he
      exact .of_some (.hello hphase he)
    · rename_i he
      exact .of_some (.welcome hphase (Option.not_isSome_iff_eq_none.mp he))
  | firstMessage result =>
    rw [turn.eq_def]
    dsimp only
    refine .guard fun hphase ↦ ?_
    cases result with
    | error e => exact .of_some (.refuse hphase (by simp))
    | ok msg =>
      dsimp only
      split
      · rename_i hp
        exact .of_some (.pass hphase hp)
      · rename_i hp
        refine .of_some (.refuse hphase ?_)
        rintro msg' ⟨⟩
        exact hp
  | read brought =>
    rw [turn.eq_def]
    dsimp only
    refine .guard fun hphase ↦ ?_
    cases brought with
    | messages ms => exact .of_some (.read hphase)
    | endOfStream => exact .of_some (.close hphase (by simp))
    | readError => exact .of_some (.close hphase (by simp))
  | dispatch answers =>
    rw [turn.eq_def]
    dsimp only
    split
    · rename_i m ms hphase
      split
      · exact .of_some (.next hphase)
      · exact .of_some (.fail hphase)
    · exact .of_none
  | wake => exact .of_ite fun hguard ↦ .wake hguard.1 hguard.2

/-- Where a token is asked for, only AUTH with that token passes a connection. -/
theorem Turns.passed_iff {token : String} (h : Turns (some token) c t c') :
    c'.passed = true ↔
      c.passed = true ∨ ∃ msg, t = .firstMessage (.ok msg) ∧ passesAuth token msg = true := by
  cases h with
  | pass hphase hp =>
    simp only [true_iff]
    exact Or.inr ⟨_, rfl, hp⟩
  | refuse hphase hp =>
    refine ⟨Or.inl, ?_⟩
    rintro (h | ⟨msg, hmsg, hpass⟩)
    · exact h
    · exact absurd hpass (hp msg (Turn.firstMessage.inj hmsg))
  | welcome hphase he => cases he
  | _ => simp

theorem Turns.passed_mono (h : Turns expected c t c') (hc : c.passed = true) :
    c'.passed = true := by
  cases h with
  | welcome | pass => rfl
  | _ => exact hc

/-- A connection in its loop has passed AUTH. -/
def Authed (c : Connection) : Prop :=
  c.phase = .selecting ∨ (∃ ms, c.phase = .dispatching ms) → c.passed = true

theorem authed_new : Connection.new.Authed := by
  rintro (h | ⟨ms, h⟩) <;> cases h

theorem Authed.signal (h : c.Authed) : c.signal.Authed := h

theorem Turns.authed (h : Turns expected c t c') (hc : c.Authed) : c'.Authed := by
  intro hphase
  cases h with
  | welcome | pass => rfl
  | read hsel => exact hc (Or.inl hsel)
  | next hdis | fail hdis => exact hc (Or.inr ⟨_, hdis⟩)
  | hello | refuse | close | wake => rcases hphase with h | ⟨ms, h⟩ <;> cases h

end Connection

/-! ## What a step does -/

namespace Daemon

variable {expected : Option String} {s s' : Daemon} {e : DaemonEvent} {n k : ℕ} {t : Turn}

theorem step_turn (h : s.step expected (.turn n t) = some s') :
    ∃ c c', s.connections[n]? = some c ∧ Connection.Turns expected c t c' ∧
      s'.connections = s.connections.set n c' ∧ s'.active = s.clearActiveIfOurs n c' ∧
      s'.readers = s.readers ++ (spawned (s.replies c t).2).map (⟨·, n, true⟩) ∧
      s'.sent = s.sent ++ (s.greeting c' t ++ (s.replies c t).2.map Frame.reply).map (n, ·) := by
  simp only [step, bind, Option.bind_eq_some_iff, Option.some.injEq] at h
  obtain ⟨c, hc, c', hc', rfl⟩ := h
  exact ⟨c, c', hc, Connection.turns_of_turn hc', rfl, rfl, rfl, rfl⟩

theorem step_output {b : BatchedOutput} {encoded : Bool}
    (h : s.step expected (.output b encoded) = some s') :
    s'.connections = s.connections ∧ s'.active = s.active ∧ s'.readers = s.readers ∧
      s'.sent = s.sent ++ if encoded then
        (s.active.toList.flatMap fun k ↦ (s.pending ++ [b]).map fun b ↦ (k, Frame.output b))
          else [] := by
  cases h
  cases encoded with
  | false => simp
  | true =>
    rw [if_pos rfl, if_pos rfl, route]
    split
    · rename_i k hk
      simp [send, hk]
    · rename_i hk
      simp [hk]

theorem step_channelEvent {r : ℕ} {event : ChannelEvent}
    (h : s.step expected (.channelEvent r event) = some s') :
    ∃ x, s.readers[r]? = some x ∧ s'.connections = s.connections ∧ s'.active = s.active ∧
      s'.readers.map ReaderTask.connection = s.readers.map ReaderTask.connection ∧
      s'.sent = s.sent ++ [(x.connection, .event x.channelId event)] := by
  simp only [step, bind, Option.bind_eq_some_iff] at h
  obtain ⟨x, hx, h⟩ := h
  obtain ⟨-, h⟩ := Option.ite_none_right_eq_some.mp h
  cases h
  refine ⟨x, hx, ?_⟩
  cases event with
  | exit exitCode signal =>
    refine ⟨rfl, rfl, ?_, rfl⟩
    apply List.ext_getElem?
    intro i
    by_cases hi : r = i
    · simp [closeChannel, send, hi, Function.comp_def]
    · simp [closeChannel, send, hi]
  | _ => exact ⟨rfl, rfl, rfl, rfl⟩

/-! ## What every run keeps -/

/-- Connection `n` has passed AUTH. -/
def passed (s : Daemon) (n : ℕ) : Bool := (s.connections[n]?).any Connection.passed

theorem length_accept : s.accept.connections.length = s.connections.length + 1 := by
  rw [accept]
  split <;> simp

theorem getElem?_accept_of_lt (h : n < s.connections.length) :
    s.accept.connections[n]?
      = (s.connections[n]?).map fun c ↦ if s.active = some n then c.signal else c := by
  rw [accept]
  split
  · rename_i k hk
    rw [List.getElem?_append_left (by simpa using h), hk]
    by_cases hn : k = n
    · simp [hn]
    · simp [hn]
  · rename_i hk
    rw [List.getElem?_append_left h, hk]
    simp

theorem getElem?_accept_length : s.accept.connections[s.connections.length]? = some .new := by
  rw [accept]
  split <;> simp

theorem passed_accept (h : n < s.connections.length) : s.accept.passed n = s.passed n := by
  rw [passed, getElem?_accept_of_lt h, passed, List.getElem?_eq_getElem h]
  by_cases hk : s.active = some n
  · simp [hk, Connection.signal]
  · simp [hk]

theorem passed_lt (h : s.passed n = true) : n < s.connections.length := by
  by_contra hn
  rw [passed, List.getElem?_eq_none (not_lt.mp hn)] at h
  cases h

/-- **Where a connection comes from**: it is as it was, it was signalled, it took a turn, or it was
just accepted. -/
inductive Origin (expected : Option String) (s : Daemon) : DaemonEvent → ℕ → Connection → Prop where
  | same {e : DaemonEvent} {n : ℕ} {c : Connection} : s.connections[n]? = some c →
      Origin expected s e n c
  | signal {n : ℕ} {c : Connection} : s.connections[n]? = some c → s.active = some n →
      Origin expected s .accept n c.signal
  | turn {n : ℕ} {t : Turn} {c c' : Connection} : s.connections[n]? = some c →
      Connection.Turns expected c t c' → Origin expected s (.turn n t) n c'
  | new : Origin expected s .accept s.connections.length .new

theorem origin_of_step {c' : Connection} (hstep : s.step expected e = some s')
    (hc' : s'.connections[n]? = some c') : Origin expected s e n c' := by
  cases e with
  | accept =>
    cases hstep
    have hlen : n < s.connections.length + 1 := by
      rw [← length_accept]
      exact (List.getElem?_eq_some_iff.mp hc').1
    rcases Nat.lt_succ_iff_lt_or_eq.mp hlen with hlt | rfl
    · rw [getElem?_accept_of_lt hlt, List.getElem?_eq_getElem hlt, Option.map_some,
        Option.some.injEq] at hc'
      split at hc'
      · rename_i hk
        exact hc' ▸ .signal (List.getElem?_eq_getElem hlt) hk
      · exact hc' ▸ .same (List.getElem?_eq_getElem hlt)
    · rw [getElem?_accept_length, Option.some.injEq] at hc'
      exact hc' ▸ .new
  | turn m t =>
    obtain ⟨c, d, hc, hturn, hconn, -⟩ := step_turn hstep
    rw [hconn] at hc'
    by_cases hm : m = n
    · subst hm
      rw [List.getElem?_set_self (List.getElem?_eq_some_iff.mp hc).1, Option.some.injEq] at hc'
      exact hc' ▸ .turn hc hturn
    · rw [List.getElem?_set_ne hm] at hc'
      exact .same hc'
  | output b encoded =>
    rw [(step_output hstep).1] at hc'
    exact .same hc'
  | channelEvent r event =>
    obtain ⟨x, -, hconn, -⟩ := step_channelEvent hstep
    rw [hconn] at hc'
    exact .same hc'

/-- **Passing AUTH lasts.** -/
theorem passed_step (hstep : s.step expected e = some s') (h : s.passed n = true) :
    s'.passed n = true := by
  cases e with
  | accept =>
    cases hstep
    rwa [passed_accept (passed_lt h)]
  | turn m t =>
    obtain ⟨c, c', hc, hturn, hconn, -⟩ := step_turn hstep
    rw [passed, hconn]
    by_cases hm : m = n
    · subst hm
      rw [passed, hc] at h
      rw [List.getElem?_set_self (List.getElem?_eq_some_iff.mp hc).1]
      exact hturn.passed_mono h
    · rwa [List.getElem?_set_ne hm]
  | output b encoded => rwa [passed, (step_output hstep).1]
  | channelEvent r event =>
    obtain ⟨x, -, hconn, -⟩ := step_channelEvent hstep
    rwa [passed, hconn]

/-- Only a message that is handled starts a reader task. -/
theorem spawned_replies {c : Connection} {x : String} (h : x ∈ spawned (s.replies c t).2) :
    ∃ ms, c.phase = .dispatching ms := by
  rw [replies.eq_def] at h
  split at h
  · split at h
    · rename_i m ms hphase
      exact ⟨m :: ms, hphase⟩
    · simp [spawned] at h
  · simp [spawned] at h

/-- The slot holds the connection accepted last, a connection in its loop has passed AUTH, and so
has the connection of every reader task. -/
structure Valid (s : Daemon) : Prop where
  active_last : ∀ k, s.active = some k → k + 1 = s.connections.length
  authed : ∀ (n : ℕ) (c : Connection), s.connections[n]? = some c → c.Authed
  readers : ∀ n ∈ s.readers.map ReaderTask.connection, s.passed n = true

theorem valid_init : init.Valid where
  active_last _ h := by cases h
  authed n c h := by simp [init] at h
  readers n h := by cases h

theorem active_last_step (h : s.Valid) (hstep : s.step expected e = some s')
    (hk : s'.active = some k) :
    k + 1 = s'.connections.length := by
  cases e with
  | accept =>
    cases hstep
    rw [length_accept, ← Option.some.inj hk]
  | turn m t =>
    obtain ⟨c, c', -, -, hconn, hactive, -⟩ := step_turn hstep
    rw [hconn, List.length_set]
    rw [hactive, clearActiveIfOurs] at hk
    split at hk
    · cases hk
    · exact h.active_last k hk
  | output b encoded =>
    obtain ⟨hconn, hactive, -⟩ := step_output hstep
    rw [hconn]
    exact h.active_last k (hactive ▸ hk)
  | channelEvent r event =>
    obtain ⟨x, -, hconn, hactive, -⟩ := step_channelEvent hstep
    rw [hconn]
    exact h.active_last k (hactive ▸ hk)

theorem readers_step (h : s.Valid) (hstep : s.step expected e = some s')
    (hn : n ∈ s'.readers.map ReaderTask.connection) : s.passed n = true := by
  cases e with
  | accept =>
    cases hstep
    exact h.readers n hn
  | turn m t =>
    obtain ⟨c, c', hc, -, -, -, hreaders, -⟩ := step_turn hstep
    rw [hreaders, List.map_append, List.mem_append] at hn
    rcases hn with hn | hn
    · exact h.readers n hn
    · -- a new reader task sends to the connection that handled its SPAWN
      simp only [List.map_map, List.mem_map, Function.comp_apply] at hn
      obtain ⟨x, hx, rfl⟩ := hn
      rw [passed, hc]
      exact h.authed m c hc (Or.inr (spawned_replies hx))
  | output b encoded =>
    rw [(step_output hstep).2.2.1] at hn
    exact h.readers n hn
  | channelEvent r event =>
    obtain ⟨x, -, -, -, hreaders, -⟩ := step_channelEvent hstep
    exact h.readers n (hreaders ▸ hn)

theorem Valid.step (h : s.Valid) (hstep : s.step expected e = some s') : s'.Valid where
  active_last _ hk := active_last_step h hstep hk
  authed n c hc := by
    cases origin_of_step hstep hc with
    | same hs => exact h.authed n c hs
    | signal hs _ => exact (h.authed n _ hs).signal
    | turn hs ht => exact ht.authed (h.authed n _ hs)
    | new => exact Connection.authed_new
  readers _ hn := passed_step hstep (readers_step h hstep hn)

end Daemon

end Lasterm.Agent
