import Lasterm.Hub.AgentSlot

/-!
# Reconnecting an SSH host

The two loops that reconnect an SSH host, over one `ctx.reconnectAbortControllers` entry:
`scheduleReconnect`, whose attempts start from timers, and `onReconnectAgent`, which a restart
calls. An attempt is suspended in the `start` of its agent, while the session may be closed or
replaced, another attempt may be started, and the hub may quit.

Every agent that the `start` of an attempt returns is in `agents`, also one that is closed at once.
The other paths of the host are what they do to it in the end: they adopt agents of their own, open
and drop sessions, and close sessions, also late. So is the warm restart, which takes over where the
row of the host is gone. `late` and `expired` are guesses of an event: that the time for
reconnecting is up at one look at the clock, and at the next.

At any time the attempt that is registered is the only one that is neither aborted nor over, and no
other agent is adopted (`disposes_iff_careful`, with `Registered`). An agent is left behind only by
an attempt that a timer has started while the hub was quitting: the quit cancels one timer of the
host, and there may be another (`overwrittenTimer_leaks`).
-/

namespace Lasterm.Hub

open Runs

/-- The fence of a timer is that of its attempt. -/
structure FencedTimer extends ReconnectTimer where
  fence : ℕ

structure FencedAttempt extends Attempt where
  fence : ℕ

/-- An agent whose `start` has returned. -/
structure ProducedAgent where
  sessionId : ℕ
  /-- The attempt to reconnect that it is of. -/
  attempt : Option ℕ
  isOpen : Bool
  /-- It was put into `ctx.agents`. -/
  adopted : Bool

structure ReconnectHost where
  quitting : Bool
  quitEpoch : ℕ
  /-- `metaDal.getHost(hostId)` has a row, of type "ssh". -/
  hasRow : Bool
  /-- The `SessionState` objects, by their ids. -/
  sessions : List SessionStatus
  /-- `ctx.sessions.get(hostId)`. -/
  session : Option ℕ
  timers : List FencedTimer
  /-- `ctx.reconnectTimers.get(hostId)`. -/
  reconnectTimer : Option ℕ
  attempts : List FencedAttempt
  /-- `ctx.reconnectAbortControllers.get(hostId)`. -/
  controller : Option ℕ
  agents : List ProducedAgent
  /-- `ctx.agents.get(hostId)`. -/
  agent : Option ℕ

inductive ReconnectEvent
  | setRow (hasRow : Bool)
  | beginQuit
  /-- `getOrCreateSession`, in a SPAWN. -/
  | openSession
  /-- The session of a SPAWN that has failed is dropped. `abandoned` says that the client is gone,
  and that the agent is closed, too. -/
  | dropSession (sessionId : ℕ) (abandoned : Bool)
  /-- Another path adopts an agent. -/
  | otherAdopts (sessionId : ℕ)
  | timerFires (t : ℕ)
  /-- `onReconnectAgent`. -/
  | restart
  /-- `start` returns. `throws` says that `reAttachChannels` does not. -/
  | attemptConnected (n : ℕ) (mismatch throws late expired : Bool)
  | attemptFailed (n : ℕ) (late expired : Bool)
  /-- The connection of an agent is lost. -/
  | lost (a : ℕ)
  /-- The `close` event of an agent. -/
  | closed (a : ℕ)
  /-- A HELLO of another version. -/
  | helloMismatch (a : ℕ)
  /-- `SessionManager.closeSession`. -/
  | closeSession (sessionId : ℕ)
  /-- A late `lifecycle.closeSession`. -/
  | giveUp (sessionId : ℕ)

namespace ReconnectHost

/-- A host without a session, or with one that `startup` has restored. -/
def start (restored : Bool) : ReconnectHost where
  quitting := false
  quitEpoch := 0
  hasRow := true
  sessions := if restored then [.disconnected] else []
  session := if restored then some 0 else none
  timers := []
  reconnectTimer := none
  attempts := []
  controller := none
  agents := []
  agent := none

variable (s : ReconnectHost)

/-! ## Operations -/

def captureQuitFence : Option ℕ := if s.quitting then none else some s.quitEpoch

def isQuitFenceCurrent (fence : ℕ) : Bool := !s.quitting && s.quitEpoch == fence

/-- The object is only written while it is the session of the host. -/
def updateSessionStatus (i : ℕ) (status : SessionStatus) : ReconnectHost :=
  if s.session = some i then { s with sessions := s.sessions.set i status } else s

def deleteSession : ReconnectHost := { s with session := none }

def closeAgent (a : ℕ) : ReconnectHost :=
  { s with agents := s.agents.modify a fun g ↦ { g with isOpen := false } }

def deleteAgent : ReconnectHost := { s with agent := none }

def produce (g : ProducedAgent) : ReconnectHost := { s with agents := s.agents ++ [g] }

def adoptAgent (a : ℕ) : ReconnectHost :=
  { s with
    agents := s.agents.modify a fun g ↦ { g with adopted := true }
    agent := some a }

/-- Close the agent in `ctx.agents`, and delete it there. -/
def closeCurrent : ReconnectHost := s.agent.elim s fun a ↦ (s.closeAgent a).deleteAgent

/-- Clear the timer of the host, if there is one. -/
def clearTimer : ReconnectHost :=
  { s with
    timers := s.reconnectTimer.elim s.timers fun t ↦
      s.timers.modify t fun x ↦ { x with pending := false }
    reconnectTimer := none }

/-- Abort the registered controller, if there is one. -/
def abortRegistered : ReconnectHost :=
  { s with attempts := s.controller.elim s.attempts fun n ↦
      s.attempts.modify n fun at' ↦ { at' with aborted := true } }

def abortController : ReconnectHost := { s.abortRegistered with controller := none }

/-- A new controller. The one before it is aborted. -/
def startAttempt (i : ℕ) (timed : Bool) (fence : ℕ) : ReconnectHost :=
  let t := s.abortRegistered
  { t with
    attempts := t.attempts ++ [⟨⟨i, timed, false, false⟩, fence⟩]
    controller := some t.attempts.length }

def settleAttempt (n : ℕ) : ReconnectHost :=
  { s with attempts := s.attempts.modify n fun at' ↦ { at' with settled := true } }

/-- Delete the controller of an attempt, if it is the registered one. -/
def deleteController (n : ℕ) : ReconnectHost :=
  if s.controller = some n then { s with controller := none } else s

/-- `lifecycle.closeSession`. -/
def lifecycleClose (i : ℕ) : ReconnectHost :=
  (s.clearTimer.abortController.updateSessionStatus i .closed).deleteSession

def scheduleReconnect (i : ℕ) (expired : Bool) : ReconnectHost :=
  match s.captureQuitFence with
  | none => s
  | some fence =>
    if expired then s.lifecycleClose i
    else
      { s with
        timers := s.timers ++ [⟨⟨i, true⟩, fence⟩]
        reconnectTimer := some s.timers.length }

/-- The end of the `catch` of an attempt that was not aborted. That of a restart does nothing. -/
def retry (at' : FencedAttempt) (late expired : Bool) : ReconnectHost :=
  if at'.timed = false then s
  else if late then if s.session = some at'.sessionId then s.lifecycleClose at'.sessionId else s
  else s.scheduleReconnect at'.sessionId expired

/-- `abortAgentVersionMismatch`. -/
def abortAgentVersionMismatch (a i : ℕ) : ReconnectHost :=
  ((if s.agent = some a then s.deleteAgent else s).closeAgent a).lifecycleClose i

/-- The re-check of an attempt behind its `start`. -/
def Current (n : ℕ) (at' : FencedAttempt) : Prop :=
  at'.aborted = false ∧ s.controller = some n ∧ s.session = some at'.sessionId

instance (n : ℕ) (at' : FencedAttempt) : Decidable (s.Current n at') :=
  inferInstanceAs (Decidable (_ ∧ _ ∧ _))

/-- The `start` of an attempt has returned. -/
def connected (n : ℕ) (at' : FencedAttempt) (mismatch throws late expired : Bool) : ReconnectHost :=
  let a := s.agents.length
  let t := s.settleAttempt n
  if s.Current n at' then
    let t := (t.deleteController n).updateSessionStatus at'.sessionId .active
    let t := t.produce ⟨at'.sessionId, some n, true, false⟩
    if mismatch then (t.abortAgentVersionMismatch a at'.sessionId).retry at' late expired
    else if t.isQuitFenceCurrent at'.fence then
      if throws then (t.adoptAgent a).retry at' late expired else t.adoptAgent a
    -- `adoptAgent` throws.
    else t.retry at' late expired
  else t.produce ⟨at'.sessionId, some n, false, false⟩

def failed (n : ℕ) (at' : FencedAttempt) (late expired : Bool) : ReconnectHost :=
  let t := (s.settleAttempt n).deleteController n
  if at'.aborted then t else t.retry at' late expired

/-- The callback of a timer, up to `start`. -/
def timerFires (x : FencedTimer) : ReconnectHost :=
  let t := { s with reconnectTimer := none }
  if s.session = some x.sessionId ∧ s.sessions[x.sessionId]? ≠ some .closed then
    if s.hasRow then t.startAttempt x.sessionId true x.fence else t.lifecycleClose x.sessionId
  else t

/-- The `close` listener. Without a row of the host, a warm restart takes over. -/
def agentClosed (a : ℕ) : ReconnectHost :=
  if s.agent = some a then
    match s.session with
    | none => s.deleteAgent
    | some i =>
      if s.hasRow then
        (s.deleteAgent.updateSessionStatus i .disconnected).scheduleReconnect i false
      else s.deleteAgent
  else s

def beginQuit : ReconnectHost :=
  if s.quitting then s
  else { s.clearTimer.abortController with quitting := true, quitEpoch := s.quitEpoch + 1 }

def getOrCreateSession : ReconnectHost :=
  let reused := (s.session.bind fun i ↦ s.sessions[i]?).any fun status ↦
    status = .active ∨ status = .disconnected
  if reused ∨ s.quitting then s
  else { s with sessions := s.sessions ++ [.starting], session := some s.sessions.length }

/-- `SessionManager.closeSession`. -/
def closeSession (i : ℕ) : ReconnectHost :=
  if s.session = some i then s.closeCurrent.lifecycleClose i else s

def step : ReconnectEvent → Option ReconnectHost
  | .setRow hasRow => some { s with hasRow := hasRow }
  | .beginQuit => some s.beginQuit
  | .openSession => some s.getOrCreateSession
  | .dropSession i abandoned =>
    if s.session = some i then
      some (if abandoned then s.closeCurrent.deleteSession else s.deleteSession)
    else none
  | .otherAdopts i =>
    if s.quitting then none
    else
      some (((s.updateSessionStatus i .active).produce ⟨i, none, true, false⟩).adoptAgent
        s.agents.length)
  | .timerFires t =>
    match s.timers[t]? with
    | none => none
    | some x =>
      if x.pending then
        some
          ({ s with timers := s.timers.modify t fun x ↦ { x with pending := false } }.timerFires x)
      else none
  | .restart =>
    match s.captureQuitFence, s.session with
    | some fence, some i => if s.hasRow then some (s.startAttempt i false fence) else none
    | _, _ => none
  | .attemptConnected n mismatch throws late expired =>
    match s.attempts[n]? with
    | none => none
    | some at' =>
      if at'.settled then none else some (s.connected n at' mismatch throws late expired)
  | .attemptFailed n late expired =>
    match s.attempts[n]? with
    | none => none
    | some at' => if at'.settled then none else some (s.failed n at' late expired)
  | .lost a => if a < s.agents.length then some (s.closeAgent a) else none
  | .closed a =>
    match s.agents[a]? with
    | none => none
    | some g => if g.isOpen then none else some (s.agentClosed a)
  | .helloMismatch a => s.agents[a]?.map fun g ↦ s.abortAgentVersionMismatch a g.sessionId
  | .closeSession i => some (s.closeSession i)
  | .giveUp i => some (s.lifecycleClose i)

/-! ## What becomes of agents and attempts -/

/-- An agent of an attempt is put into `ctx.agents` only while the attempt is current. -/
def AdoptsCurrent (s s' : ReconnectHost) : Prop :=
  ∀ a, s'.agent = some a → s.agent ≠ some a → ∀ g n, s'.agents[a]? = some g → g.attempt = some n →
    ∃ at', s.attempts[n]? = some at' ∧ s.Current n at'

/-- The agent, if an attempt has produced it, was put into `ctx.agents` or is closed. -/
def DisposedAt (a : ℕ) : Prop :=
  ∀ g, s.agents[a]? = some g → g.attempt.isSome = true → g.adopted = true ∨ g.isOpen = false

/-- The registered attempt is the only one that is neither aborted nor over. -/
def Registered : Prop :=
  ∀ n at', s.attempts[n]? = some at' → at'.aborted = false → at'.settled = false →
    s.controller = some n

structure Disposes (s : ReconnectHost) (_ : ReconnectEvent) (s' : ReconnectHost) : Prop where
  adopts : AdoptsCurrent s s'
  disposed : ∀ a, s'.DisposedAt a
  registered : s'.Registered

/-- While the hub is quitting, no attempt that is current gets an agent of the right version. -/
def Careful (s : ReconnectHost) (e : ReconnectEvent) (_ : ReconnectHost) : Prop :=
  match e with
  | .attemptConnected n false _ _ _ => ∀ at' ∈ s.attempts[n]?, s.Current n at' → s.quitting = false
  | _ => True

/-- What holds whatever the timers do. -/
structure Sound : Prop where
  registered : s.Registered
  /-- A fence that was captured is current until the hub quits. -/
  timers : s.quitting = false → ∀ x ∈ s.timers, x.fence = s.quitEpoch
  attempts : s.quitting = false → ∀ at' ∈ s.attempts, at'.fence = s.quitEpoch

structure Inv : Prop where
  sound : s.Sound
  disposed : ∀ a, s.DisposedAt a

/-- What an operation does that produces no agent and adopts none. -/
structure Keeps (s t : ReconnectHost) : Prop where
  agent : ∀ a, t.agent = some a → s.agent = some a
  agents : ∀ (a : ℕ) (g : ProducedAgent), t.agents[a]? = some g → ∃ g' : ProducedAgent,
    s.agents[a]? = some g' ∧ g.attempt = g'.attempt ∧
      (g'.adopted = true → g.adopted = true) ∧ (g'.isOpen = false → g.isOpen = false)
  sound : s.Sound → t.Sound

variable {s} {t u : ReconnectHost} {n a i : ℕ} {at' : FencedAttempt} {e : ReconnectEvent}

theorem Keeps.refl : Keeps s s where
  agent _ := id
  agents _ g hg := ⟨g, hg, rfl, id, id⟩
  sound := id

theorem Keeps.trans (h : Keeps s t) (h' : Keeps t u) : Keeps s u where
  agent a ha := h.agent a (h'.agent a ha)
  agents a g hg := by
    obtain ⟨g', hg', hattempt, hadopted, hopen⟩ := h'.agents a g hg
    obtain ⟨g'', hg'', hattempt', hadopted', hopen'⟩ := h.agents a g' hg'
    exact ⟨g'', hg'', hattempt.trans hattempt', hadopted ∘ hadopted', hopen ∘ hopen'⟩
  sound := h'.sound ∘ h.sound

theorem Keeps.disposedAt (h : Keeps s t) (hs : s.DisposedAt a) : t.DisposedAt a := by
  intro g hg hsome
  obtain ⟨g', hg', hattempt, hadopted, hopen⟩ := h.agents a g hg
  rw [hattempt] at hsome
  exact (hs g' hg' hsome).imp hadopted hopen

/-- Operations that leave agents, attempts and timers alone. -/
theorem Keeps.of_same (hagent : ∀ a, t.agent = some a → s.agent = some a)
    (hagents : t.agents = s.agents) (hattempts : t.attempts = s.attempts)
    (hcontroller : t.controller = s.controller) (htimers : t.timers = s.timers)
    (hquitting : t.quitting = s.quitting) (hepoch : t.quitEpoch = s.quitEpoch) : Keeps s t where
  agent := hagent
  agents a g hg := ⟨g, hagents ▸ hg, rfl, id, id⟩
  sound h := by
    refine ⟨fun n at' hat ↦ ?_, ?_, ?_⟩
    · rw [hcontroller]
      exact h.registered n at' (hattempts ▸ hat)
    · rw [hquitting, htimers, hepoch]
      exact h.timers
    · rw [hquitting, hattempts, hepoch]
      exact h.attempts

theorem keeps_deleteSession : Keeps s s.deleteSession :=
  .of_same (fun _ ↦ id) rfl rfl rfl rfl rfl rfl

theorem keeps_deleteAgent : Keeps s s.deleteAgent := .of_same nofun rfl rfl rfl rfl rfl rfl

theorem keeps_updateSessionStatus (i : ℕ) (status : SessionStatus) :
    Keeps s (s.updateSessionStatus i status) := by
  rw [updateSessionStatus]
  split
  · exact .of_same (fun _ ↦ id) rfl rfl rfl rfl rfl rfl
  · exact .refl

theorem keeps_closeAgent (a : ℕ) : Keeps s (s.closeAgent a) where
  agent _ := id
  agents b g hg := by
    rw [closeAgent, List.getElem?_modify] at hg
    obtain ⟨g', hg', rfl⟩ := Option.map_eq_some_iff.mp hg
    refine ⟨g', hg', ?_⟩
    split <;> simp
  sound h := ⟨h.registered, h.timers, h.attempts⟩

theorem keeps_closeCurrent : Keeps s s.closeCurrent := by
  rw [closeCurrent]
  cases s.agent with
  | none => exact .refl
  | some a => exact (keeps_closeAgent a).trans keeps_deleteAgent

theorem mem_modify {β : Type*} {l : List β} {f : β → β} {n : ℕ} {y : β} (hy : y ∈ l.modify n f) :
    ∃ x ∈ l, y = x ∨ y = f x := by
  obtain ⟨m, hm⟩ := List.mem_iff_getElem?.mp hy
  rw [List.getElem?_modify] at hm
  obtain ⟨x, hx, rfl⟩ := Option.map_eq_some_iff.mp hm
  refine ⟨x, List.mem_of_getElem? hx, ?_⟩
  split
  · exact .inr rfl
  · exact .inl rfl

theorem keeps_clearTimer : Keeps s s.clearTimer where
  agent _ := id
  agents _ g hg := ⟨g, hg, rfl, id, id⟩
  sound h := by
    refine ⟨h.registered, fun hq x hx ↦ ?_, h.attempts⟩
    change x ∈ s.reconnectTimer.elim s.timers fun t ↦
      s.timers.modify t fun x ↦ { x with pending := false } at hx
    cases ht : s.reconnectTimer with
    | none =>
      rw [ht] at hx
      exact h.timers hq x hx
    | some t =>
      rw [ht] at hx
      obtain ⟨x', hx', rfl | rfl⟩ := mem_modify hx
      · exact h.timers hq _ hx'
      · exact h.timers hq x' hx'

/-- Behind this, no attempt is left that is neither aborted nor over. -/
theorem Sound.abortRegistered (h : s.Sound) (m : ℕ) (at' : FencedAttempt)
    (hat : s.abortRegistered.attempts[m]? = some at') (haborted : at'.aborted = false) :
    at'.settled = true := by
  rw [ReconnectHost.abortRegistered] at hat
  by_contra hsettled
  rw [Bool.not_eq_true] at hsettled
  cases hcontroller : s.controller with
  | none =>
    rw [hcontroller] at hat
    cases hcontroller.symm.trans (h.registered m at' hat haborted hsettled)
  | some n =>
    rw [hcontroller] at hat
    dsimp only at hat
    rw [Option.elim_some, List.getElem?_modify] at hat
    obtain ⟨x, hx, rfl⟩ := Option.map_eq_some_iff.mp hat
    split at haborted
    · cases haborted
    · rename_i hne
      rw [if_neg hne] at hsettled
      exact hne (Option.some.inj (hcontroller.symm.trans (h.registered m x hx haborted hsettled)))

theorem mem_abortRegistered (hat : at' ∈ s.abortRegistered.attempts) :
    ∃ x ∈ s.attempts, at'.fence = x.fence := by
  rw [abortRegistered] at hat
  cases hcontroller : s.controller with
  | none =>
    rw [hcontroller] at hat
    exact ⟨at', hat, rfl⟩
  | some n =>
    rw [hcontroller] at hat
    obtain ⟨x, hx, rfl | rfl⟩ := mem_modify hat
    · exact ⟨_, hx, rfl⟩
    · exact ⟨x, hx, rfl⟩

theorem keeps_abortController : Keeps s s.abortController where
  agent _ := id
  agents _ g hg := ⟨g, hg, rfl, id, id⟩
  sound h := by
    refine ⟨fun m at' hat haborted hsettled ↦ ?_, h.timers, fun hq at' hat ↦ ?_⟩
    · exact absurd ((h.abortRegistered m at' hat haborted).symm.trans hsettled) Bool.noConfusion
    · obtain ⟨x, hx, hfence⟩ := mem_abortRegistered hat
      exact hfence.trans (h.attempts hq x hx)

theorem keeps_startAttempt (timed : Bool) {fence : ℕ}
    (hfence : s.Sound → s.quitting = false → fence = s.quitEpoch) :
    Keeps s (s.startAttempt i timed fence) where
  agent _ := id
  agents _ g hg := ⟨g, hg, rfl, id, id⟩
  sound h := by
    refine ⟨fun m at' hat haborted hsettled ↦ ?_, h.timers, fun hq at' hat ↦ ?_⟩
    · change (s.abortRegistered.attempts ++ [_])[m]? = some at' at hat
      rw [List.getElem?_append] at hat
      split at hat
      · exact absurd ((h.abortRegistered m at' hat haborted).symm.trans hsettled) Bool.noConfusion
      · rename_i hle
        rw [List.getElem?_singleton] at hat
        split at hat
        · rename_i hzero
          exact congrArg some (by omega)
        · cases hat
    · rcases List.mem_append.mp hat with hat | hat
      · obtain ⟨x, hx, hfence'⟩ := mem_abortRegistered hat
        exact hfence'.trans (h.attempts hq x hx)
      · rw [List.mem_singleton.mp hat]
        exact hfence h hq

theorem keeps_settleAttempt (n : ℕ) : Keeps s (s.settleAttempt n) where
  agent _ := id
  agents _ g hg := ⟨g, hg, rfl, id, id⟩
  sound h := by
    refine ⟨fun m at' hat haborted hsettled ↦ ?_, h.timers, fun hq at' hat ↦ ?_⟩
    · rw [settleAttempt, List.getElem?_modify] at hat
      obtain ⟨x, hx, rfl⟩ := Option.map_eq_some_iff.mp hat
      split at hsettled
      · cases hsettled
      · rename_i hne
        rw [if_neg hne] at haborted
        exact h.registered m x hx haborted hsettled
    · obtain ⟨x, hx, rfl | rfl⟩ := mem_modify hat
      · exact h.attempts hq _ hx
      · exact h.attempts hq x hx

/-- An attempt that is over gives its controller up. -/
theorem keeps_deleteController (hat : s.attempts[n]? = some at')
    (hsettled : at'.settled = true) : Keeps s (s.deleteController n) := by
  rw [deleteController]
  split
  · rename_i hn
    refine ⟨fun _ ↦ id, fun _ g hg ↦ ⟨g, hg, rfl, id, id⟩, fun h ↦
      ⟨fun m x hx haborted hsettled' ↦ ?_, h.timers, h.attempts⟩⟩
    have hm := hn.symm.trans (h.registered m x hx haborted hsettled')
    rw [Option.some.injEq] at hm
    subst hm
    rw [Option.some.inj (hx.symm.trans hat), hsettled] at hsettled'
    cases hsettled'
  · exact .refl

theorem keeps_lifecycleClose (i : ℕ) : Keeps s (s.lifecycleClose i) :=
  keeps_clearTimer.trans (keeps_abortController.trans
    ((keeps_updateSessionStatus i _).trans keeps_deleteSession))

theorem captureQuitFence_eq_some_iff {fence : ℕ} :
    s.captureQuitFence = some fence ↔ s.quitting = false ∧ s.quitEpoch = fence := by
  rw [captureQuitFence]
  cases s.quitting <;> simp

theorem keeps_scheduleReconnect (i : ℕ) (expired : Bool) :
    Keeps s (s.scheduleReconnect i expired) := by
  rw [scheduleReconnect]
  split
  · exact .refl
  · rename_i fence hfence
    split
    · exact keeps_lifecycleClose i
    · refine ⟨fun _ ↦ id, fun _ g hg ↦ ⟨g, hg, rfl, id, id⟩, fun h ↦
        ⟨h.registered, fun hq x hx ↦ ?_, h.attempts⟩⟩
      rcases List.mem_append.mp hx with hx | hx
      · exact h.timers hq x hx
      · rw [List.mem_singleton.mp hx]
        exact (captureQuitFence_eq_some_iff.mp hfence).2.symm

theorem keeps_retry (at' : FencedAttempt) (late expired : Bool) :
    Keeps s (s.retry at' late expired) := by
  rw [retry]
  split
  · exact .refl
  · split
    · split
      · exact keeps_lifecycleClose _
      · exact .refl
    · exact keeps_scheduleReconnect _ expired

theorem keeps_discard (a : ℕ) :
    Keeps s ((if s.agent = some a then s.deleteAgent else s).closeAgent a) := by
  split
  · exact keeps_deleteAgent.trans (keeps_closeAgent a)
  · exact keeps_closeAgent a

theorem keeps_abortAgentVersionMismatch (a i : ℕ) : Keeps s (s.abortAgentVersionMismatch a i) :=
  (keeps_discard a).trans (keeps_lifecycleClose i)

/-! ## Steps -/

/-- A step that adopts nothing and produces nothing. -/
theorem Keeps.disposes (h : Keeps s t) (hs : s.Inv) (e : ReconnectEvent) :
    Disposes s e t ∧ t.Sound :=
  ⟨⟨fun a ha hne ↦ absurd (h.agent a ha) hne, fun a ↦ h.disposedAt (hs.disposed a),
    (h.sound hs.sound).registered⟩, h.sound hs.sound⟩

theorem keeps_agentClosed (a : ℕ) : Keeps s (s.agentClosed a) := by
  rw [agentClosed]
  split
  · split
    · exact keeps_deleteAgent
    · split
      · exact keeps_deleteAgent.trans
          ((keeps_updateSessionStatus _ _).trans (keeps_scheduleReconnect _ _))
      · exact keeps_deleteAgent
  · exact .refl

theorem keeps_beginQuit : Keeps s s.beginQuit := by
  rw [beginQuit]
  split
  · exact .refl
  · have hkeeps : Keeps s s.clearTimer.abortController :=
      keeps_clearTimer.trans keeps_abortController
    exact ⟨hkeeps.agent, hkeeps.agents, fun h ↦ ⟨(hkeeps.sound h).registered, nofun, nofun⟩⟩

theorem keeps_getOrCreateSession : Keeps s s.getOrCreateSession := by
  rw [getOrCreateSession]
  split
  · exact .refl
  · exact .of_same (fun _ ↦ id) rfl rfl rfl rfl rfl rfl

theorem keeps_closeSession (i : ℕ) : Keeps s (s.closeSession i) := by
  rw [closeSession]
  split
  · exact keeps_closeCurrent.trans (keeps_lifecycleClose i)
  · exact .refl

theorem keeps_timerFires {x : FencedTimer} {m : ℕ} (hx : s.timers[m]? = some x) :
    Keeps s ({ s with timers := s.timers.modify m fun x ↦ { x with pending := false } }.timerFires
      x) := by
  have hfired : Keeps s { s with
      timers := s.timers.modify m fun x ↦ { x with pending := false }
      reconnectTimer := none } := by
    refine ⟨fun _ ↦ id, fun _ g hg ↦ ⟨g, hg, rfl, id, id⟩, fun h ↦
      ⟨h.registered, fun hq y hy ↦ ?_, h.attempts⟩⟩
    obtain ⟨y', hy', rfl | rfl⟩ := mem_modify hy
    · exact h.timers hq _ hy'
    · exact h.timers hq y' hy'
  rw [ReconnectHost.timerFires]
  split
  · split
    · refine hfired.trans (keeps_startAttempt true fun h hq ↦
        h.timers hq { x with pending := false } ?_)
      refine List.mem_of_getElem? (i := m) ?_
      rw [List.getElem?_modify_eq, hx]
      rfl
    · exact hfired.trans (keeps_lifecycleClose _)
  · exact hfired

theorem keeps_failed (hat : s.attempts[n]? = some at') (late expired : Bool) :
    Keeps s (s.failed n at' late expired) := by
  have hover : Keeps s ((s.settleAttempt n).deleteController n) := by
    have hsettled : (s.settleAttempt n).attempts[n]? = some { at' with settled := true } := by
      rw [settleAttempt, List.getElem?_modify_eq, hat]
      rfl
    exact (keeps_settleAttempt n).trans (keeps_deleteController hsettled rfl)
  rw [failed]
  split
  · exact hover
  · exact hover.trans (keeps_retry _ _ _)

theorem getElem?_produce (g : ProducedAgent) (a : ℕ) :
    (s.produce g).agents[a]? = if a = s.agents.length then some g else s.agents[a]? := by
  rw [produce, List.getElem?_append]
  split
  · rename_i hlt
    rw [if_neg (by omega)]
  · rename_i hle
    rw [List.getElem?_singleton]
    by_cases ha : a = s.agents.length
    · rw [if_pos ha, if_pos (by omega)]
    · rw [if_neg ha, if_neg (by omega), List.getElem?_eq_none (by omega)]

/-- An agent that is produced and not adopted is all that a state has more. -/
theorem disposes_produce (hs : s.Inv) (hst : Keeps s t) {g : ProducedAgent}
    (hu : Keeps (t.produce g) u) (hclosed : u.DisposedAt t.agents.length) :
    Disposes s e u ∧ u.Sound := by
  have ht := hst.sound hs.sound
  have hsound : u.Sound := hu.sound ⟨ht.registered, ht.timers, ht.attempts⟩
  refine ⟨⟨fun a ha hne ↦ absurd (hst.agent a (hu.agent a ha)) hne, fun a ↦ ?_,
    hsound.registered⟩, hsound⟩
  by_cases ha : a = t.agents.length
  · exact ha ▸ hclosed
  · refine hu.disposedAt fun g' hg' ↦ ?_
    rw [getElem?_produce, if_neg ha] at hg'
    exact hst.disposedAt (hs.disposed a) g' hg'

/-- The agent that is adopted is all that a state has more. -/
theorem disposes_adopt (hs : s.Inv) (hst : Keeps s t) {g : ProducedAgent}
    (hu : Keeps ((t.produce g).adoptAgent t.agents.length) u)
    (hcurrent : ∀ n, g.attempt = some n → ∃ at', s.attempts[n]? = some at' ∧ s.Current n at') :
    Disposes s e u ∧ u.Sound := by
  have ht := hst.sound hs.sound
  have hsound : u.Sound := hu.sound ⟨ht.registered, ht.timers, ht.attempts⟩
  refine ⟨⟨fun a ha hne g' n hg' hattempt ↦ ?_, fun a ↦ hu.disposedAt fun g' hg' hsome ↦ ?_,
    hsound.registered⟩, hsound⟩
  · have hadopted : a = t.agents.length := (Option.some.inj (hu.agent a ha)).symm
    obtain ⟨g'', hg'', hsame, -⟩ := hu.agents a g' hg'
    rw [adoptAgent, List.getElem?_modify, getElem?_produce, if_pos hadopted] at hg''
    cases hg''
    refine hcurrent n ?_
    rw [hsame] at hattempt
    split at hattempt <;> exact hattempt
  · by_cases ha : a = t.agents.length
    · subst ha
      rw [adoptAgent, List.getElem?_modify_eq, getElem?_produce, if_pos rfl] at hg'
      cases hg'
      exact .inl rfl
    · rw [adoptAgent, List.getElem?_modify_ne _ _ (Ne.symm ha), getElem?_produce, if_neg ha] at hg'
      exact hst.disposedAt (hs.disposed a) g' hg' hsome

theorem agents_retry (at' : FencedAttempt) (late expired : Bool) :
    (s.retry at' late expired).agents = s.agents := by
  have hclose : ∀ i, (s.lifecycleClose i).agents = s.agents := by
    intro i
    rw [lifecycleClose, deleteSession, updateSessionStatus]
    split <;> rfl
  rw [retry, scheduleReconnect]
  split
  · rfl
  · split
    · split
      · exact hclose _
      · rfl
    · split
      · rfl
      · split
        · exact hclose _
        · rfl

theorem isQuitFenceCurrent_iff (h : s.Sound) (hat : at' ∈ s.attempts) :
    s.isQuitFenceCurrent at'.fence = true ↔ s.quitting = false := by
  rw [isQuitFenceCurrent]
  cases hq : s.quitting with
  | true => simp
  | false => simp [h.attempts hq at' hat]

theorem disposedAt_closeAgent : (s.closeAgent a).DisposedAt a := by
  intro g hg _
  rw [closeAgent, List.getElem?_modify_eq] at hg
  obtain ⟨g', -, rfl⟩ := Option.map_eq_some_iff.mp hg
  exact .inr rfl

/-- The end of an attempt is right unless the fence of its agent is over. -/
theorem agrees_connected (hs : s.Inv) (hat : s.attempts[n]? = some at')
    (mismatch throws late expired : Bool) :
    (Disposes s e (s.connected n at' mismatch throws late expired) ↔
        (mismatch = false → s.Current n at' → s.quitting = false)) ∧
      ((mismatch = false → s.Current n at' → s.quitting = false) →
        (s.connected n at' mismatch throws late expired).Sound) := by
  rw [connected]
  by_cases hcurrent : s.Current n at'
  · simp only [if_pos hcurrent]
    obtain ⟨t, ht⟩ : ∃ t, t = ((s.settleAttempt n).deleteController n).updateSessionStatus
        at'.sessionId .active := ⟨_, rfl⟩
    have hsettled : (s.settleAttempt n).attempts[n]? = some { at' with settled := true } := by
      rw [settleAttempt, List.getElem?_modify_eq, hat]
      rfl
    have hkeeps : Keeps s t := ht ▸ (keeps_settleAttempt n).trans
      ((keeps_deleteController hsettled rfl).trans (keeps_updateSessionStatus _ _))
    have hsame : t.agents = s.agents ∧ t.quitting = s.quitting ∧ t.quitEpoch = s.quitEpoch := by
      rw [ht, updateSessionStatus, deleteController]
      split <;> split <;> exact ⟨rfl, rfl, rfl⟩
    have hlength : s.agents.length = t.agents.length := by rw [hsame.1]
    rw [← ht, hlength]
    cases mismatch with
    | true =>
      have hends := disposes_produce (e := e) hs hkeeps
        (g := ⟨at'.sessionId, some n, true, false⟩)
        ((keeps_abortAgentVersionMismatch t.agents.length at'.sessionId).trans
          (keeps_retry at' late expired))
        (((keeps_lifecycleClose _).trans (keeps_retry _ _ _)).disposedAt disposedAt_closeAgent)
      exact ⟨⟨fun _ ↦ nofun, fun _ ↦ hends.1⟩, fun _ ↦ hends.2⟩
    | false =>
      have hfence : (t.produce ⟨at'.sessionId, some n, true, false⟩).isQuitFenceCurrent at'.fence =
          s.isQuitFenceCurrent at'.fence := by
        rw [isQuitFenceCurrent, isQuitFenceCurrent, produce, hsame.2.1, hsame.2.2]
      have hiff := isQuitFenceCurrent_iff hs.sound (List.mem_of_getElem? hat)
      simp only [Bool.false_eq_true, if_false, hfence]
      split
      · rename_i hnow
        have hadopts : ∀ m, (some n : Option ℕ) = some m →
            ∃ at', s.attempts[m]? = some at' ∧ s.Current m at' := by
          rintro m ⟨⟩
          exact ⟨at', hat, hcurrent⟩
        have hends : ∀ u, Keeps ((t.produce ⟨at'.sessionId, some n, true, false⟩).adoptAgent
            t.agents.length) u → Disposes s e u ∧ u.Sound :=
          fun u hu ↦ disposes_adopt hs hkeeps hu hadopts
        split
        · have h := hends _ (keeps_retry at' late expired)
          exact ⟨⟨fun _ _ _ ↦ hiff.mp hnow, fun _ ↦ h.1⟩, fun _ ↦ h.2⟩
        · exact ⟨⟨fun _ _ _ ↦ hiff.mp hnow, fun _ ↦ (hends _ .refl).1⟩, fun _ ↦ (hends _ .refl).2⟩
      · rename_i hover
        refine ⟨⟨fun hdisposes ↦ ?_, fun h ↦ absurd (hiff.mpr (h trivial hcurrent)) hover⟩,
          fun h ↦ absurd (hiff.mpr (h trivial hcurrent)) hover⟩
        -- the agent is still open, and in no map
        have hleft := hdisposes.disposed t.agents.length ⟨at'.sessionId, some n, true, false⟩
        rw [agents_retry, getElem?_produce, if_pos rfl] at hleft
        rcases hleft rfl rfl with h | h <;> cases h
  · simp only [if_neg hcurrent]
    have hends := disposes_produce (e := e) hs (keeps_settleAttempt n)
      (g := ⟨at'.sessionId, some n, false, false⟩) .refl fun g hg _ ↦ by
        rw [getElem?_produce, if_pos rfl, Option.some.injEq] at hg
        exact .inr (hg ▸ rfl)
    exact ⟨⟨fun _ _ h ↦ absurd h hcurrent, fun _ ↦ hends.1⟩, fun _ ↦ hends.2⟩

theorem careful_attemptConnected (hat : s.attempts[n]? = some at')
    {mismatch throws late expired : Bool} :
    Careful s (.attemptConnected n mismatch throws late expired) t ↔
      (mismatch = false → s.Current n at' → s.quitting = false) := by
  cases mismatch with
  | true => exact ⟨fun _ ↦ nofun, fun _ ↦ trivial⟩
  | false =>
    constructor
    · intro h _
      exact h at' hat
    · rintro h x hx
      cases hat.symm.trans hx
      exact h rfl

/-- **The step lemma.** -/
theorem step_agrees (hs : s.Inv) :
    Ensures (fun t ↦ (Disposes s e t ↔ Careful s e t) ∧ (Careful s e t → t.Inv)) (s.step e) := by
  have hends : ∀ {u}, Disposes s e u ∧ u.Sound → Careful s e u →
      (Disposes s e u ↔ Careful s e u) ∧ (Careful s e u → u.Inv) :=
    fun h hcareful ↦ ⟨⟨fun _ ↦ hcareful, fun _ ↦ h.1⟩, fun _ ↦ ⟨h.2, h.1.disposed⟩⟩
  cases e with
  | setRow hasRow =>
    refine .of_some ?_
    have hkeeps : Keeps s { s with hasRow := hasRow } :=
      .of_same (fun _ ↦ id) rfl rfl rfl rfl rfl rfl
    exact hends (hkeeps.disposes hs _) trivial
  | beginQuit => exact .of_some (hends (keeps_beginQuit.disposes hs _) trivial)
  | openSession => exact .of_some (hends (keeps_getOrCreateSession.disposes hs _) trivial)
  | dropSession i abandoned =>
    rw [step]
    refine .guard fun _ ↦ .of_some ?_
    split
    · exact hends ((keeps_closeCurrent.trans keeps_deleteSession).disposes hs _) trivial
    · exact hends (keeps_deleteSession.disposes hs _) trivial
  | otherAdopts i =>
    rw [step]
    refine .guardNot fun _ ↦ .of_some ?_
    -- The status is written first, which makes no agent.
    have hlength : s.agents.length = (s.updateSessionStatus i .active).agents.length := by
      rw [updateSessionStatus]
      split <;> rfl
    rw [hlength]
    exact hends (disposes_adopt hs (keeps_updateSessionStatus i .active) .refl nofun) trivial
  | timerFires m =>
    rw [step]
    split
    · exact .of_none
    · rename_i x hx
      exact .guard fun _ ↦ .of_some (hends ((keeps_timerFires hx).disposes hs _) trivial)
  | restart =>
    rw [step]
    split
    · rename_i fence i hfence _
      refine .guard fun _ ↦ .of_some ?_
      exact hends ((keeps_startAttempt false fun _ _ ↦
        (captureQuitFence_eq_some_iff.mp hfence).2.symm).disposes hs _) trivial
    · exact .of_none
  | attemptConnected n mismatch throws late expired =>
    rw [step]
    split
    · exact .of_none
    · rename_i at' hat
      refine .guardNot fun _ ↦ .of_some ?_
      -- The one event that can go wrong.
      obtain ⟨hiff, hsound⟩ := agrees_connected hs hat mismatch throws late expired
        (e := .attemptConnected n mismatch throws late expired)
      rw [careful_attemptConnected hat, hiff]
      exact ⟨Iff.rfl, fun hcareful ↦ ⟨hsound hcareful, (hiff.mpr hcareful).disposed⟩⟩
  | attemptFailed n late expired =>
    rw [step]
    split
    · exact .of_none
    · rename_i at' hat
      refine .guardNot fun _ ↦ ?_
      exact .of_some (hends ((keeps_failed hat late expired).disposes hs _) trivial)
  | lost a =>
    rw [step]
    exact .guard fun _ ↦ .of_some (hends ((keeps_closeAgent a).disposes hs _) trivial)
  | closed a =>
    rw [step]
    split
    · exact .of_none
    · exact .guardNot fun _ ↦ .of_some (hends ((keeps_agentClosed a).disposes hs _) trivial)
  | helloMismatch a =>
    exact .map fun _ _ ↦ hends ((keeps_abortAgentVersionMismatch a _).disposes hs _) trivial
  | closeSession i => exact .of_some (hends ((keeps_closeSession i).disposes hs _) trivial)
  | giveUp i => exact .of_some (hends ((keeps_lifecycleClose i).disposes hs _) trivial)

/-! ## Runs -/

theorem inv_start (restored : Bool) : (start restored).Inv where
  sound := by
    refine ⟨fun n at' hat ↦ ?_, fun _ x hx ↦ ?_, fun _ at' hat ↦ ?_⟩
    · cases hat
    · cases hx
    · cases hat
  disposed a g hg := by cases hg

/-- **Reconnects adopt current agents only, and dispose of the others**, along exactly those runs in
which no attempt that is current gets its agent while the hub is quitting. In all of these, the
registered attempt is the only one that is neither aborted nor over. -/
theorem disposes_iff_careful (restored : Bool) (es : List ReconnectEvent) :
    Along step Disposes (start restored) es ↔ Along step Careful (start restored) es :=
  along_congr_of_keeps Inv
    (fun s e t hs (hstep : s.step e = some t) ↦ step_agrees hs hstep) (inv_start restored)

/-- Two timers: the second overwrites the entry of the first, and the quit cancels the second. The
first one fires, and its attempt connects. -/
def overwrittenTimer : List ReconnectEvent :=
  [.openSession, .otherAdopts 0, .lost 0, .closed 0, .restart,
    .attemptConnected 0 false false false false, .lost 1, .closed 1, .beginQuit, .timerFires 0,
    .attemptConnected 1 false false false false]

/-- The agent of the last attempt is neither adopted nor closed. -/
theorem overwrittenTimer_leaks :
    ∃ s, run step (start false) overwrittenTimer = some s ∧ s.agent = none ∧
      s.agents[2]? = some ⟨0, some 1, true, false⟩ ∧
      ¬ Along step Disposes (start false) overwrittenTimer := by
  refine ⟨_, rfl, rfl, rfl, fun halong ↦ ?_⟩
  rw [overwrittenTimer] at halong
  repeat rw [along_cons_of_eq rfl] at halong
  obtain ⟨-, -, -, -, -, -, -, -, -, -, hlast, -⟩ := halong
  rcases hlast.disposed 2 _ rfl rfl with h | h <;> cases h

end ReconnectHost

end Lasterm.Hub
