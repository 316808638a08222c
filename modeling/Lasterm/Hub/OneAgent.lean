import Lasterm.Hub.AgentClaims

/-!
# One agent for each host

As long as no path starts while another has a claim to the place of the agent (`Careful`), an agent
is only replaced when it is not connected, and no other agent of the host is connected
(`oneAgent_of_careful`).

The paths check this of themselves only: acquisitions are shared, a new attempt to reconnect aborts
the one before, an attach is joined. That an attempt starts while an acquisition connects is not
excluded, and the second of the two then takes the place of a connected agent
(`reconnect_displaces`).
-/

namespace Lasterm.Hub

open Runs

/-! ## The host -/

namespace HostConnections

variable {s s' : HostConnections} {e : ConnectionEvent} {a b n sessionId lease : ℕ} (t : AgentSlot)

@[simp] theorem toAgentSlot_updateSessionStatus (status : SessionStatus) :
    (s.updateSessionStatus sessionId status).toAgentSlot = s.toAgentSlot := by
  rw [updateSessionStatus]
  split <;> rfl

@[simp] theorem toAgentSlot_getOrCreateSession (isSsh : Bool) :
    (s.getOrCreateSession isSsh).1.toAgentSlot = s.toAgentSlot := by
  rw [getOrCreateSession.eq_def]
  split
  · split <;> rfl
  · rfl

@[simp] theorem toAgentSlot_clearTimer : s.clearTimer.toAgentSlot = s.toAgentSlot := by
  rw [clearTimer.eq_def]
  split <;> rfl

@[simp] theorem toAgentSlot_lifecycleCloseSession :
    (s.lifecycleCloseSession sessionId).toAgentSlot = s.toAgentSlot.abortController := by
  rw [lifecycleCloseSession, deleteSession, toAgentSlot_updateSessionStatus, slot,
    toAgentSlot_clearTimer]

/-! ## Careful steps -/

/-- Who starts to connect in a step. -/
def starts (s : HostConnections) : ConnectionEvent → Option Claimant
  | .spawn _ =>
    if s.host = some .ssh ∧ s.agentConnected = false ∧ s.acquisitions.map.get s.hostId = none then
      some .acquisition
    else none
  | .timerFires t =>
    match s.timers[t]? with
    | some ⟨sessionId, true⟩ =>
      if s.session = some sessionId ∧ s.sessions[sessionId]? ≠ some .closed ∧ s.host ≠ none then
        some .attempt
      else none
    | _ => none
  | .restart =>
    if s.session ≠ none ∧ s.agentConnected = false ∧ s.host = some .ssh then some .attempt else none
  | .connectDaemon _ => if s.agentConnected = false ∧ s.attach = none then some .attach else none
  | .closed a crashLoop =>
    match s.agents[a]? with
    | some g =>
      if s.agent = some a ∧ s.session ≠ none ∧ s.attach = none ∧
          (g.daemon = true ∨ s.host ≠ some .ssh ∧ crashLoop = false) then some .attach
      else none
    | none => none
  | _ => none

/-- The condition on a step: a path only starts to connect while no agent is connected and no other
path is connecting. -/
def Careful (s : HostConnections) (e : ConnectionEvent) (_ : HostConnections) : Prop :=
  ∀ c ∈ s.starts e, s.Spares c

instance (s : HostConnections) (e : ConnectionEvent) (s' : HostConnections) :
    Decidable (Careful s e s') :=
  inferInstanceAs (Decidable (∀ c ∈ s.starts e, s.Spares c))

theorem inv_lifecycleCloseSession (h : s.Inv) : (s.lifecycleCloseSession sessionId).Inv := by
  rw [toAgentSlot_lifecycleCloseSession]
  exact h.shrink (AgentSlot.shrinks_abortController h.coherent)

theorem inv_scheduleReconnect (h : s.Inv) (expired : Bool) :
    (s.scheduleReconnect sessionId expired).Inv := by
  rw [scheduleReconnect]
  split
  · exact inv_lifecycleCloseSession h
  · exact h

theorem inv_retry (h : s.Inv) (at' : Attempt) (late expired : Bool) :
    (s.retry at' late expired).Inv := by
  rw [retry]
  split
  · exact h
  · split
    · split
      · exact inv_lifecycleCloseSession h
      · exact h
    · exact inv_scheduleReconnect h expired

theorem inv_failLeader (h : s.Inv)
    (hclosed : ∀ i l a, s.leading n = .wired i l a → s.connected a = false) :
    (s.failLeader n sessionId lease).Inv := by
  have hslot : (s.failLeader n sessionId lease).toAgentSlot =
      s.failConnectingAcq n lease "SSH connection failed" := by
    rw [failLeader]
    split
    · rw [slot, deleteSession, toAgentSlot_updateSessionStatus]
    · rfl
  rw [hslot]
  exact h.failConnectingAcq _ hclosed

theorem inv_abortAgentVersionMismatch (h : (s.discard a).Inv) :
    (s.abortAgentVersionMismatch a sessionId).Inv :=
  inv_lifecycleCloseSession (s := s.slot fun u ↦ u.discard a) h

theorem inv_attachDaemon (h : s.Inv)
    (hcareful : s.agentConnected = false → s.attach = none → s.Spares .attach) :
    (s.attachDaemon sessionId).Inv := by
  rw [AgentSlot.attachDaemon]
  split
  · exact h
  · rename_i hconnected
    refine h.closeCurrent.joinAttach (fun hnone c hc ↦ ?_) sessionId
    rw [AgentSlot.attach_closeCurrent] at hnone
    exact hcareful (by simpa using hconnected) hnone c (AgentSlot.claims_closeCurrent hc)

theorem inv_acquireOrJoin (h : s.Inv) (hcareful : s.acquisitions.map.get s.hostId = none →
    s.Spares .acquisition) (clientId : String) : (s.acquireOrJoin clientId).Inv := by
  rw [acquireOrJoin.eq_def]
  simp only
  split
  · rename_i hmap
    have hslot := toAgentSlot_getOrCreateSession (s := s) true
    have hlead := h.lead hmap (hcareful hmap) clientId (s.getOrCreateSession true).2
    rw [← hslot] at hlead
    exact hlead
  · rename_i a hmap
    obtain ⟨q, hq, hhost, -⟩ := h.coherent.pending _ _ hmap
    have hjoin := h.coherent.join_eq hq (hhost ▸ hmap) clientId
    have hin : s.acquisitions.InMap a := ⟨q, hq, hhost ▸ hmap⟩
    have hcoherent : (s.acquisitions.join a clientId).1.Coherent := h.coherent.join hin
    have hwithdraws := Acquisitions.withdraws_join (P := fun _ ↦ True) s.acquisitions a clientId
    rw [hjoin] at hcoherent hwithdraws ⊢
    exact h.withAcquisitions hcoherent hwithdraws

/-- The `close` event of the agent of the host. -/
theorem inv_onClose (h : s.Inv) (ha : s.agent = some a) (hdead : s.connected a = false)
    {g : WiredAgent}
    {crashLoop : Bool} (hcareful : s.session ≠ none → s.attach = none →
      (g.daemon = true ∨ s.host ≠ some .ssh ∧ crashLoop = false) → s.Spares .attach) :
    (s.onClose g crashLoop).Inv := by
  have hdisconnected : s.agentConnected = false := by
    rw [AgentSlot.agentConnected_eq_false]
    intro b hb
    cases ha.symm.trans hb
    exact hdead
  have ht : (s.slot AgentSlot.deleteAgent).Inv := h.deleteAgent hdisconnected
  have hattach {t : HostConnections} (htslot : t.toAgentSlot = s.toAgentSlot.deleteAgent)
      (hsession : s.session ≠ none)
      (hstarts : g.daemon = true ∨ s.host ≠ some .ssh ∧ crashLoop = false) (sessionId : ℕ) :
      (t.attachDaemon sessionId).Inv := by
    refine inv_attachDaemon (htslot ▸ ht) fun _ hnone c hc ↦ ?_
    rw [htslot] at hnone hc
    refine hcareful hsession hnone hstarts c ?_
    rcases c
    · cases hc
    · exact hc
    · exact hc
    · exact hc
  rw [onClose.eq_def]
  simp only
  split
  · exact ht
  · rename_i sessionId hsession
    have hsession : s.session ≠ none := by
      rw [show s.session = some sessionId from hsession]
      exact Option.some_ne_none _
    split
    · rename_i hdaemon
      exact hattach (by simp [slot]) hsession (.inl hdaemon) sessionId
    · split
      · apply inv_scheduleReconnect
        rw [toAgentSlot_updateSessionStatus]
        exact ht
      · rename_i hssh
        split
        · exact inv_lifecycleCloseSession ht
        · rename_i hloop
          exact hattach (t := s.slot AgentSlot.deleteAgent) rfl hsession
            (.inr ⟨hssh, by simpa using hloop⟩) sessionId

theorem leading_abortAgentVersionMismatch :
    (s.abortAgentVersionMismatch a sessionId).leading = s.leading := by
  rw [abortAgentVersionMismatch, toAgentSlot_lifecycleCloseSession,
    AgentSlot.leading_abortController]
  exact AgentSlot.leading_discard

section

variable (h : s.Inv)
include h

/-- The connect of a leader is over. -/
theorem inv_leaderConnected {alive mismatch : Bool} :
    Ensures (fun t ↦ t.Inv) (s.step (.leaderConnected n alive mismatch)) := by
  rw [step]
  split
  · rename_i i l hn
    have hclosed {t : HostConnections} (ht : t.leading = s.leading) :
        ∀ i' l' a, t.leading n = .wired i' l' a → t.connected a = false := by
      intro i' l' a hn'
      rw [ht, hn] at hn'
      cases hn'
    split
    · exact .of_some (inv_failLeader h (hclosed rfl))
    · simp only
      split
      · refine .of_some ?_
        refine inv_failLeader (inv_abortAgentVersionMismatch ?_) (hclosed ?_)
        · simp only [slot, toAgentSlot_updateSessionStatus]
          exact h.wireDiscard _
        · rw [leading_abortAgentVersionMismatch, slot, toAgentSlot_updateSessionStatus]
          rfl
      · refine .of_some ?_
        simp only [slot, toAgentSlot_updateSessionStatus]
        exact h.wireLeader hn alive
  · exact .of_none

/-- The guard of a leader. -/
theorem inv_leaderSettles :
    Ensures (fun t ↦ t.Inv) (s.step (.leaderSettles n)) := by
  rw [step]
  split
  · rename_i i l a hn
    split
    · rename_i hguard
      exact .of_some (h.adoptLeader hn hguard.1)
    · refine .of_some ?_
      have hclosed : ∀ i' l' b, (s.toAgentSlot.closeAgent a).leading n = .wired i' l' b →
          (s.toAgentSlot.closeAgent a).connected b = false := by
        intro i' l' b hn'
        obtain ⟨-, -, rfl⟩ := Leading.wired.inj (hn.symm.trans hn')
        by_contra hne
        exact (AgentSlot.connected_closeAgent.mp (by simpa using hne)).2 rfl
      have hslot : (if (s.slot fun u ↦ u.closeAgent a).session = some i then
          (s.slot fun u ↦ u.closeAgent a).deleteSession
          else s.slot fun u ↦ u.closeAgent a).toAgentSlot = s.toAgentSlot.closeAgent a := by
        split <;> rfl
      simp only [slot] at hslot ⊢
      rw [hslot]
      exact (h.closeAgent a).failConnectingAcq _ hclosed
  · exact .of_none

/-- A timer fires. -/
theorem inv_timerFires {t : ℕ} (hcareful : Careful s (.timerFires t) s') :
    Ensures (fun t ↦ t.Inv) (s.step (.timerFires t)) := by
  rw [step]
  split
  · rename_i i ht
    simp only
    split
    · rename_i hcurrent
      split
      · exact .of_some (inv_lifecycleCloseSession h)
      · rename_i kind hhost
        refine .of_some ?_
        refine h.startAttempt (hcareful .attempt ?_) i true
        rw [starts, ht]
        simp [hcurrent, hhost]
    · exact .of_some h
  · exact .of_none

theorem inv_restart (hcareful : Careful s .restart s') :
    Ensures (fun t ↦ t.Inv) (s.step .restart) := by
  rw [step]
  split
  · rename_i i hsession
    split
    · rename_i hstart
      refine .of_some ?_
      refine h.startAttempt (hcareful .attempt ?_) i false
      rw [starts, if_pos ⟨by simp [hsession], hstart⟩]
      rfl
    · exact .of_some h
  · exact .of_some h

/-- A current attempt whose `start` is over was the only one with a claim, and gives it up. -/
theorem not_claims_of_mayReconnect {at' : Attempt} (hat : s.attempts[n]? = some at')
    (hrunning : at'.settled = false) (hmay : s.mayReconnect n at') (c : Claimant) :
    ¬ ((s.settleAttempt n).deleteController n).Claims c := by
  have hclaim : s.Claims .attempt := ⟨n, hmay.2.1, at', hat, hrunning⟩
  have hnone : ((s.settleAttempt n).deleteController n).controller = none := by
    have hcontroller : (s.settleAttempt n).controller = some n := hmay.2.1
    rw [AgentSlot.deleteController, if_pos hcontroller]
  intro hc
  have hbefore : s.Claims c :=
    (AgentSlot.shrinks_settleAttempt h.coherent n).claims c (AgentSlot.claims_deleteController hc)
  obtain rfl : c = .attempt := h.exclusive .attempt hclaim c hbefore
  obtain ⟨m, hm, -⟩ := hc
  rw [hnone] at hm
  cases hm

/-- The `start` of an attempt is over. -/
theorem inv_attemptConnected {alive mismatch late expired : Bool} :
    Ensures (fun t ↦ t.Inv) (s.step (.attemptConnected n alive mismatch late expired)) := by
  rw [step]
  split
  · rename_i at' hat
    refine .guardNot fun hrunning ↦ ?_
    simp only
    split
    · rename_i hmay
      have hinv : ((s.settleAttempt n).deleteController n).Inv :=
        (h.settleAttempt n).deleteController n
      have hfree := not_claims_of_mayReconnect h hat (by simpa using hrunning) hmay
      have hagents : ((s.settleAttempt n).deleteController n).agents = s.agents := by
        rw [AgentSlot.deleteController]
        split <;> rfl
      split
      · refine .of_some ?_
        refine inv_retry (inv_abortAgentVersionMismatch ?_) at' late expired
        simp only [slot, toAgentSlot_updateSessionStatus]
        rw [← hagents]
        exact hinv.wireDiscard _
      · refine .of_some ?_
        simp only [slot, toAgentSlot_updateSessionStatus]
        rw [← hagents]
        exact hinv.wireAdopt hfree _
    · exact .of_some (h.settleAttempt n)
  · exact .of_none

theorem inv_attemptFailed {late expired : Bool} :
    Ensures (fun t ↦ t.Inv) (s.step (.attemptFailed n late expired)) := by
  rw [step]
  split
  · refine .guardNot fun _ ↦ ?_
    simp only
    split
    · exact .of_some ((h.settleAttempt n).deleteController n)
    · refine .of_some ?_
      exact inv_retry (s := s.slot fun u ↦ (u.settleAttempt n).deleteController n)
        ((h.settleAttempt n).deleteController n) _ late expired
  · exact .of_none

/-- The daemon attach goes on, or ends. -/
theorem inv_attachReady :
    Ensures (fun t ↦ t.Inv) (s.step .attachReady) := by
  rw [step]
  split
  · rename_i i a hattach
    refine .of_some ?_
    rw [toAgentSlot_updateSessionStatus]
    exact h.adoptDaemon hattach
  · exact .of_none

theorem inv_attachFailed :
    Ensures (fun t ↦ t.Inv) (s.step .attachFailed) := by
  rw [step]
  split
  · rename_i i hattach
    refine .of_some ?_
    refine h.endAttach (.inr rfl) fun i' a ha ↦ ?_
    rw [hattach] at ha
    cases ha
  · rename_i i a hattach
    refine .of_some ?_
    refine (h.discard a).endAttach (.inr rfl) fun i' b hb ↦ ?_
    rw [AgentSlot.attach_discard, hattach] at hb
    cases hb
    exact AgentSlot.connected_discard
  · exact .of_none

theorem inv_attachFinally :
    Ensures (fun t ↦ t.Inv) (s.step .attachFinally) := by
  rw [step]
  split
  · rename_i hattach
    refine .of_some ?_
    refine h.endAttach (.inl rfl) fun i a ha ↦ ?_
    rw [hattach] at ha
    cases ha
  · exact .of_none

/-- **One careful step** keeps the invariant. -/
theorem step_inv (hcareful : Careful s e s') :
    Ensures (fun t ↦ t.Inv) (s.step e) := by
  cases e with
  | setHost host => exact .of_some h
  | spawn clientId =>
    rw [step]
    split
    · exact .of_some h
    · rename_i kind hhost
      split
      · rename_i hlead
        refine .of_some ?_
        refine inv_acquireOrJoin h (fun hmap ↦ hcareful .acquisition ?_) clientId
        rw [starts, if_pos ⟨hlead.2 ▸ hhost, hlead.1, hmap⟩]
        rfl
      · refine .of_some ?_
        rw [toAgentSlot_getOrCreateSession]
        exact h
  | release l hasChannels =>
    rw [step]
    refine .guard fun _ ↦ .of_some ?_
    obtain ⟨hcoherent, hwithdraws⟩ :=
      h.coherent.withdraws_release (P := fun _ ↦ True) l hasChannels
    exact h.withAcquisitions hcoherent hwithdraws
  | leaderConnected n alive mismatch => exact inv_leaderConnected h
  | leaderFailed n =>
    rw [step]
    split
    · rename_i i l hn
      refine .of_some ?_
      refine inv_failLeader h fun i' l' a hn' ↦ ?_
      rw [hn] at hn'
      cases hn'
    · exact .of_none
  | leaderSettles n => exact inv_leaderSettles h
  | timerFires t => exact inv_timerFires h hcareful
  | restart => exact inv_restart h hcareful
  | attemptConnected n alive mismatch late expired => exact inv_attemptConnected h
  | attemptFailed n late expired => exact inv_attemptFailed h
  | connectDaemon i =>
    refine .of_some ?_
    refine inv_attachDaemon h fun hconnected hnone ↦ hcareful .attach ?_
    rw [starts, if_pos ⟨hconnected, hnone⟩]
    rfl
  | attachConnected alive =>
    rw [step]
    split
    · rename_i i hattach
      exact .of_some (h.wireDaemon hattach _)
    · exact .of_none
  | attachReady => exact inv_attachReady h
  | attachFailed => exact inv_attachFailed h
  | attachFinally => exact inv_attachFinally h
  | lost a =>
    rw [step]
    exact .guard fun _ ↦ .of_some (h.closeAgent a)
  | closed a crashLoop =>
    rw [step]
    split
    · rename_i g hg
      refine .guardNot fun hdead ↦ ?_
      split
      · rename_i ha
        refine .of_some ?_
        refine inv_onClose h ha (by simpa using hdead) fun hsession hattach hdaemon ↦
          hcareful .attach ?_
        rw [starts, hg]
        simp only
        rw [if_pos ⟨ha, hsession, hattach, hdaemon⟩]
        rfl
      · exact .of_some h
    · exact .of_none
  | error a =>
    rw [step]
    refine .guard fun _ ↦ .of_some ?_
    split
    · exact h.closeAgent a
    · exact h
  | helloMismatch a =>
    rintro _ hmap
    obtain ⟨g, -, rfl⟩ := Option.map_eq_some_iff.mp hmap
    exact inv_abortAgentVersionMismatch (h.discard a)
  | closeSession i =>
    rw [step]
    split
    · refine .of_some ?_
      refine inv_lifecycleCloseSession (s := s.slot fun u ↦
        { u.closeCurrent with acquisitions := u.acquisitions.close u.hostId }) ?_
      obtain ⟨hcoherent, hwithdraws⟩ := h.coherent.withdraws_close (P := fun _ ↦ True) s.hostId
      refine h.closeCurrent.withAcquisitions hcoherent ?_
      rw [AgentSlot.acquisitions_closeCurrent]
      exact hwithdraws
    · exact .of_some h
  | giveUp i => exact .of_some (inv_lifecycleCloseSession h)
  | clientGone i =>
    rw [step]
    split
    · refine .of_some ?_
      simp only [deleteSession, toAgentSlot_updateSessionStatus]
      exact h.closeCurrent
    · exact .of_some h

end

/-! ## What is adopted -/

/-- The agent of the host stays, or is deleted. -/
def Keeps (s s' : AgentSlot) : Prop := ∀ a, s'.agent = some a → s.agent = some a

theorem Keeps.of_eq {t t' : AgentSlot} (h : t'.agent = t.agent) : Keeps t t' := fun _ ha ↦ h ▸ ha

theorem keeps_closeCurrent : Keeps t t.closeCurrent := by
  rw [AgentSlot.closeCurrent.eq_def]
  split
  · exact .of_eq rfl
  · exact fun _ ha ↦ by cases ha

theorem keeps_discard (a : ℕ) : Keeps t (t.discard a) := by
  rw [AgentSlot.discard]
  split
  · exact fun _ ha ↦ by cases ha
  · exact .of_eq rfl

theorem agent_abortController : t.abortController.agent = t.agent := by
  rw [AgentSlot.abortController.eq_def]
  split <;> rfl

theorem agent_lifecycleCloseSession : (s.lifecycleCloseSession sessionId).agent = s.agent := by
  rw [toAgentSlot_lifecycleCloseSession, agent_abortController]

theorem agent_retry (at' : Attempt) (late expired : Bool) :
    (s.retry at' late expired).agent = s.agent := by
  rw [retry, scheduleReconnect]
  repeat' split
  all_goals first | rfl | exact agent_lifecycleCloseSession

theorem agent_failLeader : (s.failLeader n sessionId lease).agent = s.agent := by
  rw [failLeader]
  split
  · simp only [slot, deleteSession, toAgentSlot_updateSessionStatus]
    rfl
  · rfl

theorem agent_acquireOrJoin (clientId : String) : (s.acquireOrJoin clientId).agent = s.agent := by
  have hleader (i : ℕ) : ((s.getOrCreateSession true).1.slot fun u ↦ u.lead clientId i).agent =
      s.agent := by
    simp only [slot, AgentSlot.lead, toAgentSlot_getOrCreateSession]
  rw [acquireOrJoin.eq_def]
  simp only
  split
  · exact hleader _
  · split
    · rfl
    · exact hleader _

theorem keeps_attachDaemon : Keeps t (t.attachDaemon sessionId) := by
  rw [AgentSlot.attachDaemon, AgentSlot.joinAttach]
  repeat' split
  · exact .of_eq rfl
  · exact keeps_closeCurrent t
  · exact keeps_closeCurrent t

theorem keeps_abortAgentVersionMismatch :
    Keeps s.toAgentSlot (s.abortAgentVersionMismatch a sessionId).toAgentSlot := by
  intro b hb
  rw [abortAgentVersionMismatch, agent_lifecycleCloseSession] at hb
  exact keeps_discard s.toAgentSlot a b hb

theorem keeps_onClose (g : WiredAgent) (crashLoop : Bool) :
    Keeps s.toAgentSlot (s.onClose g crashLoop).toAgentSlot := by
  have hdelete : Keeps s.toAgentSlot s.deleteAgent := fun _ ha ↦ by cases ha
  rw [onClose.eq_def]
  simp only
  split
  · exact hdelete
  · split
    · intro a ha
      simp only [slot, toAgentSlot_updateSessionStatus] at ha
      exact hdelete a (keeps_attachDaemon _ a ha)
    · split
      · intro a ha
        rw [scheduleReconnect, if_neg Bool.false_ne_true, toAgentSlot_updateSessionStatus] at ha
        exact hdelete a ha
      · split
        · intro a ha
          rw [agent_lifecycleCloseSession] at ha
          exact hdelete a ha
        · exact fun a ha ↦ hdelete a (keeps_attachDaemon _ a ha)

/-- **A step adopts an agent** only where another path than the agent that is there has a claim. -/
theorem keeps_or_claims (s : HostConnections) (e : ConnectionEvent) :
    Ensures (fun t ↦ Keeps s.toAgentSlot t.toAgentSlot ∨ ∃ c, c ≠ .agent ∧ s.Claims c)
      (s.step e) := by
  cases e with
  | setHost host => exact .of_some (.inl (.of_eq rfl))
  | spawn clientId =>
    rw [step]
    split
    · exact .of_some (.inl (.of_eq rfl))
    · split
      · exact .of_some (.inl (.of_eq (agent_acquireOrJoin clientId)))
      · exact .of_some (.inl (.of_eq (by rw [toAgentSlot_getOrCreateSession])))
  | release l hasChannels =>
    rw [step]
    exact .guard fun _ ↦ .of_some (.inl (.of_eq rfl))
  | leaderConnected n alive mismatch =>
    rw [step]
    split
    · split
      · exact .of_some (.inl (.of_eq agent_failLeader))
      · simp only
        split
        · refine .of_some (.inl ?_)
          intro a ha
          rw [agent_failLeader] at ha
          have ha := keeps_abortAgentVersionMismatch a ha
          simp only [slot, toAgentSlot_updateSessionStatus] at ha
          exact ha
        · exact .of_some (.inl (.of_eq (by simp only [slot, toAgentSlot_updateSessionStatus]; rfl)))
    · exact .of_none
  | leaderFailed n =>
    rw [step]
    split
    · exact .of_some (.inl (.of_eq agent_failLeader))
    · exact .of_none
  | leaderSettles n =>
    rw [step]
    split
    · split
      · rename_i hguard
        refine .of_some (.inr ⟨.acquisition, Claimant.noConfusion, ?_⟩)
        rw [AgentSlot.Claims, hguard.1]
        exact Option.some_ne_none n
      · refine .of_some (.inl (.of_eq ?_))
        split <;> rfl
    · exact .of_none
  | timerFires t =>
    rw [step]
    split
    · simp only
      split
      · split
        · exact .of_some (.inl (.of_eq agent_lifecycleCloseSession))
        · exact .of_some (.inl (.of_eq (agent_abortController _)))
      · exact .of_some (.inl (.of_eq rfl))
    · exact .of_none
  | restart =>
    rw [step]
    split
    · split
      · exact .of_some (.inl (.of_eq (agent_abortController _)))
      · exact .of_some (.inl (.of_eq rfl))
    · exact .of_some (.inl (.of_eq rfl))
  | attemptConnected n alive mismatch late expired =>
    rw [step]
    split
    · rename_i at' hat
      refine .guardNot fun hrunning ↦ ?_
      simp only
      split
      · rename_i hmay
        exact fun _ _ ↦ .inr ⟨.attempt, Claimant.noConfusion, n, hmay.2.1, at',
          hat, by simpa using hrunning⟩
      · exact .of_some (.inl (.of_eq rfl))
    · exact .of_none
  | attemptFailed n late expired =>
    have hagent (t : AgentSlot) : ((t.settleAttempt n).deleteController n).agent = t.agent := by
      rw [AgentSlot.deleteController]
      split <;> rfl
    rw [step]
    split
    · refine .guardNot fun _ ↦ ?_
      simp only
      split
      · exact .of_some (.inl (.of_eq (hagent _)))
      · exact .of_some (.inl (.of_eq ((agent_retry ..).trans (hagent _))))
    · exact .of_none
  | connectDaemon i => exact .of_some (.inl (keeps_attachDaemon _))
  | attachConnected alive =>
    rw [step]
    split
    · exact .of_some (.inl (.of_eq rfl))
    · exact .of_none
  | attachReady =>
    rw [step]
    split
    · rename_i hattach
      refine .of_some (.inr ⟨.attach, Claimant.noConfusion, ?_⟩)
      rw [AgentSlot.Claims, hattach]
      simp
    · exact .of_none
  | attachFailed =>
    rw [step]
    split
    · exact .of_some (.inl (.of_eq rfl))
    · exact .of_some (.inl (keeps_discard _ _))
    · exact .of_none
  | attachFinally =>
    rw [step]
    split
    · exact .of_some (.inl (.of_eq rfl))
    · exact .of_none
  | lost a =>
    rw [step]
    exact .guard fun _ ↦ .of_some (.inl (.of_eq rfl))
  | closed a crashLoop =>
    rw [step]
    split
    · refine .guardNot fun _ ↦ ?_
      split
      · exact .of_some (.inl (keeps_onClose _ crashLoop))
      · exact .of_some (.inl (.of_eq rfl))
    · exact .of_none
  | error a =>
    rw [step]
    refine .guard fun _ ↦ ?_
    refine .of_some (.inl ?_)
    split
    · exact .of_eq rfl
    · exact .of_eq rfl
  | helloMismatch a =>
    rintro _ hmap
    obtain ⟨g, -, rfl⟩ := Option.map_eq_some_iff.mp hmap
    exact .inl keeps_abortAgentVersionMismatch
  | closeSession i =>
    rw [step]
    split
    · refine .of_some (.inl ?_)
      intro a ha
      rw [agent_lifecycleCloseSession] at ha
      exact keeps_closeCurrent _ a ha
    · exact .of_some (.inl (.of_eq rfl))
  | giveUp i => exact .of_some (.inl (.of_eq agent_lifecycleCloseSession))
  | clientGone i =>
    rw [step]
    split
    · refine .of_some (.inl ?_)
      intro a ha
      simp only [deleteSession, toAgentSlot_updateSessionStatus] at ha
      exact keeps_closeCurrent _ a ha
    · exact .of_some (.inl (.of_eq rfl))

/-! ## One agent -/

/-- Whoever takes the place of an agent finds it not connected. After the step no two agents are
connected, and one that is connected is in `ctx.agents`, or has just been wired by a leader or an
attach that will adopt or close it. -/
structure OneAgent (s s' : HostConnections) : Prop where
  replaces : ∀ a b, s'.agent = some a → s.agent = some b → a ≠ b → s.connected b = false
  unique : ∀ a b, s'.connected a = true → s'.connected b = true → a = b
  holds : ∀ a, s'.connected a = true → s'.Holds a

theorem oneAgent_step (h : s.Inv) (hcareful : Careful s e s') (hstep : s.step e = some s') :
    s'.Inv ∧ OneAgent s s' := by
  have h' : s'.Inv := step_inv h hcareful hstep
  refine ⟨h', fun a b ha hb hne ↦ ?_, fun a b ↦ h'.unique, h'.holds⟩
  rcases keeps_or_claims s e hstep with hkeeps | ⟨c, hc, hclaims⟩
  · exact absurd (Option.some.inj ((hkeeps a ha).symm.trans hb)) hne
  · by_contra hconnected
    have hagent : s.Claims .agent := by
      rw [AgentSlot.Claims, AgentSlot.agentConnected, hb]
      simpa using hconnected
    exact hc (h.exclusive .agent hagent c hclaims)

/-- **One agent for each host**: as long as every step of a run is careful, an agent is only
replaced when it is not connected, and no other agent of the host is connected. -/
theorem oneAgent_of_careful (hostId : String) (host : Option HostKind) (restored : Bool)
    {es : List ConnectionEvent} (hcareful : Along step Careful (start hostId host restored) es) :
    Along step (fun s _ s' ↦ OneAgent s s') (start hostId host restored) es :=
  along_of_invariant (fun s ↦ s.Inv)
    (fun s e s' h hc (hstep : step s e = some s') ↦ oneAgent_step h hc hstep)
    (AgentSlot.inv_new hostId)
    hcareful

/-- A SPAWN connects to a host, the connection is lost, and the timer connects to it again. -/
def reconnected : List ConnectionEvent :=
  [.spawn "c", .leaderConnected 0 true false, .leaderSettles 0, .lost 0, .closed 0 false,
    .timerFires 0, .attemptConnected 0 true false false false]

theorem oneAgent_of_careful_reconnected :
    Along step (fun s _ s' ↦ OneAgent s s') (start "web" (some .ssh) false) reconnected :=
  oneAgent_of_careful "web" (some .ssh) false (by decide)

/-- A SPAWN connects while the timer of a lost connection connects, too. -/
def twice : List ConnectionEvent :=
  [.spawn "c", .leaderConnected 0 true false, .leaderSettles 0, .lost 0, .closed 0 false,
    .spawn "c", .timerFires 0, .leaderConnected 1 true false, .leaderSettles 1]

/-- The attempt then takes the place of the agent that the SPAWN has connected, and both stay
connected. -/
theorem reconnect_displaces :
    ∃ s s', run step (start "web" (some .ssh) false) twice = some s ∧
      s.step (.attemptConnected 0 true false false false) = some s' ∧ ¬ OneAgent s s' := by
  refine ⟨_, _, rfl, rfl, fun h ↦ ?_⟩
  have hdead := h.replaces 2 1 rfl rfl (by decide)
  cases hdead

end HostConnections

end Lasterm.Hub
