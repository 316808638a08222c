import Lasterm.Hub.Tracking

/-!
# Closing a session that is not current

`lifecycle.closeSession` gets the id of a session, and goes by its host. Most callers look first
whether the session is the current one of the host. The `catch` of a daemon reconnect, of a warm
restart, and a HELLO of another version do not: they come late, when the host may have another
session.

Where it has one, the close takes it (`taken_lifecycleClose`): the entry, every channel of the host,
the reconnect timer and the controller. So the newer session is never spared
(`spares_lifecycleClose_iff`).
-/

namespace Lasterm.Hub

namespace SessionHub

open Runs SharedSessionContext

variable {db : Database} {h h' : SessionHub db} {i : ℕ} {hostId : String}

/-- From `h` to `h'` the current session of a host is left alone, with its channels, the reconnect
timer of the host, and its controller. -/
structure Spares (h h' : SessionHub db) (hostId : String) : Prop where
  entry : h'.ctx.sessions.get hostId = h.ctx.sessions.get hostId
  /-- The object and the row. -/
  session : ∀ j, h.ctx.sessions.get hostId = some j →
    h'.ctx.sessionStates[j]? = h.ctx.sessionStates[j]?
  channel : ∀ c ch, h.ctx.channels.get c = some ch →
    h.ctx.sessions.get hostId = some ch.sessionId → h'.ctx.channels.get c = some ch
  row : ∀ c row, h.ctx.channelRows.get c = some row →
    h.ctx.sessions.get hostId = some row.sessionId → h'.ctx.channelRows.get c = some row
  tracking : ∀ c ch, h.ctx.channels.get c = some ch →
    h.ctx.sessions.get hostId = some ch.sessionId →
      (c ∈ h'.ctx.scheduler ↔ c ∈ h.ctx.scheduler) ∧ (c ∈ h'.ctx.chunker ↔ c ∈ h.ctx.chunker)
  timer : h'.reconnectTimers.get hostId = h.reconnectTimers.get hostId ∧
    ∀ t ∈ h.reconnectTimers.get hostId, h'.timers[t]? = h.timers[t]?
  controller : h'.reconnectAbortControllers.get hostId = h.reconnectAbortControllers.get hostId ∧
    ∀ n ∈ h.reconnectAbortControllers.get hostId, h'.attempts[n]? = h.attempts[n]?

/-- From `h` to `h'` a host loses all that it has in memory, whosever session it is. -/
structure Taken (h h' : SessionHub db) (hostId : String) : Prop where
  entry : h'.ctx.sessions.get hostId = none
  /-- The channels that were alive are dead, and untracked. -/
  channel : ∀ c ch, h.ctx.channels.get c = some ch → ch.hostId = hostId → ch.status ≠ .dead →
    h'.ctx.channels.get c = some { ch with status := .dead } ∧ h'.ctx.Untracked c
  timer : h'.reconnectTimers.get hostId = none ∧
    ∀ t ∈ h.reconnectTimers.get hostId, ∀ x ∈ h'.timers[t]?, x.pending = false
  controller : h'.reconnectAbortControllers.get hostId = none ∧
    ∀ n ∈ h.reconnectAbortControllers.get hostId, h'.attempts[n]? ≠ some false

section

variable (hhost : h.ctx.sessionHost i = some hostId)
include hhost

theorem lifecycleClose_eq :
    h.lifecycleClose i = (h.clearReconnect hostId).act (.closeSession i) := by
  rw [lifecycleClose, hhost]

theorem ctx_lifecycleClose : (h.lifecycleClose i).ctx =
      ((h.ctx.killChannels hostId).updateSessionStatus i .closed).deleteSession hostId := by
  obtain ⟨session, hsession, rfl⟩ := Option.map_eq_some_iff.mp hhost
  rw [lifecycleClose_eq hhost]
  change h.ctx.closeSession i = _
  rw [SharedSessionContext.closeSession, hsession]

/-- **What a close does**, whether or not the session is the current one of its host. -/
theorem taken_lifecycleClose :
    Taken h (h.lifecycleClose i) hostId where
  entry := by
    rw [ctx_lifecycleClose hhost]
    exact OrderedMap.get_delete_self _ _
  channel c ch hch hhostId halive := by
    rw [ctx_lifecycleClose hhost]
    have hdying : ¬ ∀ ch', h.ctx.channels.get c = some ch' →
        ¬ (ch'.hostId = hostId ∧ ch'.status ≠ .dead) := fun h' ↦ h' ch hch ⟨hhostId, halive⟩
    refine ⟨?_, fun htracked ↦ ?_, fun htracked ↦ ?_⟩
    · change (h.ctx.killChannels hostId).channels.get c = _
      rw [get_killChannels, hch, Option.map_some, if_pos ⟨hhostId, halive⟩]
    · exact hdying ((mem_killChannels hostId).1.mp htracked).2
    · exact hdying ((mem_killChannels hostId).2.mp htracked).2
  -- `clearReconnect` goes by the host, too.
  timer := by
    rw [lifecycleClose_eq hhost]
    refine ⟨OrderedMap.get_delete_self _ _, fun t ht x hx ↦ ?_⟩
    change x ∈ ((h.reconnectTimers.get hostId).elim h.timers fun t ↦
      h.timers.modify t fun x ↦ { x with pending := false })[t]? at hx
    rw [Option.mem_def.mp ht, Option.elim_some, Option.mem_def, List.getElem?_modify_eq] at hx
    obtain ⟨x, -, rfl⟩ := Option.map_eq_some_iff.mp hx
    rfl
  controller := by
    rw [lifecycleClose_eq hhost]
    refine ⟨OrderedMap.get_delete_self _ _, fun n hn ↦ ?_⟩
    change ((h.reconnectAbortControllers.get hostId).elim h.attempts fun n ↦
      h.attempts.set n true)[n]? ≠ some false
    rw [Option.mem_def.mp hn, Option.elim_some, List.getElem?_set_self']
    simp

end

/-- **A newer session is never spared**: the close of a session leaves the host alone exactly if
there is nothing to take, that is, no current session, no timer and no controller. -/
theorem spares_lifecycleClose_iff (h : SessionHub db) (i : ℕ) (hostId : String)
    (hhost : h.ctx.sessionHost i = some hostId) :
    Spares h (h.lifecycleClose i) hostId ↔ h.ctx.sessions.get hostId = none ∧
      h.reconnectTimers.get hostId = none ∧ h.reconnectAbortControllers.get hostId = none := by
  have htaken := taken_lifecycleClose hhost
  constructor
  · intro hspares
    exact ⟨hspares.entry.symm.trans htaken.entry, hspares.timer.1.symm.trans htaken.timer.1,
      hspares.controller.1.symm.trans htaken.controller.1⟩
  · rintro ⟨hnone, htimer, hcontroller⟩
    refine ⟨htaken.entry.trans hnone.symm, ?_, ?_, ?_, ?_, ⟨htaken.timer.1.trans htimer.symm, ?_⟩,
      htaken.controller.1.trans hcontroller.symm, ?_⟩
    · simp [hnone]
    · simp [hnone]
    · simp [hnone]
    · simp [hnone]
    · simp [htimer]
    · simp [hcontroller]

/-- The agent of a session is lost, the session is closed while the reconnect is in flight, and a
SPAWN opens another one. Then the attach that both wait for fails. -/
def reopened : List Event :=
  spawning ++ [.resume 0 (.spawnOk "c"), .resume 0 .settled, .resume 1 .settled, .lost 0,
    .closed 0 false, .closeSession 0, .spawn 0 "desk" false false, .resume 4 .settled,
    .resume 4 .settled, .resume 2 (.failed false)]

/-- In the state reached the close of the old session takes the new one. -/
theorem spares_lifecycleClose_reopened :
    ∃ h, run step (start (.ofHost "desk" .daemon)) reopened = some h ∧
      ¬ Spares h (h.lifecycleClose 0) "desk" :=
  ⟨_, rfl, fun hspares ↦ nomatch ((spares_lifecycleClose_iff _ 0 "desk" rfl).mp hspares).1⟩

/-- The reconnect of the old session goes on, and the new session is gone. -/
theorem late_reconnect_takes_newer_session :
    ∃ h h', run step (start (.ofHost "desk" .daemon)) reopened = some h ∧
      h.ctx.sessions.get "desk" = some 1 ∧ h.tasks[3]? = some (some (.reconnectAwaits 1 0)) ∧
      h.step (.resume 3 .settled) = some h' ∧ h'.ctx.sessions.get "desk" = none ∧
      ¬ Spares h h' "desk" := by
  refine ⟨_, _, rfl, rfl, rfl, rfl, rfl, fun hspares ↦ ?_⟩
  cases hspares.entry

end SessionHub

end Lasterm.Hub
