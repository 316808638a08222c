import Lasterm.Hub.SessionManager

/-!
# Nothing is revived behind `beginQuit`

`session/quit-fence.ts` has one capability, the fence: it is captured where an operation begins, and
checked again where the operation commits. A hub that is quitting gives out no fence and accepts
none, so that the pieces of code that send SPAWN, adopt an agent, create a session or set a channel
to live do nothing. What else a quitting hub does is `Quiet`, and every step of a quitting hub is
(`step_quiet`).
-/

namespace Lasterm.Hub

open Runs

namespace SharedSessionContext

variable {s s' s'' : SharedSessionContext} {c : ChannelId} {hostId : String}
  {status : ChannelStatus} (i : ℕ)

/-- From `s` to `s'` no agent and no session was added, and no channel became live. -/
structure Quiet (s s' : SharedSessionContext) : Prop where
  quitting : s'.quitting = s.quitting
  agents : ∀ hostId a, s'.agents.get hostId = some a → s.agents.get hostId = some a
  created : s'.sessionStates.length = s.sessionStates.length
  sessions : ∀ hostId i, s'.sessions.get hostId = some i → s.sessions.get hostId = some i
  channels : ∀ c, (s'.channels.get c).map ChannelState.status = some .live →
    (s.channels.get c).map ChannelState.status = some .live
  channelRows : ∀ c, (s'.channelRows.get c).map ChannelRow.status = some .live →
    (s.channelRows.get c).map ChannelRow.status = some .live

theorem Quiet.refl : Quiet s s :=
  ⟨rfl, fun _ _ ↦ id, rfl, fun _ _ ↦ id, fun _ ↦ id, fun _ ↦ id⟩

theorem Quiet.trans (h : Quiet s s') (h' : Quiet s' s'') : Quiet s s'' where
  quitting := h'.quitting.trans h.quitting
  agents hostId a ha := h.agents hostId a (h'.agents hostId a ha)
  created := h'.created.trans h.created
  sessions hostId i hi := h.sessions hostId i (h'.sessions hostId i hi)
  channels c hc := h.channels c (h'.channels c hc)
  channelRows c hc := h.channelRows c (h'.channelRows c hc)

theorem Quiet.of_same (hquitting : s'.quitting = s.quitting) (hagents : s'.agents = s.agents)
    (hcreated : s'.sessionStates.length = s.sessionStates.length)
    (hsessions : s'.sessions = s.sessions)
    (hchannels : s'.channels = s.channels) (hrows : s'.channelRows = s.channelRows) :
    Quiet s s' where
  quitting := hquitting
  agents _ _ ha := hagents ▸ ha
  created := hcreated
  sessions _ _ hi := hsessions ▸ hi
  channels _ hc := hchannels ▸ hc
  channelRows _ hc := hrows ▸ hc

theorem quiet_deleteAgent (hostId : String) : Quiet s (s.deleteAgent hostId) := by
  refine ⟨rfl, fun hostId' a ha ↦ ?_, rfl, fun _ _ ↦ id, fun _ ↦ id, fun _ ↦ id⟩
  rw [deleteAgent, OrderedMap.get_delete] at ha
  split at ha
  · cases ha
  · exact ha

theorem quiet_deleteSession (hostId : String) : Quiet s (s.deleteSession hostId) := by
  refine ⟨rfl, fun _ _ ↦ id, rfl, fun hostId' i hi ↦ ?_, fun _ ↦ id, fun _ ↦ id⟩
  rw [deleteSession, OrderedMap.get_delete] at hi
  split at hi
  · cases hi
  · exact hi

theorem quiet_deleteChannel (c : ChannelId) : Quiet s (s.deleteChannel c) := by
  refine ⟨rfl, fun _ _ ↦ id, rfl, fun _ _ ↦ id, fun c' hc ↦ ?_, fun _ ↦ id⟩
  rw [deleteChannel, OrderedMap.get_delete] at hc
  split at hc
  · cases hc
  · exact hc

theorem quiet_updateSessionStatus (status : SessionStatus) :
    Quiet s (s.updateSessionStatus i status) :=
  .of_same rfl rfl (List.length_modify ..) rfl rfl rfl

/-- A status that is written to a row, and is not live. -/
theorem status_modify_ne_live {rows : OrderedMap ChannelId ChannelRow}
    (hstatus : status ≠ .live) {c c' : ChannelId}
    (h : ((rows.modify c fun row ↦ { row with status := status }).get c').map ChannelRow.status =
      some .live) : (rows.get c').map ChannelRow.status = some .live := by
  rw [OrderedMap.get_modify] at h
  split at h
  · rcases hrow : rows.get c' with _ | row
    · rw [hrow] at h
      exact h
    · rw [hrow] at h
      exact absurd (Option.some.inj h) hstatus
  · exact h

theorem quiet_updateRow (c : ChannelId) {status : ChannelStatus} (hstatus : status ≠ .live) :
    Quiet s (s.updateRow c status) :=
  ⟨rfl, fun _ _ ↦ id, rfl, fun _ _ ↦ id, fun _ ↦ id, fun _ ↦ status_modify_ne_live hstatus⟩

theorem quiet_updateChannelStatus (c : ChannelId) {status : ChannelStatus}
    (hstatus : status ≠ .live) :
    Quiet s (s.updateChannelStatus c status) := by
  refine ⟨rfl, fun _ _ ↦ id, rfl, fun _ _ ↦ id, fun c' hc ↦ ?_,
    fun _ ↦ status_modify_ne_live hstatus⟩
  rw [updateChannelStatus, OrderedMap.get_modify] at hc
  split at hc
  · rcases hch : s.channels.get c' with _ | ch
    · rw [hch] at hc
      exact hc
    · rw [hch] at hc
      exact absurd (Option.some.inj hc) hstatus
  · exact hc

theorem quiet_setStatuses {f : ChannelId → ChannelState → ChannelStatus}
    (hf : ∀ c ch, f c ch = .live → ch.status = .live) : Quiet s (s.setStatuses f) := by
  refine ⟨rfl, fun _ _ ↦ id, rfl, fun _ _ ↦ id, fun c hc ↦ ?_, fun c hc ↦ ?_⟩
  · rw [setStatuses, OrderedMap.get_mapValues] at hc
    rcases hch : s.channels.get c with _ | ch
    · rw [hch] at hc
      exact hc
    · rw [hch] at hc
      exact congrArg some (hf c ch (Option.some.inj hc))
  · rw [setStatuses, OrderedMap.get_mapValues] at hc
    rcases hrow : s.channelRows.get c with _ | row
    · rw [hrow] at hc
      exact hc
    · rw [hrow] at hc
      have hlive := Option.some.inj hc
      rcases hch : s.channels.get c with _ | ch
      · rw [hch] at hlive
        exact congrArg some hlive
      · rw [hch] at hlive
        dsimp only at hlive
        split at hlive
        · exact congrArg some hlive
        · rename_i hne
          exact absurd (hlive.trans (hf c ch hlive).symm) hne

theorem quiet_checkSessionDetached (hostId : String) : Quiet s (s.checkSessionDetached hostId) :=
  checkSessionDetached_rule .refl fun i ↦ quiet_updateSessionStatus i .detached

theorem quiet_leaveChannel (k : ℕ) (c : ChannelId) (ch : ChannelState) :
    Quiet s (s.leaveChannel k c ch) := by
  have hset : Quiet s (s.modifySet ch.clients fun set ↦ set.delete k) :=
    .of_same rfl rfl rfl rfl rfl rfl
  rw [leaveChannel]
  split
  · exact hset.trans
      ((quiet_updateChannelStatus c (by decide)).trans (quiet_checkSessionDetached _))
  · exact hset

theorem quiet_detachClient (k : ℕ) (c : ChannelId) : Quiet s (s.detachClient k c) :=
  detachClient_rule .refl (fun ch _ ↦ quiet_leaveChannel k c ch) fun _ _ ht ↦
    ht.trans (.of_same rfl rfl rfl rfl rfl rfl)

theorem quiet_removeClient (k : ℕ) : Quiet s (s.removeClient k) :=
  removeClient_rule .refl (fun _ c ht ↦ ht.trans (quiet_detachClient k c)) fun _ _ ht ↦
    ht.trans (.of_same rfl rfl rfl rfl rfl rfl)

/-- A channel that is dead, and goes: `t` is the state between the two. -/
theorem quiet_bury_channel {t : SharedSessionContext} (c : ChannelId)
    (h : Quiet (s.updateChannelStatus c .dead) t) : Quiet s (t.deleteChannel c) :=
  (quiet_updateChannelStatus c (by decide)).trans (h.trans (quiet_deleteChannel c))

theorem quiet_retireChannel (c : ChannelId) : Quiet s (s.retireChannel c) :=
  quiet_bury_channel c (.of_same rfl rfl rfl rfl rfl rfl)

theorem quiet_destroyChannel (c : ChannelId) : Quiet s (s.destroyChannel c) := by
  rw [destroyChannel]
  split
  · exact .refl
  · exact quiet_bury_channel c (.of_same rfl rfl rfl rfl rfl rfl)

theorem quiet_killChannels (hostId : String) : Quiet s (s.killChannels hostId) := by
  refine killChannels_rule (quiet_setStatuses fun c ch hlive ↦ ?_) fun _ _ ht ↦
    ht.trans (.of_same rfl rfl rfl rfl rfl rfl)
  split at hlive
  · cases hlive
  · exact hlive

theorem quiet_closeSession : Quiet s (s.closeSession i) := by
  rw [closeSession]
  split
  · exact .refl
  · exact (quiet_killChannels _).trans
      ((quiet_updateSessionStatus i .closed).trans (quiet_deleteSession _))

theorem quiet_bury (alive : List ChannelId) : Quiet s (s.bury alive) :=
  bury_rule .refl fun _ c ht ↦ ht.trans (quiet_updateChannelStatus c (by decide))

theorem quiet_agentClosed (hostId : String) (disconnects : Bool) :
    Quiet s (s.agentClosed hostId disconnects) := by
  rw [agentClosed]
  split
  · exact quiet_deleteAgent hostId
  · split
    · exact (quiet_deleteAgent hostId).trans (quiet_updateSessionStatus _ _)
    · exact quiet_deleteAgent hostId

theorem quiet_connectFailed : Quiet s (s.connectFailed i) := by
  rw [connectFailed]
  split
  · exact .refl
  · split
    · exact (quiet_updateSessionStatus i .closed).trans (quiet_deleteSession _)
    · exact .refl

theorem quiet_dropSession : Quiet s (s.dropSession i) := by
  rw [dropSession]
  split
  · exact .refl
  · split
    · exact quiet_deleteSession _
    · exact .refl

theorem quiet_abandonSession : Quiet s (s.abandonSession i) := by
  rw [abandonSession]
  split
  · exact .refl
  · rename_i hostId hhost
    split
    · rcases s.agents.get hostId with _ | a
      · exact (quiet_updateSessionStatus i .closed).trans (quiet_deleteSession hostId)
      · have hclosed : Quiet s (s.closeAgent a) := .of_same rfl rfl rfl rfl rfl rfl
        exact (hclosed.trans (quiet_deleteAgent hostId)).trans
          ((quiet_updateSessionStatus i .closed).trans (quiet_deleteSession hostId))
    · exact .refl

/-- The actions that a quitting hub may take. -/
def Quieting : ContextAction → Prop
  | .handleAttach _ _ | .spawned _ _ _ _ | .respawned _ _ _ | .applyRestartState _ _ _ _ _
  | .hostSpawned _ _ _ | .createSession _ | .adoptAgent _ _ | .daemonReady _ _ _
  | .restoreHost _ _ => False
  | _ => True

theorem Quiet.apply {a : ContextAction} (ha : Quieting a) (hq : s.quitting = true) :
    Quiet s (s.apply a) := by
  cases a with
  | setHost hostId kind => exact .of_same rfl rfl rfl rfl rfl rfl
  | serve => exact .of_same rfl rfl rfl rfl rfl rfl
  | beginQuit =>
    rw [SharedSessionContext.apply, if_pos hq]
    exact .refl
  | addClient =>
    rw [SharedSessionContext.apply]
    split
    · exact .of_same rfl rfl rfl rfl rfl rfl
    · exact .refl
  | removeClient k => exact quiet_removeClient k
  | detachClient k c => exact quiet_detachClient k c
  | attachRejected k c n => exact (quiet_retireChannel c).trans (.of_same rfl rfl rfl rfl rfl rfl)
  | destroyChannel c => exact quiet_destroyChannel c
  | markRowDead c =>
    rw [SharedSessionContext.apply]
    split
    · exact .refl
    · exact quiet_updateRow c (by decide)
  | purgeRow c =>
    rw [SharedSessionContext.apply]
    split
    · refine ⟨rfl, fun _ _ ↦ id, rfl, fun _ _ ↦ id, fun _ ↦ id, fun c' hc ↦ ?_⟩
      rw [OrderedMap.get_delete] at hc
      split at hc
      · cases hc
      · exact hc
    · exact .refl
  | channelExit c =>
    rw [SharedSessionContext.apply]
    split
    · have hdead : Quiet s (s.updateChannelStatus c .dead) :=
        quiet_updateChannelStatus c (by decide)
      exact hdead.trans (.of_same rfl rfl rfl rfl rfl rfl)
    · exact .of_same rfl rfl rfl rfl rfl rfl
  | hostSpawnFailed c => exact quiet_updateChannelStatus c (by decide)
  | activateSession i =>
    rw [SharedSessionContext.apply, activateSession]
    split
    · exact quiet_updateSessionStatus i .active
    · exact .refl
  | closeAgent a => exact .of_same rfl rfl rfl rfl rfl rfl
  | deleteAgent hostId => exact quiet_deleteAgent hostId
  | agentClosed hostId disconnects => exact quiet_agentClosed hostId disconnects
  | closeSession i => exact quiet_closeSession i
  | connectFailed i => exact quiet_connectFailed i
  | dropSession i => exact quiet_dropSession i
  | abandonSession i => exact quiet_abandonSession i
  | closeRow i =>
    rw [SharedSessionContext.apply, closeRow]
    split
    · exact .refl
    · exact .of_same rfl rfl (List.length_modify ..) rfl rfl rfl
  | markDisconnected hostId =>
    rw [SharedSessionContext.apply, markDisconnected]
    split
    · exact .of_same rfl rfl (List.length_map ..) rfl rfl rfl
    · exact .refl
  | bury alive => exact quiet_bury alive
  | _ => exact ha.elim

theorem captureQuitFence_of_quitting (hq : s.quitting = true) : s.captureQuitFence = none :=
  if_pos hq

theorem isQuitFenceCurrent_of_quitting (hq : s.quitting = true) (fence : ℕ) :
    s.isQuitFenceCurrent fence = false := by
  rw [isQuitFenceCurrent, hq]
  rfl

end SharedSessionContext

namespace SessionHub

variable {db : Database} {h h' h'' : SessionHub db}

/-- From `h` to `h'` no SPAWN was sent, and the context was quiet. -/
structure Quiet (h h' : SessionHub db) : Prop where
  frames : h'.frames = h.frames
  ctx : h.ctx.Quiet h'.ctx

theorem Quiet.refl : Quiet h h := ⟨rfl, .refl⟩

theorem Quiet.trans (hq : Quiet h h') (hq' : Quiet h' h'') : Quiet h h'' :=
  ⟨hq'.frames.trans hq.frames, hq.ctx.trans hq'.ctx⟩

theorem Quiet.quitting (hq : Quiet h h') (h₀ : h.ctx.quitting = true) : h'.ctx.quitting = true :=
  hq.ctx.quitting.trans h₀

/-- A change to what is not in the context. -/
theorem Quiet.of_same (hframes : h'.frames = h.frames) (hctx : h'.ctx = h.ctx) : Quiet h h' :=
  ⟨hframes, hctx ▸ .refl⟩

theorem Quiet.act {a : ContextAction} (hq : h.ctx.quitting = true)
    (ha : SharedSessionContext.Quieting a) :
    Quiet h (h.act a) :=
  ⟨rfl, .apply ha hq⟩

/-! ## Pieces of code -/

theorem quiet_launch (t : Task) : Quiet h (h.launch t) := .of_same rfl rfl

theorem quiet_wireAgentEvents (hostId : String) (i : ℕ) (daemon : Bool) :
    Quiet h (h.wireAgentEvents hostId i daemon).1 := .of_same rfl rfl

theorem quiet_deleteController (hostId : String) (n : ℕ) :
    Quiet h (h.deleteController hostId n) := by
  rw [deleteController]
  split
  · exact .of_same rfl rfl
  · exact .refl

theorem quiet_releaseLease (body : SpawnBody) : Quiet h (h.releaseLease body) := by
  rw [releaseLease]
  split
  · exact .refl
  · exact .of_same rfl rfl

theorem quiet_failConnectingAcq (l q : ℕ) (message : String) :
    Quiet h (h.failConnectingAcq l q message) :=
  .of_same rfl rfl

theorem Quiet.toAwait {r : SessionHub db × Option Task} (hq : Quiet h r.1) :
    Quiet h (toAwait r) := by
  rcases r with ⟨t, _ | task⟩
  · exact hq
  · exact hq.trans (quiet_launch task)

section Quitting

variable (hq : h.ctx.quitting = true) (hostId : String) (body : SpawnBody) (a : ℕ) (i : ℕ)
include hq

theorem sendGuardedSpawn_of_quitting (c : Option ChannelId) :
    h.sendGuardedSpawn a c = none := by
  rw [sendGuardedSpawn, SharedSessionContext.captureQuitFence_of_quitting hq]

theorem quiet_lifecycleClose :
    Quiet h (h.lifecycleClose i) := by
  rw [lifecycleClose]
  split
  · exact .refl
  · rename_i hostId hhost
    have hclear : Quiet h (h.clearReconnect hostId) := .of_same rfl rfl
    exact hclear.trans (.act hq trivial)

theorem quiet_scheduleReconnect :
    Quiet h (h.scheduleReconnect hostId i) := by
  rw [scheduleReconnect, SharedSessionContext.captureQuitFence_of_quitting hq]
  exact .refl

/-- A session that is reused. Creating one takes a fence. -/
theorem quiet_getOrCreateSession {hostId : String} {isSsh : Bool}
    {fence i : ℕ} (hget : h.getOrCreateSession hostId isSsh fence = some (h', i)) : Quiet h h' := by
  rw [getOrCreateSession] at hget
  split at hget
  · obtain ⟨rfl, -⟩ := Prod.mk.inj (Option.some.inj hget)
    exact .refl
  · rw [SharedSessionContext.isQuitFenceCurrent_of_quitting hq] at hget
    cases hget

theorem quiet_evict :
    Quiet h (if h.ctx.agents.get hostId = some a then h.act (.deleteAgent hostId) else h) := by
  split
  · exact .act hq trivial
  · exact .refl

theorem quiet_abortAgentVersionMismatch (i a : ℕ) :
    Quiet h (h.abortAgentVersionMismatch hostId i a) := by
  have hevict := quiet_evict hq hostId a
  have hclose := hevict.trans (.act (hevict.quitting hq) (a := .closeAgent a) trivial)
  exact hclose.trans (quiet_lifecycleClose (hclose.quitting hq) i)

theorem quiet_attachDaemon :
    Quiet h (h.attachDaemon hostId i).1 := by
  rw [attachDaemon, SharedSessionContext.captureQuitFence_of_quitting hq]
  exact .of_same rfl rfl

theorem quiet_failAttach (p : ℕ) (hostId : String) (a : ℕ) :
    Quiet h (h.failAttach p hostId a) := by
  have hevict := quiet_evict hq hostId a
  have hclose := hevict.trans (.act (hevict.quitting hq) (a := .closeAgent a) trivial)
  exact hclose.trans (.of_same rfl rfl)

theorem spawnChannelsForHost_of_quitting
    (reAttach : Bool) : h.spawnChannelsForHost hostId a reAttach = (h, false) := by
  rw [spawnChannelsForHost, SharedSessionContext.captureQuitFence_of_quitting hq]

theorem quiet_warmRestartLocal (crashLoop : Bool)
    (rest : Option (List HostGroup)) : Quiet h (h.warmRestartLocal i crashLoop rest).1 := by
  rw [warmRestartLocal]
  split
  · exact .refl
  · rw [if_neg fun h' ↦ by rw [hq] at h'; exact Bool.noConfusion h'.1]
    exact quiet_attachDaemon hq _ i

theorem quiet_startupHosts (groups : List HostGroup) :
    Quiet h (h.startupHosts groups).1 := by
  induction groups generalizing h with
  | nil => exact .act hq trivial
  | cons g rest ih =>
    rw [startupHosts]
    split
    · have hbury : Quiet h (h.act (.bury g.channels)) := .act hq trivial
      exact hbury.trans (ih (hbury.quitting hq))
    · have hmark : Quiet h (h.act (.markDisconnected g.hostId)) := .act hq trivial
      dsimp only
      rw [if_pos (hmark.quitting hq)]
      exact hmark

theorem quiet_afterWarmRestart (rest : Option (List HostGroup)) :
    Quiet h (h.afterWarmRestart rest).1 := by
  rcases rest with _ | groups
  · exact .refl
  · exact quiet_startupHosts hq groups

theorem quiet_sendSpawnAndWait (prompts : Bool) :
    Quiet h (h.sendSpawnAndWait body a prompts).1 := by
  rw [sendSpawnAndWait, sendGuardedSpawn_of_quitting hq]
  exact quiet_releaseLease body

theorem quiet_abandonSpawn :
    Quiet h (h.abandonSpawn body) := by
  rw [abandonSpawn]
  split
  · exact .act hq trivial
  · dsimp only
    have hrelease : ∀ acqs, Quiet h { h with acquisitions := acqs } := fun _ ↦ .of_same rfl rfl
    split
    · exact hrelease _
    · exact (hrelease _).trans (.act (a := .abandonSession body.session) hq trivial)

theorem quiet_spawnBody (agent : Option ℕ) :
    Quiet h (h.spawnBody body agent).1 := by
  unfold spawnBody
  split
  · exact quiet_abandonSpawn hq body
  · split
    · split
      · exact quiet_sendSpawnAndWait hq body _ _
      · exact quiet_attachDaemon hq _ _
    · exact quiet_attachDaemon hq _ _

theorem quiet_leadSpawn (call : SpawnCall) (hostType : HostKind) :
    Quiet h (h.leadSpawn call hostType).1 := by
  have hacquire : Quiet h { h with
      acquisitions := h.acquisitions.acquire call.hostId (toString call.client) } :=
        .of_same rfl rfl
  rw [leadSpawn]
  split
  · exact hacquire
  · rename_i t i hget
    exact hacquire.trans (quiet_getOrCreateSession hq hget)

theorem quiet_spawnOn (call : SpawnCall) (hostType : HostKind) :
    Quiet h (h.spawnOn call hostType).1 := by
  rw [spawnOn]
  split
  · split
    · exact quiet_leadSpawn hq call hostType
    · split
      · exact quiet_leadSpawn hq call hostType
      · exact .of_same rfl rfl
  · split
    · exact .refl
    · rename_i t i hget
      exact quiet_getOrCreateSession hq hget

theorem quiet_followed (call : SpawnCall) (hostType : HostKind) (l q : ℕ) :
    Ensures (fun r ↦ Quiet h r.1) (h.followed call hostType l q) := by
  rw [followed]
  split
  · exact .of_none
  · exact .of_some (.of_same rfl rfl)
  · split
    · exact .of_none
    · dsimp only
      split
      · exact .of_some (quiet_spawnBody hq _ _)
      · exact .of_some (quiet_releaseLease (h := h) ⟨call, hostType, _, some (l, q)⟩)

theorem quiet_leaderFailed (l q : ℕ) :
    Quiet h (h.leaderFailed body l q) :=
  have hfailed : Quiet h (h.act (.connectFailed body.session)) := .act hq trivial
  hfailed.trans (quiet_failConnectingAcq l q _)

theorem quiet_leaderStarted (l q : ℕ) (mismatched : Bool) :
    Quiet h (h.leaderStarted body l q mismatched).1 := by
  rw [leaderStarted]
  dsimp only
  split
  · exact quiet_leaderFailed hq body l q
  · have hactive : Quiet h (h.act (.activateSession body.session)) := .act hq trivial
    have hwire := hactive.trans (quiet_wireAgentEvents body.call.hostId body.session false)
    split
    · have habort := hwire.trans (quiet_abortAgentVersionMismatch (hwire.quitting hq)
        body.call.hostId body.session h.agentObjects.length)
      exact habort.trans (quiet_leaderFailed (habort.quitting hq) body l q)
    · exact hwire

theorem quiet_leaderConnected (l q a : ℕ) :
    Quiet h (h.leaderConnected body l q a).1 := by
  rw [leaderConnected]
  dsimp only
  split
  · rw [SharedSessionContext.isQuitFenceCurrent_of_quitting hq]
    exact quiet_failConnectingAcq l q _
  · have hclose : Quiet h (h.act (.closeAgent a)) := .act hq trivial
    have hdrop := hclose.trans (.act (hclose.quitting hq) (a := .dropSession body.session) trivial)
    exact hdrop.trans (quiet_failConnectingAcq l q _)

theorem quiet_handleAttach (k : ℕ) (c : ChannelId) (n : ℕ) :
    Quiet h (h.handleAttach k c n).1 := by
  rw [handleAttach, if_pos (.inr hq)]
  exact .refl

theorem quiet_restartOn (call : RestartCall) :
    Quiet h (h.restartOn call).1 := by
  rw [restartOn]
  split
  · split
    · rw [sendGuardedSpawn_of_quitting hq]
      exact .refl
    · exact .refl
  · exact .refl

theorem quiet_restartChannel (c : ChannelId) (cached : Bool) :
    Quiet h (h.restartChannel c cached).1 := by
  rw [restartChannel, if_pos hq]
  exact .refl

theorem quiet_reconnected (i n : ℕ) :
    Quiet h (h.reconnected hostId i n).1 := by
  rw [reconnected]
  split
  · have hdelete : Quiet h (h.deleteController hostId n) := quiet_deleteController hostId n
    have hactive := hdelete.trans (.act (hdelete.quitting hq) (a := .activateSession i) trivial)
    exact hactive.trans (quiet_wireAgentEvents hostId i false)
  · exact .refl

theorem exists_reconnected (i n : ℕ) :
    ∃ t a, h.reconnected hostId i n = (t, a) ∧ Quiet h t :=
  ⟨_, _, rfl, quiet_reconnected hq hostId i n⟩

theorem quiet_closeSession : Quiet h (h.closeSession i) := by
  rw [closeSession]
  split
  · exact .refl
  · rename_i hostId hhost
    split
    · have hclosed : ∀ t : SessionHub db, Quiet h t →
          Quiet h ({ t with acquisitions := t.acquisitions.close hostId }.lifecycleClose i) := by
        intro t ht
        have hacq : Quiet h { t with acquisitions := t.acquisitions.close hostId } :=
          ⟨ht.frames, ht.ctx⟩
        exact hacq.trans (quiet_lifecycleClose (hacq.quitting hq) i)
      refine hclosed _ ?_
      rcases h.ctx.agents.get hostId with _ | a
      · exact .refl
      · have hclose : Quiet h (h.act (.closeAgent a)) := .act hq trivial
        exact hclose.trans (.act (hclose.quitting hq) trivial)
    · exact .act hq trivial

theorem quiet_destroy (c : ChannelId) : Quiet h (h.destroy c) := by
  rw [destroy]
  split
  · exact .refl
  · split
    · exact .act hq trivial
    · split
      · exact .act hq trivial
      · exact .act hq trivial

theorem quiet_timerFires (x : ReconnectCallback) :
    Quiet h (h.timerFires x).1 := by
  have hdelete : Quiet h { h with reconnectTimers := h.reconnectTimers.delete x.hostId } :=
    .of_same rfl rfl
  rw [timerFires]
  split
  · split
    · exact hdelete.trans (.of_same rfl rfl)
    · exact hdelete.trans (quiet_lifecycleClose (hdelete.quitting hq) x.session)
  · exact hdelete

theorem quiet_reconnectFailed (i n : ℕ) (late : Bool) :
    Quiet h (h.reconnectFailed hostId i n late) := by
  have hdelete : Quiet h (h.deleteController hostId n) := quiet_deleteController hostId n
  rw [reconnectFailed]
  split
  · exact hdelete
  · split
    · split
      · exact hdelete.trans (quiet_lifecycleClose (hdelete.quitting hq) i)
      · exact hdelete
    · exact hdelete.trans (quiet_scheduleReconnect (hdelete.quitting hq) hostId i)

theorem quiet_agentClosed (crashLoop : Bool) :
    Quiet h (h.agentClosed a crashLoop).1 := by
  rw [agentClosed]
  split
  · exact .refl
  · rename_i agent hagent
    split
    · have hclosed : Quiet h (h.act (.agentClosed agent.hostId
          (agent.daemon ∨ h.ctx.hosts.get agent.hostId = some .ssh))) := .act hq trivial
      have hq' := hclosed.quitting hq
      dsimp only
      split
      · simpa using hclosed
      · rename_i i hi
        split
        · simpa using hclosed.trans (quiet_attachDaemon hq' agent.hostId i)
        · split
          · simpa using hclosed.trans (quiet_scheduleReconnect hq' agent.hostId i)
          · simpa using hclosed.trans (quiet_warmRestartLocal hq' i crashLoop none)
    · exact .refl

theorem quiet_helloMismatch : Quiet h (h.helloMismatch a) := by
  rw [helloMismatch]
  split
  · exact .refl
  · split
    · exact quiet_abortAgentVersionMismatch hq _ _ a
    · exact .refl

theorem quiet_warmRestarted
    (rest : Option (List HostGroup)) : Quiet h (h.warmRestarted hostId a rest).1 := by
  rw [warmRestarted, spawnChannelsForHost_of_quitting hq]
  exact .refl

theorem quiet_daemonConnected (p : ℕ) (hostId : String) (i fence : ℕ) :
    Quiet h (h.daemonConnected p hostId i fence).1 := by
  have hwire := quiet_wireAgentEvents (h := h) hostId i true
  rw [daemonConnected]
  dsimp only
  rw [SharedSessionContext.isQuitFenceCurrent_of_quitting (hwire.quitting hq)]
  exact hwire.trans (quiet_failAttach (hwire.quitting hq) p hostId _)

theorem quiet_daemonReported (p : ℕ) (hostId : String) (i a fence : ℕ)
    (states : List (ChannelId × Bool)) :
    Quiet h (h.daemonReported p hostId i a fence states).1 := by
  rw [daemonReported, SharedSessionContext.isQuitFenceCurrent_of_quitting hq]
  exact quiet_failAttach hq p hostId a

theorem quiet_resume (n : ℕ) (t : Task) (o : Outcome) :
    Ensures (fun r ↦ Quiet h r.1) (h.resume n t o) := by
  have hfence := SharedSessionContext.isQuitFenceCurrent_of_quitting hq
  cases t
  case spawnAnswered retry =>
    cases retry <;> cases o <;>
      first | exact .of_none | exact .of_some .refl | exact .of_some (quiet_releaseLease _)
  all_goals cases o <;> first | exact .of_none | (unfold resume; try dsimp only)
  any_goals with_reducible exact .of_some .refl
  -- `handleSpawn`
  · split
    · exact .of_some .refl
    · exact .of_some (quiet_spawnOn hq _ _)
  · exact quiet_followed hq _ _ _ _
  · exact .of_some (quiet_failConnectingAcq _ _ _)
  · exact .of_some (quiet_leaderStarted hq _ _ _ _)
  · exact .of_some (quiet_leaderStarted hq _ _ _ _)
  · exact .of_some (quiet_leaderFailed hq _ _ _)
  · exact .of_some (quiet_leaderConnected hq _ _ _ _)
  · exact .of_some (quiet_spawnBody hq _ _)
  · split
    · exact .of_some (quiet_sendSpawnAndWait hq _ _ _)
    · exact .of_some (quiet_releaseLease _)
    · exact .of_none
  · rw [hfence, if_pos rfl]
    exact .of_some .refl
  · rename_i given
    cases given
    · exact .of_some (quiet_releaseLease _)
    · exact .of_some (quiet_sendSpawnAndWait hq _ _ _)
  -- `handleAttach`
  · exact .guard fun _ ↦ .of_some (.of_same rfl rfl)
  · exact .guard fun _ ↦ .of_some (.of_same rfl rfl)
  · exact .of_some (.of_same rfl rfl)
  · exact .of_some (.act hq trivial)
  · rw [hfence]
    exact .of_some .refl
  -- `restartChannel`
  · rename_i call i attempt fence late
    obtain ⟨t, a, hpair, hreconnected⟩ := exists_reconnected hq call.hostId i attempt
    rw [hpair]
    cases a with
    | none => exact .of_some hreconnected
    | some a =>
      dsimp only
      rw [SharedSessionContext.isQuitFenceCurrent_of_quitting (hreconnected.quitting hq)]
      exact .of_some hreconnected
  · rename_i call i attempt fence late
    obtain ⟨t, a, hpair, hreconnected⟩ := exists_reconnected hq call.hostId i attempt
    rw [hpair]
    cases a with
    | none => exact .of_some hreconnected
    | some a =>
      have habort := quiet_abortAgentVersionMismatch (hreconnected.quitting hq) call.hostId i a
      exact .of_some (hreconnected.trans habort)
  · exact .of_some (quiet_deleteController _ _)
  · exact .of_some (quiet_restartOn hq _)
  · rename_i given
    cases given
    · exact .of_some .refl
    · dsimp only
      rw [sendGuardedSpawn_of_quitting hq]
      exact .of_some .refl
  · rw [if_pos hq]
    exact .of_some .refl
  -- `attachDaemon` and what waits for it
  · exact .of_some (quiet_daemonConnected hq _ _ _ _)
  · exact .of_some (.of_same rfl rfl)
  · exact .of_some (quiet_failAttach hq _ _ _)
  · exact .of_some (quiet_daemonReported hq _ _ _ _ _ _)
  · refine .of_some ?_
    dsimp only
    split
    · exact .of_same rfl rfl
    · exact .refl
  · split
    · exact .of_some .refl
    · exact .of_some (quiet_lifecycleClose hq _)
    · exact .of_none
  · split
    · exact .of_some (quiet_warmRestarted hq _ _ _)
    · have hclose : ∀ i, Quiet h (h.lifecycleClose i) := quiet_lifecycleClose hq
      exact .of_some ((hclose _).trans (quiet_afterWarmRestart ((hclose _).quitting hq) _))
    · exact .of_none
  · exact .guard fun _ ↦ .of_some (quiet_afterWarmRestart hq _)
  · split
    · exact .of_some (quiet_startupHosts hq _)
    · rw [if_pos hq]
      exact .of_some .refl
    · exact .of_none
  -- The callback of a reconnect timer
  · rename_i hostId i attempt fence late
    obtain ⟨t, a, hpair, hreconnected⟩ := exists_reconnected hq hostId i attempt
    rw [hpair]
    cases a with
    | none => exact .of_some hreconnected
    | some a =>
      have hq' := hreconnected.quitting hq
      dsimp only
      rw [SharedSessionContext.isQuitFenceCurrent_of_quitting hq']
      exact .of_some (hreconnected.trans (quiet_reconnectFailed hq' _ _ _ _))
  · rename_i hostId i attempt fence late
    obtain ⟨t, a, hpair, hreconnected⟩ := exists_reconnected hq hostId i attempt
    rw [hpair]
    cases a with
    | none => exact .of_some hreconnected
    | some a =>
      have hq' := hreconnected.quitting hq
      have habort := hreconnected.trans (quiet_abortAgentVersionMismatch hq' hostId i a)
      exact .of_some (habort.trans (quiet_reconnectFailed (habort.quitting hq) _ _ _ _))
  · exact .of_some (quiet_reconnectFailed hq _ _ _ _)
  -- `spawnChannelsForHost`
  · rw [hfence]
    exact .of_some .refl
  · rw [hfence]
    exact .of_some .refl
  · exact .of_some (.act hq trivial)

/-- **A step of a quitting hub revives nothing.** -/
theorem step_quiet (e : Event) : Ensures (Quiet h) (h.step e) := by
  cases e with
  | startup =>
    rw [step]
    refine .guardNot fun _ ↦ ?_
    have hstarted : Quiet h { h with started := true } := .of_same rfl rfl
    have hhosts := quiet_startupHosts (hstarted.quitting hq) h.byHost
    exact .of_some (hstarted.trans hhosts).toAwait
  | setHost hostId kind =>
    rw [step]
    exact .of_some (.act hq trivial)
  | connect =>
    rw [step]
    exact .guard fun _ ↦ .of_some (.act hq trivial)
  | disconnect k =>
    rw [step]
    exact .of_some (.act hq trivial)
  | spawn k hostId elevated cached =>
    rw [step, SharedSessionContext.captureQuitFence_of_quitting hq]
    exact .guard fun _ ↦ .of_some .refl
  | attach k c =>
    rw [step]
    exact .of_some (quiet_handleAttach hq k c _).toAwait
  | detach k c =>
    rw [step]
    exact .of_some (.act hq trivial)
  | restart c cached =>
    rw [step]
    exact .guard fun _ ↦ .of_some (quiet_restartChannel hq c cached).toAwait
  | destroy c =>
    rw [step]
    exact .guard fun _ ↦ .of_some (quiet_destroy hq c)
  | purge c =>
    rw [step]
    exact .of_some (.act hq trivial)
  | closeSession i =>
    rw [step]
    exact .guard fun _ ↦ .of_some (quiet_closeSession hq i)
  | beginQuit =>
    rw [step, beginQuit, if_pos hq]
    exact .of_some .refl
  | timerFires t =>
    rw [step]
    split
    · exact .of_none
    · rename_i x hx
      refine .guard fun _ ↦ ?_
      have hfired : Quiet h { h with
        timers := h.timers.modify t fun x ↦ { x with pending := false } } := .of_same rfl rfl
      exact .of_some (hfired.trans (quiet_timerFires (hfired.quitting hq) x)).toAwait
  | channelExit a c =>
    rw [step]
    exact .guard fun _ ↦ .of_some (.act hq trivial)
  | helloMismatch a =>
    rw [step]
    exact .of_some (quiet_helloMismatch hq a)
  | lost a =>
    rw [step]
    exact .guard fun _ ↦ .of_some (.act hq trivial)
  | closed a crashLoop =>
    rw [step]
    exact .guardNot fun _ ↦ .of_some (quiet_agentClosed hq a crashLoop).toAwait
  | resume n o =>
    rw [step]
    split
    · rintro _ hresume
      obtain ⟨r, hr, rfl⟩ := Option.map_eq_some_iff.mp hresume
      exact (quiet_resume hq _ _ _ hr).trans (.of_same rfl rfl)
    · exact .of_none

/-- A quitting hub stays quiet, whatever comes. -/
theorem run_quiet {es : List Event} (hrun : run step h es = some h') :
    Quiet h h' := by
  have hinv : Quiet h h' ∧ h'.ctx.quitting = true := by
    refine run_invariant (fun t ↦ Quiet h t ∧ t.ctx.quitting = true) ?_ ⟨.refl, hq⟩ hrun
    rintro t e t' ⟨hquiet, hq'⟩ hstep
    have hstep' := step_quiet hq' e hstep
    exact ⟨hquiet.trans hstep', hstep'.quitting hq'⟩
  exact hinv.1

end Quitting

theorem beginQuit_quitting : h.beginQuit.ctx.quitting = true := by
  rw [beginQuit]
  split
  · rename_i hq
    exact hq
  · rename_i hq
    have hctx : (h.ctx.apply .beginQuit).quitting = true := by
      rw [SharedSessionContext.apply, if_neg hq]
    exact hctx

/-- **Quit fence.** From `beginQuit` on no SPAWN is sent, no agent is adopted, no session is
created, in the database or in the context, and no channel becomes live. -/
theorem quiet_after_beginQuit {es es' : List Event}
    (hrun : run step (start db) (es ++ [.beginQuit]) = some h)
    (hrun' : run step h es' = some h') : Quiet h h' := by
  rw [run_append, Option.bind_eq_some_iff] at hrun
  obtain ⟨t, -, hrun⟩ := hrun
  rw [run_cons, step, Option.bind_some, run_nil] at hrun
  cases hrun
  exact run_quiet beginQuit_quitting hrun'

/-- The SPAWN is answered after `beginQuit`, and the client asks once more. -/
theorem quiet_after_beginQuit_answered :
    ∃ h h', run step (start (.ofHost "desk" .daemon)) (spawning ++ [.beginQuit]) = some h ∧
      run step h [.resume 0 (.spawnOk "c"), .spawn 0 "desk" false false] = some h' ∧
      h.frames = [(0, none)] ∧ Quiet h h' :=
  ⟨_, _, rfl, rfl, rfl, @quiet_after_beginQuit _ _ _ spawning
    [.resume 0 (.spawnOk "c"), .spawn 0 "desk" false false] rfl rfl⟩

end SessionHub

end Lasterm.Hub
