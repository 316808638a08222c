import Lasterm.Hub.ChannelStatus

/-!
# The status of a session follows its channels

The status of a session is kept next to those of its channels: `checkSessionDetached` sets it to
detached when the last channel of the host has lost its last client, and the connects and
`applyRestartState` set it to active. No other piece of code brings a detached session back.
`handleAttach` makes the channel live and leaves the session as it is, and a SPAWN on a host with a
connected agent puts its channel into a new session, which stays starting. `SessionCareful` rules
out what makes a channel live in a session that is not active.
-/

namespace Lasterm.Hub

namespace SharedSessionContext

variable {s t u : SharedSessionContext} {k n i j a : ℕ} {c c' : ChannelId} {ch : ChannelState}
  {hostId : String} {status : ChannelStatus} (st : SessionStatus)

/-- The row of the session is active, and so is its object while it is current. -/
def SessionActive (s : SharedSessionContext) (i : ℕ) : Prop :=
  s.sessionRow i = some .active ∧
    ((s.sessionHost i).bind s.sessions.get = some i → s.sessionStatus i = some .active)

instance (s : SharedSessionContext) (i : ℕ) : Decidable (s.SessionActive i) :=
  inferInstanceAs (Decidable (_ ∧ (_ → _)))

/-- The invariant. -/
structure SessionInv (s : SharedSessionContext) : Prop where
  channelHost : ∀ c ch, s.channels.get c = some ch → s.sessionHost ch.sessionId = some ch.hostId
  sessionHost : ∀ hostId i, s.sessions.get hostId = some i → s.sessionHost i = some hostId
  active : ∀ c ch, s.channels.get c = some ch → ch.status = .live →
    s.agentConnected ch.hostId = true → s.SessionActive ch.sessionId

/-- Channels, sessions and agents may be gone in `t`, and channels may have ceased to be live. -/
structure Shrinks (s t : SharedSessionContext) : Prop where
  channels : ∀ c ch', t.channels.get c = some ch' → ∃ ch, s.channels.get c = some ch ∧
    ch'.hostId = ch.hostId ∧ ch'.sessionId = ch.sessionId ∧ (ch'.status = .live → ch.status = .live)
  agents : ∀ hostId, t.agentConnected hostId = true → s.agentConnected hostId = true
  sessions : ∀ hostId i, t.sessions.get hostId = some i → s.sessions.get hostId = some i
  sessionStates : t.sessionStates = s.sessionStates

theorem Shrinks.of_same (hchannels : t.channels = s.channels) (hagents : t.agents = s.agents)
    (hclosed : t.closedAgents = s.closedAgents) (hsessions : t.sessions = s.sessions)
    (hstates : t.sessionStates = s.sessionStates) : Shrinks s t where
  channels _ ch' hch' := ⟨ch', hchannels ▸ hch', rfl, rfl, id⟩
  agents hostId h := by
    rw [agentConnected, hagents, hclosed] at h
    exact h
  sessions _ _ h := hsessions ▸ h
  sessionStates := hstates

theorem Shrinks.refl : Shrinks s s := .of_same rfl rfl rfl rfl rfl

theorem Shrinks.trans (h : Shrinks s t) (h' : Shrinks t u) : Shrinks s u where
  channels c ch'' hch'' := by
    obtain ⟨ch', hch', hhost', hsession', hlive'⟩ := h'.channels c ch'' hch''
    obtain ⟨ch, hch, hhost, hsession, hlive⟩ := h.channels c ch' hch'
    exact ⟨ch, hch, hhost'.trans hhost, hsession'.trans hsession, fun hl ↦ hlive (hlive' hl)⟩
  agents hostId hc := h.agents hostId (h'.agents hostId hc)
  sessions hostId i hi := h.sessions hostId i (h'.sessions hostId i hi)
  sessionStates := h'.sessionStates.trans h.sessionStates

theorem SessionInv.shrink (h : s.SessionInv) (ht : Shrinks s t) : t.SessionInv where
  channelHost c ch' hch' := by
    obtain ⟨ch, hch, hhost, hsession, -⟩ := ht.channels c ch' hch'
    rw [SharedSessionContext.sessionHost, ht.sessionStates, hhost, hsession]
    exact h.channelHost c ch hch
  sessionHost hostId i hi := by
    rw [SharedSessionContext.sessionHost, ht.sessionStates]
    exact h.sessionHost hostId i (ht.sessions hostId i hi)
  active c ch' hch' hlive' hconnected := by
    obtain ⟨ch, hch, hhost, hsession, hlive⟩ := ht.channels c ch' hch'
    obtain ⟨hrow, hstatus⟩ := h.active c ch hch (hlive hlive') (ht.agents _ (hhost ▸ hconnected))
    rw [hsession]
    refine ⟨?_, fun hcurrent ↦ ?_⟩
    · rw [sessionRow, ht.sessionStates]
      exact hrow
    · rw [sessionStatus, ht.sessionStates]
      refine hstatus ?_
      rw [SharedSessionContext.sessionHost, ht.sessionStates, Option.bind_eq_some_iff] at hcurrent
      obtain ⟨hostId, hostId', hcurrent⟩ := hcurrent
      rw [SharedSessionContext.sessionHost, hostId', Option.bind_some]
      exact ht.sessions hostId _ hcurrent

/-! ## What shrinks -/

theorem shrinks_setStatuses {f : ChannelId → ChannelState → ChannelStatus}
    (hf : ∀ c ch, s.channels.get c = some ch → f c ch = .live → ch.status = .live) :
    Shrinks s (s.setStatuses f) where
  channels c ch' hch' := by
    rw [get_setStatuses, Option.map_eq_some_iff] at hch'
    obtain ⟨ch, hch, rfl⟩ := hch'
    exact ⟨ch, hch, rfl, rfl, hf c ch hch⟩
  agents _ := id
  sessions _ _ := id
  sessionStates := rfl

theorem shrinks_updateChannelStatus (c : ChannelId) (hstatus : status ≠ .live) :
    Shrinks s (s.updateChannelStatus c status) where
  channels c' ch' hch' := by
    rw [get_updateChannelStatus] at hch'
    split at hch'
    · rw [Option.map_eq_some_iff] at hch'
      obtain ⟨ch, hch, rfl⟩ := hch'
      exact ⟨ch, hch, rfl, rfl, fun hlive ↦ absurd hlive hstatus⟩
    · exact ⟨ch', hch', rfl, rfl, id⟩
  agents _ := id
  sessions _ _ := id
  sessionStates := rfl

theorem shrinks_deleteChannel (c : ChannelId) : Shrinks s (s.deleteChannel c) where
  channels c' ch' hch' := by
    rw [deleteChannel, OrderedMap.get_delete] at hch'
    split at hch'
    · cases hch'
    · exact ⟨ch', hch', rfl, rfl, id⟩
  agents _ := id
  sessions _ _ := id
  sessionStates := rfl

theorem shrinks_deleteSession (hostId : String) : Shrinks s (s.deleteSession hostId) where
  channels _ ch' hch' := ⟨ch', hch', rfl, rfl, id⟩
  agents _ := id
  sessions hostId' i hi := by
    rw [deleteSession, OrderedMap.get_delete] at hi
    split at hi
    · cases hi
    · exact hi
  sessionStates := rfl

theorem shrinks_deleteAgent (hostId : String) : Shrinks s (s.deleteAgent hostId) where
  channels _ ch' hch' := ⟨ch', hch', rfl, rfl, id⟩
  agents hostId' hc := by
    rw [agentConnected, deleteAgent, OrderedMap.get_delete] at hc
    split at hc
    · cases hc
    · exact hc
  sessions _ _ := id
  sessionStates := rfl

theorem shrinks_closeAgent (a : ℕ) : Shrinks s (s.closeAgent a) where
  channels _ ch' hch' := ⟨ch', hch', rfl, rfl, id⟩
  agents hostId hc := by
    rw [agentConnected, Option.any_eq_true] at hc ⊢
    obtain ⟨b, hb, hopen⟩ := hc
    refine ⟨b, hb, ?_⟩
    rw [decide_eq_true_iff] at hopen ⊢
    exact fun hclosed ↦ hopen (OrderedSet.mem_add.mpr (.inr hclosed))
  sessions _ _ := id
  sessionStates := rfl

theorem shrinks_retireChannel (c : ChannelId) : Shrinks s (s.retireChannel c) := by
  have hdead : Shrinks s (s.updateChannelStatus c .dead) :=
    shrinks_updateChannelStatus c (by decide)
  have hrest : Shrinks (s.updateChannelStatus c .dead)
    (((s.updateChannelStatus c .dead).modifyMembers
      (s.members c) fun set ↦ set.delete c).untrackChannel c) := .of_same rfl rfl rfl rfl rfl
  exact (hdead.trans hrest).trans (shrinks_deleteChannel c)

theorem shrinks_destroyChannel (c : ChannelId) : Shrinks s (s.destroyChannel c) := by
  rw [destroyChannel]
  split
  · exact .refl
  · have hdead : Shrinks s (s.updateChannelStatus c .dead) :=
      shrinks_updateChannelStatus c (by decide)
    have hrest : Shrinks (s.updateChannelStatus c .dead)
      ((s.updateChannelStatus c .dead).untrackChannel c) :=
      .of_same rfl rfl rfl rfl rfl
    exact (hdead.trans hrest).trans (shrinks_deleteChannel c)

theorem shrinks_killChannels (hostId : String) : Shrinks s (s.killChannels hostId) := by
  refine killChannels_rule (shrinks_setStatuses fun c ch hch hlive ↦ ?_) fun _ _ ht ↦
    ht.trans (.of_same rfl rfl rfl rfl rfl)
  split at hlive
  · cases hlive
  · exact hlive

theorem shrinks_bury (alive : List ChannelId) : Shrinks s (s.bury alive) :=
  bury_rule .refl fun _ c ht ↦ ht.trans (shrinks_updateChannelStatus c (by decide))

/-! ## Statuses of sessions -/

theorem getElem?_updateSessionStatus :
    (s.updateSessionStatus i st).sessionStates[j]? = s.sessionStates[j]?.map fun x ↦
      if i = j then { x with
        status := if s.sessions.get x.hostId = some i then st else x.status
        row := st } else x := by
  rw [updateSessionStatus, List.getElem?_modify]
  rcases s.sessionStates[j]? with _ | x
  · rfl
  · by_cases hij : i = j <;> simp [hij]

theorem sessionHost_updateSessionStatus :
    (s.updateSessionStatus i st).sessionHost j = s.sessionHost j := by
  rw [sessionHost, sessionHost, getElem?_updateSessionStatus, Option.map_map]
  congr 1
  funext x
  dsimp only [Function.comp]
  split <;> rfl

theorem sessionRow_updateSessionStatus : (s.updateSessionStatus i st).sessionRow j =
      if i = j then (s.sessionRow j).map fun _ ↦ st else s.sessionRow j := by
  rw [sessionRow, sessionRow, getElem?_updateSessionStatus]
  rcases s.sessionStates[j]? with _ | x
  · simp
  · by_cases hij : i = j <;> simp [hij]

theorem SessionActive.of_ne (h : s.SessionActive j) (hij : i ≠ j) (st : SessionStatus) :
    (s.updateSessionStatus i st).SessionActive j := by
  obtain ⟨hrow, hstatus⟩ := h
  refine ⟨?_, fun hcurrent ↦ ?_⟩
  · rw [sessionRow_updateSessionStatus, if_neg hij]
    exact hrow
  · rw [sessionHost_updateSessionStatus] at hcurrent
    rw [sessionStatus, getElem?_updateSessionStatus, ← hstatus hcurrent, sessionStatus]
    simp [hij]

/-- `updateSessionStatus` with "active". -/
theorem sessionActive_updateSessionStatus (hi : i < s.sessionStates.length) :
    (s.updateSessionStatus i .active).SessionActive i := by
  obtain ⟨x, hx⟩ : ∃ x, s.sessionStates[i]? = some x := ⟨_, List.getElem?_eq_getElem hi⟩
  refine ⟨?_, fun hcurrent ↦ ?_⟩
  · rw [sessionRow_updateSessionStatus, if_pos rfl, sessionRow, hx]
    rfl
  · rw [sessionHost_updateSessionStatus, sessionHost, hx] at hcurrent
    have hcurrent : s.sessions.get x.hostId = some i := hcurrent
    rw [sessionStatus, getElem?_updateSessionStatus, hx]
    simp [hcurrent]

theorem SessionActive.activate (h : s.SessionActive j) (i : ℕ) :
    (s.updateSessionStatus i .active).SessionActive j := by
  by_cases hij : i = j
  · subst hij
    refine sessionActive_updateSessionStatus ?_
    have hrow := h.1
    rw [sessionRow, Option.map_eq_some_iff] at hrow
    obtain ⟨x, hx, -⟩ := hrow
    exact (List.getElem?_eq_some_iff.mp hx).1
  · exact h.of_ne hij .active

/-! ## Sessions that are new, or open again -/

/-- A session is that of its own host. -/
def Hosted (s : SharedSessionContext) : Prop :=
  ∀ hostId i, s.sessions.get hostId = some i → s.sessionHost i = some hostId

theorem sessionHost_of_state {session : SessionState} (h : s.sessionStates[i]? = some session) :
    s.sessionHost i = some session.hostId := by
  rw [sessionHost, h]
  rfl

theorem lt_length_of_sessionHost (h : s.sessionHost i = some hostId) :
    i < s.sessionStates.length := by
  obtain ⟨x, hx, -⟩ := Option.map_eq_some_iff.mp h
  exact (List.getElem?_eq_some_iff.mp hx).1

theorem getElem?_createSession (h : i < s.sessionStates.length) :
    (s.createSession hostId).sessionStates[i]? = s.sessionStates[i]? := List.getElem?_append_left h

theorem sessionHost_createSession {hostId' : String} (h : s.sessionHost i = some hostId) :
    (s.createSession hostId').sessionHost i = some hostId := by
  rw [sessionHost, getElem?_createSession (lt_length_of_sessionHost h)]
  exact h

theorem state_createSession : (s.createSession hostId).sessionStates[s.sessionStates.length]? =
    some ⟨hostId, .starting, .starting⟩ := List.getElem?_concat_length

theorem Hosted.createSession (h : s.Hosted) (hostId : String) :
    (s.createSession hostId).Hosted := by
  intro hostId' i hi
  rw [SharedSessionContext.createSession, OrderedMap.get_set] at hi
  split at hi
  · rename_i hhost
    cases hi
    exact hhost ▸ sessionHost_of_state state_createSession
  · exact sessionHost_createSession (h hostId' i hi)

/-- The sessions of `t` are those of `s`, of which one has another object. -/
structure Reopens (s t : SharedSessionContext) (i : ℕ) : Prop where
  states : t.sessionStates = s.sessionStates.modify i fun x ↦ { x with status := .disconnected }

theorem Reopens.getElem? (h : Reopens s t i) (j : ℕ) : t.sessionStates[j]? =
    s.sessionStates[j]?.map fun x ↦ if i = j then { x with status := .disconnected } else x := by
  rw [h.states, List.getElem?_modify]
  rcases s.sessionStates[j]? with _ | x
  · rfl
  · by_cases hij : i = j <;> simp [hij]

theorem Reopens.sessionHost (h : Reopens s t i) (j : ℕ) : t.sessionHost j = s.sessionHost j := by
  rw [SharedSessionContext.sessionHost, SharedSessionContext.sessionHost, h.getElem?,
    Option.map_map]
  congr 1
  funext x
  dsimp only [Function.comp]
  split <;> rfl

theorem Reopens.sessionRow (h : Reopens s t i) (j : ℕ) : t.sessionRow j = s.sessionRow j := by
  rw [SharedSessionContext.sessionRow, SharedSessionContext.sessionRow, h.getElem?, Option.map_map]
  congr 1
  funext x
  dsimp only [Function.comp]
  split <;> rfl

theorem Reopens.hosted (h : Reopens s t i) (hs : s.Hosted) {session : SessionState}
    (hsession : s.sessionStates[i]? = some session)
    (ht : t.sessions = s.sessions.set session.hostId i) : t.Hosted := by
  intro hostId j hj
  rw [h.sessionHost]
  rw [ht, OrderedMap.get_set] at hj
  split at hj
  · rename_i heq
    cases hj
    exact heq ▸ sessionHost_of_state hsession
  · exact hs hostId j hj

/-- The row of a session that is not current is what `updateSessionStatus` writes, too. -/
theorem closeRow_eq (hcurrent : (s.sessionHost i).bind s.sessions.get ≠ some i) :
    s.closeRow i = s.updateSessionStatus i .closed := by
  rw [closeRow, if_neg hcurrent, SharedSessionContext.updateSessionStatus]
  congr 1
  refine List.ext_getElem? fun j ↦ ?_
  rw [List.getElem?_modify, List.getElem?_modify]
  by_cases hij : i = j
  · subst hij
    rcases hx : s.sessionStates[i]? with _ | x
    · rfl
    · have hne : s.sessions.get x.hostId ≠ some i := by
        rw [SharedSessionContext.sessionHost, hx] at hcurrent
        exact hcurrent
      simp [hne]
  · simp [hij]

/-- No channel of the session is live on a connected agent. -/
def Unused (s : SharedSessionContext) (i : ℕ) : Prop :=
  ∀ c ch, s.channels.get c = some ch → ch.sessionId = i → ch.status = .live →
    s.agentConnected ch.hostId = false

instance (s : SharedSessionContext) (i : ℕ) : Decidable (s.Unused i) :=
  by delta Unused; infer_instance

section

variable (h : s.SessionInv)
include h

theorem SessionInv.updateSessionStatus {st : SessionStatus}
    (hst : st = .active ∨ s.Unused i) : (s.updateSessionStatus i st).SessionInv where
  channelHost c ch hch := by
    rw [sessionHost_updateSessionStatus]
    exact h.channelHost c ch hch
  sessionHost hostId j hj := by
    rw [sessionHost_updateSessionStatus]
    exact h.sessionHost hostId j hj
  active c ch hch hlive hconnected := by
    have hactive := h.active c ch hch hlive hconnected
    rcases hst with rfl | hunused
    · exact hactive.activate i
    · refine hactive.of_ne ?_ st
      rintro rfl
      have hfalse : s.agentConnected ch.hostId = false := hunused c ch hch rfl hlive
      rw [agentConnected] at hfalse
      exact Bool.noConfusion (hconnected.symm.trans hfalse)

/-- Without a connected agent no channel of a host counts. -/
theorem SessionInv.unused (hi : s.sessionHost i = some hostId)
    (hagent : s.agentConnected hostId = false) : s.Unused i := by
  rintro c ch hch rfl -
  cases (h.channelHost c ch hch).symm.trans hi
  exact hagent

/-! ## Operations -/

theorem SessionInv.put (c : ChannelId) (ch : ChannelState)
    (hget : ∀ c', t.channels.get c' = if c = c' then some ch else s.channels.get c')
    (hagents : t.agents = s.agents) (hclosed : t.closedAgents = s.closedAgents)
    (hsessions : t.sessions = s.sessions) (hstates : t.sessionStates = s.sessionStates)
    (hhost : s.sessionHost ch.sessionId = some ch.hostId)
    (hactive : ch.status = .live → s.agentConnected ch.hostId = true →
      s.SessionActive ch.sessionId) :
    t.SessionInv := by
  have hsessionHost : t.sessionHost = s.sessionHost := by
    funext j
    rw [SharedSessionContext.sessionHost, SharedSessionContext.sessionHost, hstates]
  have hconnected : t.agentConnected = s.agentConnected := by
    funext hostId
    rw [agentConnected, agentConnected, hagents, hclosed]
  have hsessionActive : ∀ j, s.SessionActive j → t.SessionActive j := by
    rintro j ⟨hrow, hstatus⟩
    refine ⟨?_, fun hcurrent ↦ ?_⟩
    · rw [sessionRow, hstates]
      exact hrow
    · rw [sessionStatus, hstates]
      rw [hsessionHost, hsessions] at hcurrent
      exact hstatus hcurrent
  refine ⟨fun c' ch' hch' ↦ ?_, fun hostId j hj ↦ ?_, fun c' ch' hch' hlive hc ↦ ?_⟩
  · rw [hget] at hch'
    rw [hsessionHost]
    split at hch'
    · cases hch'
      exact hhost
    · exact h.channelHost c' ch' hch'
  · rw [hsessionHost]
    exact h.sessionHost hostId j (hsessions ▸ hj)
  · rw [hget] at hch'
    rw [hconnected] at hc
    split at hch'
    · cases hch'
      exact hsessionActive _ (hactive hlive hc)
    · exact hsessionActive _ (h.active c' ch' hch' hlive hc)

/-- A channel that is there becomes live. -/
theorem SessionInv.revive (hactive : ∀ ch ∈ s.channels.get c, s.agentConnected ch.hostId = true →
      s.SessionActive ch.sessionId) : (s.updateChannelStatus c .live).SessionInv := by
  rcases hch : s.channels.get c with _ | ch
  · refine h.shrink ⟨fun c' ch' hch' ↦ ?_, fun _ ↦ id, fun _ _ ↦ id, rfl⟩
    rw [get_updateChannelStatus] at hch'
    split at hch'
    · rename_i heq
      subst heq
      rw [hch] at hch'
      cases hch'
    · exact ⟨ch', hch', rfl, rfl, id⟩
  · refine h.put c { ch with status := .live } (fun c' ↦ ?_) rfl rfl rfl rfl
      (h.channelHost c ch hch) fun _ ↦ hactive ch hch
    rw [get_updateChannelStatus]
    split
    · rename_i heq
      rw [← heq, hch]
      rfl
    · rfl

theorem SessionInv.checkSessionDetached (hostId : String) :
    (s.checkSessionDetached hostId).SessionInv := by
  rw [SharedSessionContext.checkSessionDetached]
  split
  · exact h
  · rename_i i hi
    split
    · exact h
    · split
      · exact h
      · rename_i hlive
        refine h.updateSessionStatus (.inr ?_)
        -- No channel of the host is live.
        rintro c ch hch rfl hstatus
        obtain rfl :=
          Option.some.inj ((h.channelHost c ch hch).symm.trans (h.sessionHost hostId _ hi))
        refine absurd (OrderedMap.anyValue_eq_true.mpr ⟨c, ch, hch, ?_⟩) hlive
        simp [hstatus]

theorem SessionInv.leaveChannel (k : ℕ) (c : ChannelId) (ch : ChannelState) :
    (s.leaveChannel k c ch).SessionInv := by
  have hset : (s.modifySet ch.clients fun set ↦ set.delete k).SessionInv :=
    h.shrink (.of_same rfl rfl rfl rfl rfl)
  rw [SharedSessionContext.leaveChannel]
  split
  · exact (hset.shrink (shrinks_updateChannelStatus c (by decide))).checkSessionDetached _
  · exact hset

theorem SessionInv.detachClient (k : ℕ) (c : ChannelId) : (s.detachClient k c).SessionInv :=
  detachClient_rule h (fun ch _ ↦ h.leaveChannel k c ch) fun _ _ ht ↦
    ht.shrink (.of_same rfl rfl rfl rfl rfl)

theorem SessionInv.removeClient (k : ℕ) : (s.removeClient k).SessionInv :=
  removeClient_rule h (fun _ c ht ↦ ht.detachClient k c) fun _ _ ht ↦
    ht.shrink (.of_same rfl rfl rfl rfl rfl)

end

/-- A channel may become live in the session: it is active, where the host has a connected agent. -/
def MayLive (s : SharedSessionContext) (i : ℕ) : Prop :=
  ∀ hostId ∈ s.sessionHost i, s.agentConnected hostId = true → s.SessionActive i

instance (s : SharedSessionContext) (i : ℕ) : Decidable (s.MayLive i) :=
  by delta MayLive; infer_instance

theorem SessionInv.handleAttach (h : s.SessionInv) (k : ℕ)
    (hlive : ∀ ch ∈ s.channels.get c, ch.status = .orphan → s.MayLive ch.sessionId) :
    (s.handleAttach k c).SessionInv := by
  rw [SharedSessionContext.handleAttach]
  split
  · exact h
  · split
    · exact h
    · rename_i ch hch
      have hadd : ((s.modifySet ch.clients fun set ↦ set.add k).modifyClient k fun x ↦
          { x with attachedChannels := x.attachedChannels.add c }).SessionInv :=
        h.shrink (.of_same rfl rfl rfl rfl rfl)
      dsimp only
      split
      · rename_i horphan
        refine hadd.revive fun ch' hch' hconnected ↦ ?_
        cases hch.symm.trans hch'
        exact hlive ch hch horphan ch.hostId (h.channelHost c ch hch) hconnected
      · exact hadd

theorem SessionInv.spawned (h : s.SessionInv) (k : ℕ) (c : ChannelId) (elevated : Bool)
    (hlive : s.MayLive i) : (s.spawned k c i elevated).SessionInv := by
  rw [SharedSessionContext.spawned]
  split
  · rename_i session hsession hrow
    have hhost := sessionHost_of_state hsession
    exact h.put c ⟨i, session.hostId, .live, s.clientSets.length⟩ (fun c' ↦ OrderedMap.get_set ..)
      rfl rfl rfl rfl hhost fun _ ↦ hlive _ hhost
  · exact h

theorem SessionInv.respawned (h : s.SessionInv) (k : ℕ) (c : ChannelId) (hlive : s.MayLive i) :
    (s.respawned k c i).SessionInv := by
  rw [SharedSessionContext.respawned]
  split
  · exact h
  · rename_i session hsession
    have hhost := sessionHost_of_state hsession
    exact h.put c ⟨i, session.hostId, .live, s.clientSets.length⟩ (fun c' ↦ OrderedMap.get_set ..)
      rfl rfl rfl rfl hhost fun _ ↦ hlive _ hhost

theorem shrinks_setOrNew (clients : Option ℕ) : Shrinks s (s.setOrNew clients).1 :=
  setOrNew_rule .refl (.of_same rfl rfl rfl rfl rfl)

theorem shrinks_moveChannel (c previous : ChannelId) (i n : ℕ) (elevated : Bool) :
    Shrinks s (s.moveChannel c previous i n elevated) :=
  moveChannel_rule ((shrinks_retireChannel previous).trans (.of_same rfl rfl rfl rfl rfl))
    fun _ ht ↦ ht.trans (.of_same rfl rfl rfl rfl rfl)

/-- A restart sets a detached session to active. -/
theorem SessionInv.applyRestartState (h : s.SessionInv) (c previous : ChannelId)
    (clients : Option ℕ)
    (elevated : Bool) (hlive : s.sessionStatus i = some .detached ∨ s.MayLive i) :
    (s.applyRestartState c previous i clients elevated).SessionInv := by
  rw [SharedSessionContext.applyRestartState]
  split
  · exact h
  · rename_i session hsession
    have hset := shrinks_setOrNew (s := s) clients
    rcases hsn : s.setOrNew clients with ⟨u, n⟩
    rw [hsn] at hset
    have hu : u.SessionInv := h.shrink hset
    dsimp only
    -- The state with the channel, and its agents and sessions.
    obtain ⟨v, hv⟩ : ∃ v, v = if c = previous then u else u.moveChannel c previous i n elevated :=
      ⟨_, rfl⟩
    have hshrink : Shrinks s v := by
      rw [hv]
      split
      · exact hset
      · exact hset.trans (shrinks_moveChannel c previous i n elevated)
    have hsame : v.agents = s.agents ∧ v.closedAgents = s.closedAgents ∧
        v.sessions = s.sessions := by
      have hu' : u.agents = s.agents ∧ u.closedAgents = s.closedAgents ∧
          u.sessions = s.sessions := by
        have hsn' : u = (s.setOrNew clients).1 := by rw [hsn]
        rw [hsn']
        exact setOrNew_rule (motive := fun t ↦ t.agents = s.agents ∧
          t.closedAgents = s.closedAgents ∧ t.sessions = s.sessions)
          ⟨rfl, rfl, rfl⟩ ⟨rfl, rfl, rfl⟩
      rw [hv]
      split
      · exact hu'
      · rw [moveChannel]
        split <;> exact hu'
    rw [← hv]
    have hhost : v.sessionHost i = some session.hostId := by
      rw [SharedSessionContext.sessionHost, hshrink.sessionStates, hsession]
      rfl
    have hi : i < s.sessionStates.length := (List.getElem?_eq_some_iff.mp hsession).1
    split
    · rename_i hdetached
      -- Where the session was detached, it is activated first in the
      -- argument: the two writes commute.
      have hactive : (v.updateSessionStatus i .active).SessionInv :=
        (h.shrink hshrink).updateSessionStatus (.inl rfl)
      refine hactive.put c ⟨i, session.hostId, .live, n⟩ (fun c' ↦ OrderedMap.get_set ..)
        rfl rfl rfl rfl ?_ fun _ _ ↦ sessionActive_updateSessionStatus
          (by rw [hshrink.sessionStates]; exact hi)
      rw [sessionHost_updateSessionStatus]
      exact hhost
    · rename_i hnot
      refine (h.shrink hshrink).put c ⟨i, session.hostId, .live, n⟩
        (fun c' ↦ OrderedMap.get_set ..) rfl rfl rfl rfl hhost fun _ hconnected ↦ ?_
      have hmay : s.MayLive i := by
        rcases hlive with hdetached | hmay
        · rw [sessionStatus, hsession] at hdetached
          exact absurd (Option.some.inj hdetached) hnot
        · exact hmay
      rw [agentConnected, hsame.1, hsame.2.1] at hconnected
      have hhost' : s.sessionHost i = some session.hostId := by
        rw [SharedSessionContext.sessionHost, hsession]
        rfl
      obtain ⟨hrow, hstatus⟩ := hmay session.hostId hhost' hconnected
      refine ⟨?_, fun hcurrent ↦ ?_⟩
      · rw [sessionRow, hshrink.sessionStates]
        exact hrow
      · rw [sessionStatus, hshrink.sessionStates]
        refine hstatus ?_
        rw [hhost', ← hhost, ← hsame.2.2]
        exact hcurrent

theorem SessionInv.createSession (h : s.SessionInv) (hostId : String) :
    (s.createSession hostId).SessionInv := by
  refine ⟨fun c ch hch ↦ sessionHost_createSession (h.channelHost c ch hch),
    Hosted.createSession h.sessionHost hostId, fun c ch hch hlive hconnected ↦ ?_⟩
  have hj := lt_length_of_sessionHost (h.channelHost c ch hch)
  obtain ⟨hrow, hstatus⟩ := h.active c ch hch hlive hconnected
  refine ⟨?_, fun hcurrent ↦ ?_⟩
  · rw [sessionRow, getElem?_createSession hj]
    exact hrow
  · rw [sessionStatus, getElem?_createSession hj]
    refine hstatus ?_
    -- The session of the channel is not the new one.
    rw [sessionHost_createSession (h.channelHost c ch hch), Option.bind_some,
      SharedSessionContext.createSession, OrderedMap.get_set] at hcurrent
    rw [h.channelHost c ch hch, Option.bind_some]
    split at hcurrent
    · have heq := Option.some.inj hcurrent
      omega
    · exact hcurrent

/-- What a connected agent of a host asks for: its live channels are of active sessions. -/
theorem SessionInv.adoptAgent (h : s.SessionInv)
    (hactive : a ∉ s.closedAgents → ∀ c ch, s.channels.get c = some ch → ch.hostId = hostId →
      ch.status = .live → s.SessionActive ch.sessionId) : (s.adoptAgent hostId a).SessionInv where
  channelHost := h.channelHost
  sessionHost := h.sessionHost
  active c ch hch hlive hconnected := by
    rw [agentConnected, SharedSessionContext.adoptAgent, OrderedMap.get_set] at hconnected
    split at hconnected
    · rename_i heq
      rw [Option.any_some, decide_eq_true_iff] at hconnected
      exact hactive hconnected c ch hch heq.symm hlive
    · exact h.active c ch hch hlive hconnected

/-- The status that a channel has behind `reconcileChannelState`. -/
def reconciledStatus (s : SharedSessionContext) (hostId : String) (states : List (ChannelId × Bool))
    (c : ChannelId) (ch : ChannelState) : ChannelStatus :=
  (s.sessions.get hostId).elim ch.status fun j ↦
    reconciled hostId j ((states.filter Prod.snd).map Prod.fst) c ch

theorem get_reconcileChannelState (hostId : String) (states : List (ChannelId × Bool))
    (c : ChannelId) :
    (s.reconcileChannelState hostId states).channels.get c =
      (s.channels.get c).map fun ch ↦
        { ch with status := s.reconciledStatus hostId states c ch } := by
  rw [reconcileChannelState]
  unfold reconciledStatus
  split
  · rename_i hnone
    rw [hnone]
    rcases s.channels.get c with _ | ch <;> rfl
  · rename_i j hj
    rw [hj, get_setStatuses]
    rfl

/-- The channels of the host that are live behind an attach to a daemon are of active sessions. -/
def ReportsActive (s : SharedSessionContext) (i a : ℕ) (states : List (ChannelId × Bool)) : Prop :=
  ∀ session ∈ s.sessionStates[i]?, a ∉ s.closedAgents → ∀ c ch, s.channels.get c = some ch →
    ch.hostId = session.hostId → s.reconciledStatus session.hostId states c ch = .live →
      ch.sessionId = i ∨ s.SessionActive ch.sessionId

instance (s : SharedSessionContext) (i a : ℕ) (states : List (ChannelId × Bool)) :
    Decidable (s.ReportsActive i a states) :=
  by delta ReportsActive; infer_instance

theorem SessionInv.daemonReady (h : s.SessionInv) {states : List (ChannelId × Bool)}
    (hactive : s.ReportsActive i a states) : (s.daemonReady i a states).SessionInv := by
  rw [SharedSessionContext.daemonReady]
  split
  · exact h
  · rename_i session hsession
    obtain ⟨u, hu⟩ : ∃ u, u = s.reconcileChannelState session.hostId states := ⟨_, rfl⟩
    have hsame : u.agents = s.agents ∧ u.closedAgents = s.closedAgents ∧ u.sessions = s.sessions ∧
        u.sessionStates = s.sessionStates := by
      rw [hu, reconcileChannelState]
      split <;> exact ⟨rfl, rfl, rfl, rfl⟩
    obtain ⟨hagents, hclosed, hsessions, hstates⟩ := hsame
    have hget : ∀ c ch', u.channels.get c = some ch' → ∃ ch, s.channels.get c = some ch ∧
        ch' = { ch with status := s.reconciledStatus session.hostId states c ch } := by
      intro c ch' hch'
      rw [hu, get_reconcileChannelState, Option.map_eq_some_iff] at hch'
      obtain ⟨ch, hch, rfl⟩ := hch'
      exact ⟨ch, hch, rfl⟩
    have hsessionActive : ∀ j, s.SessionActive j → u.SessionActive j := by
      rintro j ⟨hrow, hstatus⟩
      refine ⟨by rw [sessionRow, hstates]; exact hrow, fun hcurrent ↦ ?_⟩
      rw [sessionStatus, hstates]
      rw [SharedSessionContext.sessionHost, hstates, hsessions] at hcurrent
      exact hstatus hcurrent
    have hi : i < u.sessionStates.length := by
      rw [hstates]
      exact (List.getElem?_eq_some_iff.mp hsession).1
    rw [← hu]
    refine ⟨fun c ch' hch' ↦ ?_, fun hostId j hj ↦ ?_, fun c ch' hch' hlive hconnected ↦ ?_⟩
    · obtain ⟨ch, hch, rfl⟩ := hget c ch' hch'
      rw [sessionHost_updateSessionStatus]
      change u.sessionHost ch.sessionId = some ch.hostId
      rw [SharedSessionContext.sessionHost, hstates]
      exact h.channelHost c ch hch
    · rw [sessionHost_updateSessionStatus]
      change u.sessionHost j = some hostId
      rw [SharedSessionContext.sessionHost, hstates]
      exact h.sessionHost hostId j (hsessions ▸ hj)
    · obtain ⟨ch, hch, rfl⟩ := hget c ch' hch'
      have hconnected : (u.adoptAgent session.hostId a).agentConnected ch.hostId = true :=
        hconnected
      rw [agentConnected, SharedSessionContext.adoptAgent, OrderedMap.get_set] at hconnected
      have hadopted : ∀ j, u.SessionActive j → (u.adoptAgent session.hostId a).SessionActive j :=
        fun _ ↦ id
      have hlive : s.reconciledStatus session.hostId states c ch = .live := hlive
      split at hconnected
      · rename_i heq
        rw [Option.any_some, decide_eq_true_iff, hclosed] at hconnected
        rcases hactive session hsession hconnected c ch hch heq.symm hlive with rfl | hsa
        · exact sessionActive_updateSessionStatus hi
        · exact (hadopted _ (hsessionActive _ hsa)).activate i
      · rename_i hne
        -- The channels of other hosts are as they were.
        have hstatus : ch.status = .live := by
          rw [reconciledStatus] at hlive
          rcases hj : s.sessions.get session.hostId with _ | j
          · rw [hj] at hlive
            exact hlive
          · rw [hj, Option.elim_some, reconciled, if_neg fun h' ↦ hne h'.1.symm] at hlive
            exact hlive
        rw [hagents, hclosed] at hconnected
        exact (hadopted _ (hsessionActive _ (h.active c ch hch hstatus hconnected))).activate i

theorem agentConnected_deleteAgent (hostId : String) :
    (s.deleteAgent hostId).agentConnected hostId = false := by
  rw [agentConnected, deleteAgent, OrderedMap.get_delete_self]
  rfl

theorem SessionInv.agentClosed (h : s.SessionInv) (hostId : String) (disconnects : Bool) :
    (s.agentClosed hostId disconnects).SessionInv := by
  have hdelete : (s.deleteAgent hostId).SessionInv := h.shrink (shrinks_deleteAgent hostId)
  rw [SharedSessionContext.agentClosed]
  split
  · exact hdelete
  · rename_i i hi
    split
    · exact hdelete.updateSessionStatus
        (.inr (hdelete.unused (hdelete.sessionHost hostId i hi)
          (agentConnected_deleteAgent hostId)))
    · exact hdelete

theorem get_killChannels (hostId : String) (c : ChannelId) :
    (s.killChannels hostId).channels.get c = (s.channels.get c).map fun ch ↦
      { ch with status := if ch.hostId = hostId ∧ ch.status ≠ .dead then .dead
        else ch.status } := by
  have hchannels : (s.killChannels hostId).channels = (s.setStatuses fun _ ch ↦
      if decide (ch.hostId = hostId ∧ ch.status ≠ .dead) = true then .dead
        else ch.status).channels :=
    killChannels_rule (motive := fun t ↦ t.channels = _) rfl fun _ _ ht ↦ ht
  rw [hchannels, get_setStatuses]
  simp only [decide_eq_true_iff]

section

variable (h : s.SessionInv)
include h

theorem SessionInv.closeSession (i : ℕ) : (s.closeSession i).SessionInv := by
  rw [SharedSessionContext.closeSession]
  split
  · exact h
  · rename_i session hsession
    have hkill : (s.killChannels session.hostId).SessionInv := h.shrink (shrinks_killChannels _)
    have hhost := sessionHost_of_state hsession
    have hclosed : ((s.killChannels session.hostId).updateSessionStatus i .closed).SessionInv := by
      refine hkill.updateSessionStatus (.inr ?_)
      -- The channels of the host are dead.
      rintro c ch hch rfl hlive
      rw [get_killChannels, Option.map_eq_some_iff] at hch
      obtain ⟨ch, hch, rfl⟩ := hch
      obtain hhost' := Option.some.inj ((h.channelHost c ch hch).symm.trans hhost)
      exfalso
      dsimp only at hlive
      split at hlive
      · cases hlive
      · rename_i hnot
        exact hnot ⟨hhost', by rw [hlive]; decide⟩
    exact hclosed.shrink (shrinks_deleteSession _)

theorem SessionInv.connectFailed (hunused : s.sessionStatus i = some .starting → s.Unused i) :
    (s.connectFailed i).SessionInv := by
  rw [SharedSessionContext.connectFailed]
  split
  · exact h
  · rename_i session hsession
    split
    · rename_i hstarting
      have hstatus : s.sessionStatus i = some .starting := by
        rw [sessionStatus, hsession, Option.map_some, hstarting]
      exact (h.updateSessionStatus (.inr (hunused hstatus))).shrink (shrinks_deleteSession _)
    · exact h

theorem SessionInv.abandonSession (i : ℕ) : (s.abandonSession i).SessionInv := by
  rw [SharedSessionContext.abandonSession]
  split
  · exact h
  · rename_i hostId hhost
    split
    · rename_i hguard
      have hnone : ∀ c ch, s.channels.get c = some ch → ch.sessionId ≠ i := by
        rintro c ch hch rfl
        have htrue : s.sessionHasChannels ch.sessionId = true :=
          OrderedMap.anyValue_eq_true.mpr ⟨c, ch, hch, by simp⟩
        exact Bool.noConfusion (htrue.symm.trans hguard.1)
      have hclose : ∀ t, Shrinks s t →
          ((t.updateSessionStatus i .closed).deleteSession hostId).SessionInv := by
        intro t ht
        refine SessionInv.shrink ((h.shrink ht).updateSessionStatus (.inr ?_))
          (shrinks_deleteSession hostId)
        rintro c ch' hch' hi -
        obtain ⟨ch, hch, -, hsession, -⟩ := ht.channels c ch' hch'
        exact absurd (hsession.symm.trans hi) (hnone c ch hch)
      rcases s.agents.get hostId with _ | a
      · exact hclose s .refl
      · exact hclose _ ((shrinks_closeAgent a).trans (shrinks_deleteAgent hostId))
    · exact h

theorem SessionInv.closeRow
    (hunused : (s.sessionHost i).bind s.sessions.get ≠ some i → s.Unused i) :
    (s.closeRow i).SessionInv := by
  by_cases hcurrent : (s.sessionHost i).bind s.sessions.get = some i
  · rw [SharedSessionContext.closeRow, if_pos hcurrent]
    exact h
  · rw [closeRow_eq hcurrent]
    exact h.updateSessionStatus (.inr (hunused hcurrent))

theorem SessionInv.activateSession (i : ℕ) : (s.activateSession i).SessionInv := by
  rw [SharedSessionContext.activateSession]
  split
  · exact h.updateSessionStatus (.inl rfl)
  · exact h

end

theorem agentConnected_of_restoring (h : s.restoring hostId = true) :
    s.agentConnected hostId = false := by
  rw [restoring, Bool.and_eq_true, Option.isNone_iff_eq_none] at h
  rw [agentConnected, h.2]
  rfl

theorem SessionInv.markDisconnected (h : s.SessionInv) (hostId : String) :
    (s.markDisconnected hostId).SessionInv := by
  rw [SharedSessionContext.markDisconnected]
  split
  · rename_i hrestoring
    have hagent := agentConnected_of_restoring hrestoring
    obtain ⟨f, hf⟩ : ∃ f : SessionState → SessionState, f = fun x ↦
        if x.hostId = hostId ∧ x.row ≠ .closed then { x with row := .disconnected } else x :=
          ⟨_, rfl⟩
    have hfhost : ∀ x, (f x).hostId = x.hostId := by
      intro x
      rw [hf]
      dsimp only
      split <;> rfl
    have hsessionHost : ∀ j, ({ s with sessionStates := s.sessionStates.map f } :
        SharedSessionContext).sessionHost j = s.sessionHost j := by
      intro j
      rw [SharedSessionContext.sessionHost, SharedSessionContext.sessionHost, List.getElem?_map,
        Option.map_map]
      exact congrArg (fun g ↦ Option.map g s.sessionStates[j]?) (funext hfhost)
    rw [← hf]
    refine ⟨fun c ch hch ↦ ?_, fun hostId' j hj ↦ ?_, fun c ch hch hlive hconnected ↦ ?_⟩
    · rw [hsessionHost]
      exact h.channelHost c ch hch
    · rw [hsessionHost]
      exact h.sessionHost hostId' j hj
    · -- The host of the channel has an agent, so that it is another one.
      have hconnected : s.agentConnected ch.hostId = true := hconnected
      have hne : ch.hostId ≠ hostId := by
        rintro heq
        rw [heq, hagent] at hconnected
        cases hconnected
      obtain ⟨hrow, hstatus⟩ := h.active c ch hch hlive hconnected
      have hhost := h.channelHost c ch hch
      rw [SharedSessionContext.sessionHost, Option.map_eq_some_iff] at hhost
      obtain ⟨x, hx, hxhost⟩ := hhost
      have hfx : f x = x := by
        rw [hf]
        dsimp only
        rw [if_neg fun h' ↦ hne (hxhost.symm.trans h'.1)]
      have hsame : (s.sessionStates.map f)[ch.sessionId]? = s.sessionStates[ch.sessionId]? := by
        rw [List.getElem?_map, hx, Option.map_some, hfx]
      refine ⟨?_, fun hcurrent ↦ ?_⟩
      · rw [sessionRow, hsame]
        exact hrow
      · rw [sessionStatus, hsame]
        rw [hsessionHost] at hcurrent
        exact hstatus hcurrent
  · exact h

/-- `restoreHost` up to the channels. -/
theorem SessionInv.restoreSession (h : s.SessionInv) {session : SessionState}
    (hsession : s.sessionStates[i]? = some session)
    (hrestoring : s.restoring session.hostId = true) :
    SessionInv { s with
      sessions := s.sessions.set session.hostId i
      sessionStates := s.sessionStates.modify i fun x ↦ { x with status := .disconnected } } := by
  obtain ⟨t, ht⟩ : ∃ t : SharedSessionContext, t = { s with
      sessions := s.sessions.set session.hostId i
      sessionStates :=
        s.sessionStates.modify i fun x ↦ { x with status := .disconnected } } := ⟨_, rfl⟩
  have hreopens : Reopens s t i := ⟨congrArg sessionStates ht⟩
  have hhost := sessionHost_of_state hsession
  have hchannels : t.channels = s.channels := by rw [ht]
  rw [← ht]
  refine ⟨fun c ch hch ↦ ?_, hreopens.hosted h.sessionHost hsession (congrArg sessions ht),
    fun c ch hch hlive hconnected ↦ ?_⟩
  · rw [hreopens.sessionHost]
    exact h.channelHost c ch (hchannels ▸ hch)
  · have hch : s.channels.get c = some ch := hchannels ▸ hch
    have hconnected : s.agentConnected ch.hostId = true := by
      rw [agentConnected, ht] at hconnected
      exact hconnected
    -- The host that is restored has no agent.
    have hne : ch.hostId ≠ session.hostId := by
      rintro heq
      rw [heq, agentConnected_of_restoring hrestoring] at hconnected
      cases hconnected
    have hij : i ≠ ch.sessionId := by
      rintro rfl
      exact hne (Option.some.inj ((h.channelHost c ch hch).symm.trans hhost))
    have hsame : t.sessionStates[ch.sessionId]? = s.sessionStates[ch.sessionId]? := by
      rw [hreopens.getElem?]
      simp [hij]
    obtain ⟨hrow, hstatus⟩ := h.active c ch hch hlive hconnected
    refine ⟨?_, fun hcurrent ↦ ?_⟩
    · rw [sessionRow, hsame]
      exact hrow
    · rw [sessionStatus, hsame]
      refine hstatus ?_
      rw [hreopens.sessionHost, h.channelHost c ch hch, Option.bind_some, ht, OrderedMap.get_set,
        if_neg hne.symm] at hcurrent
      rw [h.channelHost c ch hch]
      exact hcurrent

theorem SessionInv.restoreHost (h : s.SessionInv) (i : ℕ) (alive : List ChannelId) :
    (s.restoreHost i alive).SessionInv := by
  have hall : (s.restoreHost i alive).SessionInv ∧
      (s.restoreHost i alive).sessionHost i = s.sessionHost i := by
    refine restoreHost_rule
      (motive := fun t ↦ t.SessionInv ∧ t.sessionHost i = s.sessionHost i) ⟨h, rfl⟩
      fun session hsession hrestoring _ ↦ ?_
    have hhost := sessionHost_of_state hsession
    refine ⟨⟨h.restoreSession hsession hrestoring, ?_⟩, fun t c _ ⟨ht, hsame⟩ ↦ ⟨?_, hsame⟩⟩
    · exact Reopens.sessionHost ⟨rfl⟩ i
    · exact ht.put c ⟨i, session.hostId, .orphan, t.clientSets.length⟩
        (fun c' ↦ OrderedMap.get_set ..) rfl rfl rfl rfl (hsame.trans hhost) nofun
  exact hall.1

/-! ## All operations -/

/-- What goes wrong is excluded: a channel that becomes live in a session that is not active while
the host has an agent, an agent of a host with live channels in other sessions, and a session that
is closed while it has live channels. -/
def SessionCareful (s : SharedSessionContext) : ContextAction → Prop
  | .handleAttach k c =>
    s.isConnected k = true → ∀ ch ∈ s.channels.get c, ch.status = .orphan →
      s.sessionRow ch.sessionId ≠ some .detached ∧ s.MayLive ch.sessionId
  | .spawned _ c i _ => s.channelRows.get c = none → s.MayLive i
  | .respawned _ _ i => s.MayLive i
  | .applyRestartState _ _ i _ _ => s.sessionStatus i = some .detached ∨ s.MayLive i
  | .hostSpawned reAttach c n =>
    reAttach = true → (s.clientSet n).isEmpty = false →
      ∀ ch ∈ s.channels.get c, s.MayLive ch.sessionId
  | .adoptAgent hostId a =>
    a ∉ s.closedAgents → ∀ c ch, s.channels.get c = some ch → ch.hostId = hostId →
      ch.status = .live → s.SessionActive ch.sessionId
  | .daemonReady i a states => s.ReportsActive i a states
  | .connectFailed i => s.sessionStatus i = some .starting → s.Unused i
  | .closeRow i => (s.sessionHost i).bind s.sessions.get ≠ some i → s.Unused i
  | _ => True

instance (s : SharedSessionContext) (a : ContextAction) : Decidable (s.SessionCareful a) := by
  apply a.casesOn (motive := fun a ↦ Decidable (s.SessionCareful a)) <;>
    intros <;> dsimp only [SessionCareful] <;> infer_instance

/-- **Careful actions keep sessions with live channels active.** -/
theorem SessionInv.apply (h : s.SessionInv) (a : ContextAction) (ha : s.SessionCareful a) :
    (s.apply a).SessionInv := by
  cases a with
  | beginQuit =>
    rw [SharedSessionContext.apply]
    split
    · exact h
    · exact h.shrink (.of_same rfl rfl rfl rfl rfl)
  | addClient =>
    rw [SharedSessionContext.apply]
    split
    · exact h.shrink (.of_same rfl rfl rfl rfl rfl)
    · exact h
  | removeClient k => exact h.removeClient k
  | detachClient k c => exact h.detachClient k c
  | handleAttach k c =>
    rw [SharedSessionContext.apply]
    by_cases hk : s.isConnected k = true
    · exact h.handleAttach k fun ch hch horphan ↦ (ha hk ch hch horphan).2
    · rw [SharedSessionContext.handleAttach, if_pos (Bool.eq_false_iff.mpr hk)]
      exact h
  | attachRejected k c n =>
    exact (h.shrink (shrinks_retireChannel c)).shrink (.of_same rfl rfl rfl rfl rfl)
  | spawned k c i elevated =>
    rw [SharedSessionContext.apply]
    by_cases hrow : s.channelRows.get c = none
    · exact h.spawned k c elevated (ha hrow)
    · rw [SharedSessionContext.spawned]
      split
      · rename_i hnone
        exact absurd hnone hrow
      · exact h
  | respawned k c i => exact h.respawned k c ha
  | applyRestartState c previous i clients elevated =>
    exact h.applyRestartState c previous clients elevated ha
  | destroyChannel c => exact h.shrink (shrinks_destroyChannel c)
  | markRowDead c =>
    rw [SharedSessionContext.apply]
    split
    · exact h
    · exact h.shrink (.of_same rfl rfl rfl rfl rfl)
  | purgeRow c =>
    rw [SharedSessionContext.apply]
    split
    · exact h.shrink (.of_same rfl rfl rfl rfl rfl)
    · exact h
  | channelExit c =>
    rw [SharedSessionContext.apply]
    split
    · have hdead : (s.updateChannelStatus c .dead).SessionInv :=
        h.shrink (shrinks_updateChannelStatus c (by decide))
      exact hdead.shrink (.of_same rfl rfl rfl rfl rfl)
    · exact h.shrink (.of_same rfl rfl rfl rfl rfl)
  | hostSpawned reAttach c n =>
    rw [SharedSessionContext.apply, hostSpawned]
    split
    · rename_i hlive
      have hinv : (s.updateChannelStatus c .live).SessionInv :=
        h.revive fun ch hch ↦ ha hlive.1 hlive.2 ch hch ch.hostId (h.channelHost c ch hch)
      exact hinv.shrink (.of_same rfl rfl rfl rfl rfl)
    · exact h.shrink (.of_same rfl rfl rfl rfl rfl)
  | hostSpawnFailed c => exact h.shrink (shrinks_updateChannelStatus c (by decide))
  | createSession hostId => exact h.createSession hostId
  | activateSession i => exact h.activateSession i
  | adoptAgent hostId a => exact h.adoptAgent ha
  | daemonReady i a states => exact h.daemonReady ha
  | closeAgent a => exact h.shrink (shrinks_closeAgent a)
  | deleteAgent hostId => exact h.shrink (shrinks_deleteAgent hostId)
  | agentClosed hostId disconnects => exact h.agentClosed hostId disconnects
  | closeSession i => exact h.closeSession i
  | connectFailed i => exact h.connectFailed ha
  | dropSession i =>
    rw [SharedSessionContext.apply, dropSession]
    split
    · exact h
    · split
      · exact h.shrink (shrinks_deleteSession _)
      · exact h
  | abandonSession i => exact h.abandonSession i
  | closeRow i => exact h.closeRow ha
  | markDisconnected hostId => exact h.markDisconnected hostId
  | restoreHost i alive => exact h.restoreHost i alive
  | bury alive => exact h.shrink (shrinks_bury alive)
  | _ => exact h.shrink (.of_same rfl rfl rfl rfl rfl)

theorem sessionInv_opened (db : Database) : (opened db).SessionInv where
  channelHost := nofun
  sessionHost := nofun
  active := nofun

/-! ## Runs -/

/-- A session with a live channel on a connected agent is active, in its row and, while it is
current, in its object. -/
def SessionFollows (s : SharedSessionContext) : Prop :=
  ∀ c ch, s.channels.get c = some ch → ch.status = .live → s.agentConnected ch.hostId = true →
    s.sessionRow ch.sessionId = some .active ∧
      (s.sessions.get ch.hostId = some ch.sessionId → s.sessionStatus ch.sessionId = some .active)

theorem SessionInv.sessionFollows (h : s.SessionInv) : s.SessionFollows := by
  intro c ch hch hlive hconnected
  obtain ⟨hrow, hstatus⟩ := h.active c ch hch hlive hconnected
  refine ⟨hrow, fun hcurrent ↦ hstatus ?_⟩
  rw [h.channelHost c ch hch]
  exact hcurrent

/-- A client that attaches to an orphan channel of a detached session brings the session back. -/
def Reactivates (s : SharedSessionContext) (a : ContextAction) (t : SharedSessionContext) : Prop :=
  ∀ k c ch, a = .handleAttach k c → s.isConnected k = true → s.channels.get c = some ch →
    ch.status = .orphan → s.sessionRow ch.sessionId = some .detached →
      t.sessionRow ch.sessionId = some .active

end SharedSessionContext

namespace SessionHub

open Runs

/-- **Session status follows its channels**, in every state that careful actions lead to. -/
theorem sessionStatus_of_careful {db : Database} {es : List Event} :
    ∀ h, run step (start db) es = some h → h.Issued SharedSessionContext.SessionCareful →
      h.ctx.SessionFollows ∧ h.journal.All SharedSessionContext.Reactivates := by
  intro h _ hcareful
  have hinv : h.ctx.SessionInv :=
    ctx_invariant _ (fun s a hs ha ↦ hs.apply a ha)
      (SharedSessionContext.sessionInv_opened db) hcareful
  refine ⟨hinv.sessionFollows, ?_⟩
  refine Journal.all_of_invariant (fun _ ↦ True) (fun s a _ ha ↦ ⟨trivial, ?_⟩) trivial hcareful
  -- A careful attach finds no detached session.
  rintro k c ch rfl hk hch horphan hdetached
  exact absurd hdetached (ha hk ch hch horphan).1

/-- A client gets a channel, and leaves: the session is detached. -/
theorem sessionStatus_of_careful_detached :
    ∃ h, run step (start (.ofHost "desk" .daemon))
        (spawning ++ [.resume 0 (.spawnOk "c"), .detach 0 "c"]) = some h ∧
      h.ctx.sessionRow 0 = some .detached ∧
      (h.ctx.SessionFollows ∧ h.journal.All SharedSessionContext.Reactivates) :=
  ⟨_, rfl, rfl, @sessionStatus_of_careful _ (spawning ++ [.resume 0 (.spawnOk "c"), .detach 0 "c"])
    _ rfl (by decide)⟩

/-- A client attaches to the channel of a detached session, which stays detached. -/
theorem detached_with_live_channel :
    ∃ h, run step (start (.ofHost "desk" .daemon)) (leaving ++ [.attach 0 "c"]) = some h ∧
      ¬ (h.ctx.SessionFollows ∧ h.journal.All SharedSessionContext.Reactivates) := by
  refine ⟨_, rfl, fun h ↦ ?_⟩
  obtain ⟨hrow, -⟩ := h.1 "c" _ rfl rfl rfl
  cases hrow

end SessionHub

end Lasterm.Hub
