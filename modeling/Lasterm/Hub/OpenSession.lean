import Lasterm.Hub.ChannelRows
import Lasterm.Hub.SessionStatus

/-!
# One open session for each host

A host has at most one session whose row is not closed: that of `ctx.sessions`. The channels of the
host that are not dead are of this session, in memory and in the database. Sessions are created
where the one that is current is not reused, and a session that is detached is not, although its row
is open. `OpenCareful` rules this out, with the pieces of code that act on a session that is no
longer current.

Before the routes are registered, a host may still be as the last hub has left it (`Untouched`).
-/

namespace Lasterm.Hub

namespace SharedSessionContext

variable {s t u : SharedSessionContext} {k n i j a : ℕ} {c c' : ChannelId} {ch : ChannelState}
  {hostId : String}

/-- The row of the session is not closed. -/
def Open (s : SharedSessionContext) (i : ℕ) : Prop :=
  ∃ row ∈ s.sessionRow i, row ≠ SessionStatus.closed

instance (s : SharedSessionContext) (i : ℕ) : Decidable (s.Open i) :=
  inferInstanceAs (Decidable (∃ row ∈ s.sessionRow i, row ≠ SessionStatus.closed))

/-- The session of a channel is current and open, and the row of the channel has it, too. -/
def Carries (s : SharedSessionContext) (c : ChannelId) (ch : ChannelState) : Prop :=
  s.sessions.get ch.hostId = some ch.sessionId ∧ s.Open ch.sessionId ∧
    (s.channelRows.get c).map ChannelRow.sessionId = some ch.sessionId

instance (s : SharedSessionContext) (c : ChannelId) (ch : ChannelState) :
    Decidable (s.Carries c ch) :=
  inferInstanceAs (Decidable (_ ∧ _ ∧ _))

structure OneOpen (s : SharedSessionContext) (hostId : String) : Prop where
  current : ∀ i, s.sessionHost i = some hostId → s.Open i → s.sessions.get hostId = some i
  channels : ∀ c ch, s.channels.get c = some ch → ch.hostId = hostId → ch.status ≠ .dead →
    s.Carries c ch

/-- `startup` has not come to the host. -/
structure Untouched (s : SharedSessionContext) (hostId : String) : Prop where
  early : s.serving = false
  session : s.sessions.get hostId = none
  channels : ∀ c ch, s.channels.get c = some ch → ch.hostId ≠ hostId

/-- The invariant. -/
structure OpenInv (s : SharedSessionContext) : Prop where
  sessionHost : ∀ hostId i, s.sessions.get hostId = some i → s.sessionHost i = some hostId
  hosts : ∀ hostId, s.Untouched hostId ∨ s.OneOpen hostId

/-! ## What leaves a host alone -/

/-- For the host, nothing but that channels have died or are gone. -/
structure HostFrame (hostId : String) (s t : SharedSessionContext) : Prop where
  serving : t.serving = s.serving
  session : t.sessions.get hostId = s.sessions.get hostId
  sessionHost : ∀ i host, s.sessionHost i = some host → t.sessionHost i = some host
  opened : ∀ i, t.sessionHost i = some hostId → t.Open i → s.sessionHost i = some hostId ∧ s.Open i
  kept : ∀ i, s.sessionHost i = some hostId → s.Open i → t.Open i
  channels : ∀ c ch', t.channels.get c = some ch' → ch'.hostId = hostId →
    ∃ ch, s.channels.get c = some ch ∧ ch.hostId = hostId ∧ ch.sessionId = ch'.sessionId ∧
      (ch'.status ≠ .dead → ch.status ≠ .dead ∧
        (t.channelRows.get c).map ChannelRow.sessionId =
          (s.channelRows.get c).map ChannelRow.sessionId)

theorem HostFrame.trans (h : HostFrame hostId s t) (h' : HostFrame hostId t u) :
    HostFrame hostId s u where
  serving := h'.serving.trans h.serving
  session := h'.session.trans h.session
  sessionHost i host hi := h'.sessionHost i host (h.sessionHost i host hi)
  opened i hi ho := by
    obtain ⟨hi, ho⟩ := h'.opened i hi ho
    exact h.opened i hi ho
  kept i hi ho := h'.kept i (h.sessionHost i hostId hi) (h.kept i hi ho)
  channels c ch'' hch'' hhost'' := by
    obtain ⟨ch', hch', hhost', hsession', hrest'⟩ := h'.channels c ch'' hch'' hhost''
    obtain ⟨ch, hch, hhost, hsession, hrest⟩ := h.channels c ch' hch' hhost'
    refine ⟨ch, hch, hhost, hsession.trans hsession', fun hdead ↦ ?_⟩
    obtain ⟨hdead', hrow'⟩ := hrest' hdead
    obtain ⟨hdead'', hrow⟩ := hrest hdead'
    exact ⟨hdead'', hrow'.trans hrow⟩

theorem HostFrame.untouched (h : HostFrame hostId s t) (hs : s.Untouched hostId) :
    t.Untouched hostId where
  early := h.serving.trans hs.early
  session := h.session.trans hs.session
  channels c ch' hch' hhost' := by
    obtain ⟨ch, hch, hhost, -⟩ := h.channels c ch' hch' hhost'
    exact hs.channels c ch hch hhost

theorem OneOpen.frame (hs : s.OneOpen hostId) (h : HostFrame hostId s t)
    (hown : ∀ i, s.sessions.get hostId = some i → s.sessionHost i = some hostId) :
    t.OneOpen hostId where
  current i hi ho := by
    obtain ⟨hi, ho⟩ := h.opened i hi ho
    rw [h.session]
    exact hs.current i hi ho
  channels c ch' hch' hhost' hdead' := by
    obtain ⟨ch, hch, hhost, hsession, hrest⟩ := h.channels c ch' hch' hhost'
    obtain ⟨hdead, hrow⟩ := hrest hdead'
    obtain ⟨hcurrent, ho, hrow'⟩ := hs.channels c ch hch hhost hdead
    rw [hhost] at hcurrent
    rw [Carries, ← hsession, hhost', h.session, hrow]
    exact ⟨hcurrent, h.kept _ (hown _ hcurrent) ho, hrow'⟩

theorem OpenInv.frame (h : s.OpenInv) (ht : ∀ hostId, HostFrame hostId s t) : t.OpenInv where
  sessionHost hostId i hi := by
    rw [(ht hostId).session] at hi
    exact (ht hostId).sessionHost i hostId (h.sessionHost hostId i hi)
  hosts hostId := by
    rcases h.hosts hostId with hu | ho
    · exact .inl ((ht hostId).untouched hu)
    · exact .inr (ho.frame (ht hostId) (h.sessionHost hostId))

theorem HostFrame.of_same (hserving : t.serving = s.serving) (hsessions : t.sessions = s.sessions)
    (hstates : t.sessionStates = s.sessionStates) (hchannels : t.channels = s.channels)
    (hrows : ∀ c, (s.channels.get c).isSome = true →
      (t.channelRows.get c).map ChannelRow.sessionId =
      (s.channelRows.get c).map ChannelRow.sessionId) : HostFrame hostId s t := by
  have hopen : ∀ i, t.Open i ↔ s.Open i :=
    fun i ↦ by rw [Open, Open, sessionRow, sessionRow, hstates]
  have hhost : ∀ i, t.sessionHost i = s.sessionHost i := fun i ↦ by
    rw [SharedSessionContext.sessionHost, SharedSessionContext.sessionHost, hstates]
  refine ⟨hserving, by rw [hsessions], fun i host hi ↦ (hhost i).trans hi,
    fun i hi ho ↦ ⟨(hhost i).symm.trans hi, (hopen i).mp ho⟩, fun i _ ho ↦ (hopen i).mpr ho,
    fun c ch' hch' hhost' ↦ ?_⟩
  rw [hchannels] at hch'
  exact ⟨ch', hch', hhost', rfl, fun hdead ↦ ⟨hdead, hrows c (by rw [hch']; rfl)⟩⟩

/-- Nothing of what the invariant is about has changed. -/
theorem HostFrame.of_eq (hserving : t.serving = s.serving) (hsessions : t.sessions = s.sessions)
    (hstates : t.sessionStates = s.sessionStates) (hchannels : t.channels = s.channels)
    (hrows : t.channelRows = s.channelRows) : HostFrame hostId s t :=
  .of_same hserving hsessions hstates hchannels fun _ _ ↦ by rw [hrows]

theorem HostFrame.refl : HostFrame hostId s s := .of_eq rfl rfl rfl rfl rfl

/-- Writing the status of a row leaves the session of the row. -/
theorem rowSession_modify {rows : OrderedMap ChannelId ChannelRow} {status : ChannelStatus} :
    ((rows.modify c fun row ↦ { row with status := status }).get c').map ChannelRow.sessionId =
      (rows.get c').map ChannelRow.sessionId := by
  rw [OrderedMap.get_modify]
  split
  · rw [Option.map_map]
    rfl
  · rfl

theorem hostFrame_updateRow (c : ChannelId) (status : ChannelStatus) :
    HostFrame hostId s (s.updateRow c status) :=
  .of_same rfl rfl rfl rfl fun _ _ ↦ rowSession_modify

theorem hostFrame_setStatuses {f : ChannelId → ChannelState → ChannelStatus}
    (hf : ∀ c ch, s.channels.get c = some ch → f c ch ≠ .dead → ch.status ≠ .dead) :
    HostFrame hostId s (s.setStatuses f) := by
  have hrows : ∀ c, ((s.setStatuses f).channelRows.get c).map ChannelRow.sessionId =
      (s.channelRows.get c).map ChannelRow.sessionId := by
    intro c
    rw [setStatuses, OrderedMap.get_mapValues, Option.map_map]
    congr 1
    funext row
    dsimp only [Function.comp]
    split
    · rfl
    · split <;> rfl
  refine ⟨rfl, rfl, fun _ _ ↦ id, fun _ hi ho ↦ ⟨hi, ho⟩, fun _ _ ↦ id, fun c ch' hch' hhost' ↦ ?_⟩
  rw [get_setStatuses, Option.map_eq_some_iff] at hch'
  obtain ⟨ch, hch, rfl⟩ := hch'
  exact ⟨ch, hch, hhost', rfl, fun hdead ↦ ⟨hf c ch hch hdead, hrows c⟩⟩

theorem hostFrame_updateChannelStatus (c : ChannelId) {status : ChannelStatus}
    (hstatus : status = .dead ∨ ∀ ch, s.channels.get c = some ch → ch.status ≠ .dead) :
    HostFrame hostId s (s.updateChannelStatus c status) := by
  refine ⟨rfl, rfl, fun _ _ ↦ id, fun _ hi ho ↦ ⟨hi, ho⟩, fun _ _ ↦ id, fun c' ch' hch' hhost' ↦ ?_⟩
  rw [get_updateChannelStatus] at hch'
  split at hch'
  · rename_i heq
    subst heq
    rw [Option.map_eq_some_iff] at hch'
    obtain ⟨ch, hch, rfl⟩ := hch'
    refine ⟨ch, hch, hhost', rfl, fun hdead ↦ ⟨?_, rowSession_modify⟩⟩
    rcases hstatus with rfl | hstatus
    · exact absurd rfl hdead
    · exact hstatus ch hch
  · exact ⟨ch', hch', hhost', rfl, fun hdead ↦ ⟨hdead, rowSession_modify⟩⟩

theorem hostFrame_deleteChannel (c : ChannelId) : HostFrame hostId s (s.deleteChannel c) := by
  refine ⟨rfl, rfl, fun _ _ ↦ id, fun _ hi ho ↦ ⟨hi, ho⟩, fun _ _ ↦ id, fun c' ch' hch' hhost' ↦ ?_⟩
  rw [deleteChannel, OrderedMap.get_delete] at hch'
  split at hch'
  · cases hch'
  · exact ⟨ch', hch', hhost', rfl, fun hdead ↦ ⟨hdead, rfl⟩⟩

theorem hostFrame_retireChannel (c : ChannelId) : HostFrame hostId s (s.retireChannel c) := by
  have hdead : HostFrame hostId s (s.updateChannelStatus c .dead) :=
    hostFrame_updateChannelStatus c (.inl rfl)
  have hrest : HostFrame hostId (s.updateChannelStatus c .dead) (((s.updateChannelStatus c
      .dead).modifyMembers (s.members c) fun set ↦ set.delete c).untrackChannel c) :=
    .of_eq rfl rfl rfl rfl rfl
  exact (hdead.trans hrest).trans (hostFrame_deleteChannel c)

theorem hostFrame_destroyChannel (c : ChannelId) : HostFrame hostId s (s.destroyChannel c) := by
  rw [destroyChannel]
  split
  · exact .refl
  · have hdead : HostFrame hostId s (s.updateChannelStatus c .dead) :=
      hostFrame_updateChannelStatus c (.inl rfl)
    have hrest : HostFrame hostId (s.updateChannelStatus c .dead)
        ((s.updateChannelStatus c .dead).untrackChannel c) := .of_eq rfl rfl rfl rfl rfl
    exact (hdead.trans hrest).trans (hostFrame_deleteChannel c)

theorem hostFrame_killChannels (host : String) : HostFrame hostId s (s.killChannels host) := by
  refine killChannels_rule (hostFrame_setStatuses fun c ch hch hdead ↦ ?_) fun _ _ ht ↦
    ht.trans (.of_eq rfl rfl rfl rfl rfl)
  split at hdead
  · exact absurd rfl hdead
  · exact hdead

theorem hostFrame_bury (alive : List ChannelId) : HostFrame hostId s (s.bury alive) :=
  bury_rule .refl fun _ c ht ↦ ht.trans (hostFrame_updateChannelStatus c (.inl rfl))

theorem hostFrame_reconcileChannelState (host : String) (states : List (ChannelId × Bool)) :
    HostFrame hostId s (s.reconcileChannelState host states) := by
  rw [reconcileChannelState]
  split
  · exact .refl
  · refine hostFrame_setStatuses fun c ch hch hdead ↦ ?_
    rw [reconciled] at hdead
    split at hdead
    · split at hdead
      · split at hdead
        · rename_i horphan
          rw [horphan]
          decide
        · exact hdead
      · exact absurd rfl hdead
    · exact hdead

/-! ## Sessions -/

theorem open_updateSessionStatus {st : SessionStatus} :
    (s.updateSessionStatus i st).Open j ↔
      if i = j then st ≠ .closed ∧ j < s.sessionStates.length else s.Open j := by
  rw [Open, sessionRow_updateSessionStatus]
  split
  · rw [sessionRow]
    constructor
    · rintro ⟨row, hrow, hne⟩
      rw [Option.mem_def, Option.map_eq_some_iff] at hrow
      obtain ⟨row', hrow', rfl⟩ := hrow
      rw [Option.map_eq_some_iff] at hrow'
      obtain ⟨x, hx, -⟩ := hrow'
      exact ⟨hne, (List.getElem?_eq_some_iff.mp hx).1⟩
    · rintro ⟨hne, hlt⟩
      refine ⟨st, ?_, hne⟩
      rw [List.getElem?_eq_getElem hlt]
      rfl
  · exact Iff.rfl

/-- A status that leaves a current session open. -/
theorem OpenInv.updateSessionStatus (h : s.OpenInv) {st : SessionStatus} (hst : st ≠ .closed)
    (hcurrent : (s.sessionHost i).bind s.sessions.get = some i) :
    (s.updateSessionStatus i st).OpenInv := by
  rw [Option.bind_eq_some_iff] at hcurrent
  obtain ⟨host, hhost, hcurrent⟩ := hcurrent
  have hopen : ∀ j, s.Open j → (s.updateSessionStatus i st).Open j := by
    rintro j hj
    rw [open_updateSessionStatus]
    split
    · obtain ⟨row, hrow, -⟩ := hj
      rw [Option.mem_def, sessionRow, Option.map_eq_some_iff] at hrow
      obtain ⟨x, hx, -⟩ := hrow
      exact ⟨hst, (List.getElem?_eq_some_iff.mp hx).1⟩
    · exact hj
  refine ⟨fun hostId j hj ↦ ?_, fun hostId ↦ ?_⟩
  · rw [sessionHost_updateSessionStatus]
    exact h.sessionHost hostId j hj
  · rcases h.hosts hostId with hu | ho
    · exact .inl ⟨hu.early, hu.session, hu.channels⟩
    · refine .inr ⟨fun j hj hopen' ↦ ?_, fun c ch hch hhost' hdead ↦ ?_⟩
      · rw [sessionHost_updateSessionStatus] at hj
        rw [open_updateSessionStatus] at hopen'
        split at hopen'
        · rename_i heq
          subst heq
          cases hhost.symm.trans hj
          exact hcurrent
        · exact ho.current j hj hopen'
      · obtain ⟨hcur, hopen', hrow⟩ := ho.channels c ch hch hhost' hdead
        exact ⟨hcur, hopen _ hopen', hrow⟩

/-- A session that is closed and leaves `ctx.sessions`, where no other session of the host is open
and the channels of the host are dead. -/
theorem OpenInv.close (h : s.OpenInv) {host : String} (hhost : s.sessionHost i = some host)
    (hother : ∀ j ∈ s.sessions.get host, j = i ∨ ¬ s.Open j)
    (hdead : ∀ c ch, s.channels.get c = some ch → ch.hostId = host → ch.status = .dead) :
    ((s.updateSessionStatus i .closed).deleteSession host).OpenInv := by
  refine ⟨fun hostId j hj ↦ ?_, fun hostId ↦ ?_⟩
  · change (s.sessions.delete host).get hostId = some j at hj
    rw [OrderedMap.get_delete] at hj
    change (s.updateSessionStatus i .closed).sessionHost j = some hostId
    rw [sessionHost_updateSessionStatus]
    split at hj
    · cases hj
    · exact h.sessionHost hostId j hj
  · rcases h.hosts hostId with hu | ho
    · refine .inl ⟨hu.early, ?_, hu.channels⟩
      change (s.sessions.delete host).get hostId = none
      rw [OrderedMap.get_delete]
      split
      · rfl
      · exact hu.session
    · refine .inr ⟨fun j hj hopen ↦ ?_, fun c ch hch hhost' hlive ↦ ?_⟩
      · change (s.updateSessionStatus i .closed).sessionHost j = some hostId at hj
        change (s.updateSessionStatus i .closed).Open j at hopen
        change (s.sessions.delete host).get hostId = some j
        rw [sessionHost_updateSessionStatus] at hj
        rw [open_updateSessionStatus] at hopen
        split at hopen
        · exact absurd rfl hopen.1
        · rename_i hne
          have hcurrent := ho.current j hj hopen
          rw [OrderedMap.get_delete, if_neg]
          · exact hcurrent
          · rintro rfl
            rcases hother j hcurrent with rfl | hnot
            · exact hne rfl
            · exact hnot hopen
      · have hne : host ≠ hostId := by
          rintro rfl
          exact hlive (hdead c ch hch hhost')
        obtain ⟨hcurrent, hopen, hrow⟩ := ho.channels c ch hch hhost' hlive
        refine ⟨?_, ?_, hrow⟩
        · change (s.sessions.delete host).get ch.hostId = some ch.sessionId
          rw [OrderedMap.get_delete, if_neg (by rw [hhost']; exact hne)]
          exact hcurrent
        · change (s.updateSessionStatus i .closed).Open ch.sessionId
          rw [open_updateSessionStatus, if_neg]
          · exact hopen
          · -- The session of the channel is of another host.
            rintro rfl
            have hown := h.sessionHost _ _ hcurrent
            exact hne (Option.some.inj (hhost.symm.trans (hown.trans (congrArg some hhost'))))

/-- A session that leaves `ctx.sessions`, and is not open. -/
theorem OpenInv.deleteSession (h : s.OpenInv) {host : String}
    (hnone : ∀ j ∈ s.sessions.get host, ¬ s.Open j) :
    (s.deleteSession host).OpenInv := by
  refine ⟨fun hostId j hj ↦ ?_, fun hostId ↦ ?_⟩
  · rw [SharedSessionContext.deleteSession, OrderedMap.get_delete] at hj
    split at hj
    · cases hj
    · exact h.sessionHost hostId j hj
  · rcases h.hosts hostId with hu | ho
    · refine .inl ⟨hu.early, ?_, hu.channels⟩
      rw [SharedSessionContext.deleteSession, OrderedMap.get_delete]
      split
      · rfl
      · exact hu.session
    · have hkeep : ∀ j, s.sessions.get hostId = some j → s.Open j →
          (s.deleteSession host).sessions.get hostId = some j := by
        intro j hj hopen
        rw [SharedSessionContext.deleteSession, OrderedMap.get_delete, if_neg]
        · exact hj
        · rintro rfl
          exact hnone j hj hopen
      refine .inr ⟨fun j hj hopen ↦ hkeep j (ho.current j hj hopen) hopen,
        fun c ch hch hhost hlive ↦ ?_⟩
      obtain ⟨hcurrent, hopen, hrow⟩ := ho.channels c ch hch hhost hlive
      refine ⟨?_, hopen, hrow⟩
      rw [hhost] at hcurrent ⊢
      exact hkeep _ hcurrent hopen

/-- A new session, where no session of the host is open. -/
theorem OpenInv.createSession (h : s.OpenInv)
    (hnone : ∀ i, s.sessionHost i = some hostId → ¬ s.Open i) :
    (s.createSession hostId).OpenInv := by
  -- A session of the new state is an old one, or the new one.
  have hold : ∀ j host, (s.createSession hostId).sessionHost j = some host →
      s.sessionHost j = some host ∨ j = s.sessionStates.length ∧ host = hostId := by
    intro j host hj
    by_cases hj' : j < s.sessionStates.length
    · rw [SharedSessionContext.sessionHost, getElem?_createSession hj'] at hj
      exact .inl hj
    · have hj'' := lt_length_of_sessionHost hj
      have hlen : (s.createSession hostId).sessionStates.length = s.sessionStates.length + 1 :=
        List.length_append
      obtain rfl : j = s.sessionStates.length := by omega
      rw [SharedSessionContext.sessionHost, state_createSession] at hj
      exact .inr ⟨rfl, (Option.some.inj hj).symm⟩
  have hopen : ∀ j, j < s.sessionStates.length → ((s.createSession hostId).Open j ↔ s.Open j) := by
    intro j hj
    rw [Open, Open, sessionRow, sessionRow, getElem?_createSession hj]
  refine ⟨Hosted.createSession h.sessionHost hostId, fun hostId' ↦ ?_⟩
  · by_cases heq : hostId = hostId'
    · subst heq
      have hdead : ∀ c ch, s.channels.get c = some ch → ch.hostId = hostId → ch.status = .dead := by
        intro c ch hch hch'
        by_contra hlive
        rcases h.hosts hostId with hu | ho
        · exact hu.channels c ch hch hch'
        · obtain ⟨hcurrent, hopen', -⟩ := ho.channels c ch hch hch' hlive
          rw [hch'] at hcurrent
          exact hnone _ (h.sessionHost _ _ hcurrent) hopen'
      refine .inr ⟨fun j hj hopen' ↦ ?_,
        fun c ch hch hch' hlive ↦ absurd (hdead c ch hch hch') hlive⟩
      rcases hold j hostId hj with hj | ⟨rfl, -⟩
      · exact absurd ((hopen j (lt_length_of_sessionHost hj)).mp hopen') (hnone j hj)
      · exact OrderedMap.get_set_self ..
    · have hget : (s.createSession hostId).sessions.get hostId' = s.sessions.get hostId' :=
        OrderedMap.get_set_of_ne _ _ heq
      rcases h.hosts hostId' with hu | ho
      · exact .inl ⟨hu.early, hget.trans hu.session, hu.channels⟩
      · refine .inr ⟨fun j hj hopen' ↦ ?_, fun c ch hch hch' hlive ↦ ?_⟩
        · rcases hold j hostId' hj with hj | ⟨-, rfl⟩
          · rw [hget]
            exact ho.current j hj ((hopen j (lt_length_of_sessionHost hj)).mp hopen')
          · exact absurd rfl heq
        · obtain ⟨hcurrent, hopen', hrow⟩ := ho.channels c ch hch hch' hlive
          have hcurrent' := hcurrent
          rw [hch'] at hcurrent'
          have hlt := lt_length_of_sessionHost (h.sessionHost _ _ hcurrent')
          refine ⟨?_, (hopen _ hlt).mpr hopen', hrow⟩
          rw [hch', hget]
          exact hcurrent'

/-! ## Channels -/

/-- A channel that is put there, and carries the session of its host. -/
theorem OpenInv.put (h : s.OpenInv) (c : ChannelId) (ch : ChannelState)
    (hget : ∀ c', t.channels.get c' = if c = c' then some ch else s.channels.get c')
    (hserving : t.serving = s.serving) (hsessions : t.sessions = s.sessions)
    (hstates : t.sessionStates = s.sessionStates)
    (hrows : ∀ c', c' ≠ c → (t.channelRows.get c').map ChannelRow.sessionId =
      (s.channelRows.get c').map ChannelRow.sessionId) (hcarries : t.Carries c ch) : t.OpenInv := by
  have hopen : ∀ i, t.Open i ↔ s.Open i :=
    fun i ↦ by rw [Open, Open, sessionRow, sessionRow, hstates]
  have hhost : ∀ i, t.sessionHost i = s.sessionHost i := fun i ↦ by
    rw [SharedSessionContext.sessionHost, SharedSessionContext.sessionHost, hstates]
  refine ⟨fun hostId j hj ↦ ?_, fun hostId ↦ ?_⟩
  · rw [hhost]
    exact h.sessionHost hostId j (hsessions ▸ hj)
  · rcases h.hosts hostId with hu | ho
    · refine .inl ⟨hserving.trans hu.early, hsessions ▸ hu.session, fun c' ch' hch' ↦ ?_⟩
      rw [hget] at hch'
      split at hch'
      · cases hch'
        rintro rfl
        have hsome := hcarries.1
        rw [hsessions, hu.session] at hsome
        cases hsome
      · exact hu.channels c' ch' hch'
    · refine .inr ⟨fun j hj hopen' ↦ ?_, fun c' ch' hch' hhost' hlive ↦ ?_⟩
      · rw [hsessions]
        exact ho.current j ((hhost j).symm.trans hj) ((hopen j).mp hopen')
      · rw [hget] at hch'
        split at hch'
        · rename_i heq
          subst heq
          cases hch'
          exact hcarries
        · rename_i hne
          obtain ⟨hcurrent, hopen', hrow⟩ := ho.channels c' ch' hch' hhost' hlive
          exact ⟨by rw [hsessions]; exact hcurrent, (hopen _).mpr hopen',
            (hrows c' (Ne.symm hne)).trans hrow⟩

/-- The session is that in `ctx.sessions`. -/
def Current (s : SharedSessionContext) (i : ℕ) : Prop :=
  (s.sessionHost i).bind s.sessions.get = some i

instance (s : SharedSessionContext) (i : ℕ) : Decidable (s.Current i) :=
  inferInstanceAs (Decidable (_ = _))

/-- A session that may get a channel. -/
def CurrentOpen (s : SharedSessionContext) (i : ℕ) : Prop := s.Current i ∧ s.Open i

instance (s : SharedSessionContext) (i : ℕ) : Decidable (s.CurrentOpen i) :=
  inferInstanceAs (Decidable (_ ∧ _))

theorem CurrentOpen.get (h : s.CurrentOpen i) {session : SessionState}
    (hsession : s.sessionStates[i]? = some session) : s.sessions.get session.hostId = some i := by
  have hcurrent := h.1
  rw [Current, sessionHost, hsession] at hcurrent
  exact hcurrent

theorem OpenInv.revive (h : s.OpenInv) (hcarries : ∀ ch ∈ s.channels.get c, s.Carries c ch) :
    (s.updateChannelStatus c .live).OpenInv := by
  rcases hch : s.channels.get c with _ | ch
  · exact h.frame fun hostId ↦ hostFrame_updateChannelStatus c
      (.inr fun ch hch' ↦ by rw [hch] at hch'; cases hch')
  · refine h.put c { ch with status := .live } (fun c' ↦ ?_) rfl rfl rfl
      (fun _ _ ↦ rowSession_modify) ?_
    · rw [get_updateChannelStatus]
      split
      · rename_i heq
        rw [← heq, hch]
        rfl
      · rfl
    · obtain ⟨hcurrent, hopen, hrow⟩ := hcarries ch hch
      exact ⟨hcurrent, hopen, rowSession_modify.trans hrow⟩

theorem OpenInv.spawned (h : s.OpenInv) (k : ℕ) (c : ChannelId) (elevated : Bool)
    (hopen : s.channelRows.get c = none → s.CurrentOpen i) :
    (s.spawned k c i elevated).OpenInv := by
  rw [SharedSessionContext.spawned]
  split
  · rename_i session hsession hrow
    have hcurrent := hopen hrow
    have hrow' : ∀ c', (((s.channelRows.set c ⟨i, .born, elevated⟩).modify c fun row ↦
        { row with status := .live }).get c').map ChannelRow.sessionId =
          if c = c' then some i else (s.channelRows.get c').map ChannelRow.sessionId := by
      intro c'
      rw [rowSession_modify, OrderedMap.get_set]
      split <;> rfl
    refine h.put c ⟨i, session.hostId, .live, s.clientSets.length⟩
      (fun c' ↦ OrderedMap.get_set ..) rfl rfl rfl (fun c' hne ↦ ?_)
      ⟨hcurrent.get hsession, hcurrent.2, ?_⟩
    · exact (hrow' c').trans (if_neg (Ne.symm hne))
    · exact (hrow' c).trans (if_pos rfl)
  · exact h

theorem OpenInv.respawned (h : s.OpenInv) (k : ℕ) (c : ChannelId) (hopen : s.CurrentOpen i)
    (hrow : (s.channelRows.get c).map ChannelRow.sessionId = some i) :
    (s.respawned k c i).OpenInv := by
  rw [SharedSessionContext.respawned]
  split
  · exact h
  · rename_i session hsession
    exact h.put c ⟨i, session.hostId, .live, s.clientSets.length⟩
      (fun c' ↦ OrderedMap.get_set ..) rfl rfl rfl (fun c' _ ↦ rowSession_modify)
      ⟨hopen.get hsession, hopen.2, rowSession_modify.trans hrow⟩

/-- The row of the channel of a restart has the session, or is created with it. -/
def RestartCarries (s : SharedSessionContext) (c previous : ChannelId) (i : ℕ) : Prop :=
  s.CurrentOpen i ∧ ((s.channelRows.get c).map ChannelRow.sessionId).elim (c ≠ previous) (· = i)

instance (s : SharedSessionContext) (c previous : ChannelId) (i : ℕ) :
    Decidable (s.RestartCarries c previous i) := by
  unfold RestartCarries
  rcases (s.channelRows.get c).map ChannelRow.sessionId with _ | j <;>
    dsimp only [Option.elim] <;> infer_instance

theorem hostFrame_setOrNew (clients : Option ℕ) : HostFrame hostId s (s.setOrNew clients).1 :=
  setOrNew_rule .refl (.of_eq rfl rfl rfl rfl rfl)

theorem OpenInv.applyRestartState (h : s.OpenInv) {previous : ChannelId} (clients : Option ℕ)
    (elevated : Bool) (hcarries : s.RestartCarries c previous i) :
    (s.applyRestartState c previous i clients elevated).OpenInv := by
  obtain ⟨hopen, hrow⟩ := hcarries
  rw [SharedSessionContext.applyRestartState]
  split
  · exact h
  · rename_i session hsession
    have hset : ∀ hostId, HostFrame hostId s (s.setOrNew clients).1 :=
      fun hostId ↦ hostFrame_setOrNew clients
    rcases hsn : s.setOrNew clients with ⟨u, n⟩
    rw [hsn] at hset
    have hurows : u.channelRows = s.channelRows := by
      have hu : u = (s.setOrNew clients).1 := by rw [hsn]
      rw [hu]
      exact setOrNew_rule (motive := fun t ↦ t.channelRows = s.channelRows) rfl rfl
    dsimp only
    obtain ⟨v, hv⟩ : ∃ v, v = if c = previous then u else u.moveChannel c previous i n elevated :=
      ⟨_, rfl⟩
    rw [← hv]
    -- The state in front of the INSERT, and the session of the row behind it.
    obtain ⟨w, hw, hchannels, hserving, hsessions, hstates, hrows, hrow'⟩ :
        ∃ w, (∀ hostId, HostFrame hostId s w) ∧ v.channels = w.channels ∧ v.serving = w.serving ∧
          v.sessions = w.sessions ∧ v.sessionStates = w.sessionStates ∧
          (∀ c', c' ≠ c → v.channelRows.get c' = w.channelRows.get c') ∧
          (v.channelRows.get c).map ChannelRow.sessionId = some i := by
      by_cases heq : c = previous
      · rw [if_pos heq] at hv
        refine ⟨u, hset, by rw [hv], by rw [hv], by rw [hv], by rw [hv], fun _ _ ↦ by rw [hv], ?_⟩
        rw [hv, hurows]
        rcases hc : s.channelRows.get c with _ | row
        · rw [hc] at hrow
          exact absurd heq hrow
        · rw [hc] at hrow
          exact congrArg some hrow
      · rw [if_neg heq] at hv
        obtain ⟨w, hw⟩ : ∃ w, w = (u.retireChannel previous).modifyMembers (u.clientSet n) fun set ↦
            (set.delete previous).add c := ⟨_, rfl⟩
        have hframe : ∀ hostId, HostFrame hostId s w := by
          intro hostId
          rw [hw]
          exact ((hset hostId).trans (hostFrame_retireChannel previous)).trans
            (.of_eq rfl rfl rfl rfl rfl)
        have hwrow : (w.channelRows.get c).map ChannelRow.sessionId =
            (s.channelRows.get c).map ChannelRow.sessionId := by
          rw [hw, ← hurows]
          exact rowSession_modify
        have hvw : v = if (w.channelRows.get c).isSome then w
            else w.createChannel c ⟨i, .born, elevated⟩ := by
          rw [hv, hw, moveChannel]
        rcases hc : w.channelRows.get c with _ | row
        · rw [hc, if_neg (by decide)] at hvw
          refine ⟨w, hframe, by rw [hvw]; rfl, by rw [hvw]; rfl, by rw [hvw]; rfl, by rw [hvw]; rfl,
            fun c' hne ↦ ?_, ?_⟩
          · rw [hvw]
            exact OrderedMap.get_set_of_ne _ _ hne.symm
          · rw [hvw, createChannel, OrderedMap.get_set_self]
            rfl
        · rw [hc] at hvw
          replace hvw : v = w := hvw
          refine ⟨w, hframe, by rw [hvw], by rw [hvw], by rw [hvw], by rw [hvw],
            fun _ _ ↦ by rw [hvw],
            ?_⟩
          rw [hvw, hwrow]
          rw [hc] at hwrow
          rw [← hwrow] at hrow
          rw [← hwrow]
          exact congrArg some hrow
    have hcurrent : v.sessions.get session.hostId = some i := by
      rw [hsessions, (hw session.hostId).session]
      exact hopen.get hsession
    have hhost := sessionHost_of_state hsession
    have hvopen : v.Open i := by
      rw [Open, sessionRow, hstates]
      exact (hw session.hostId).kept i hhost hopen.2
    have hput : (((v.updateRow c .live).putChannel c ⟨i, session.hostId, .live, n⟩).trackChannel
        c).OpenInv := by
      refine (h.frame hw).put c ⟨i, session.hostId, .live, n⟩ (fun c' ↦ ?_) hserving
        hsessions hstates (fun c' hne ↦ ?_) ⟨hcurrent, hvopen, rowSession_modify.trans hrow'⟩
      · rw [← hchannels]
        exact OrderedMap.get_set ..
      · rw [← hrows c' hne]
        exact rowSession_modify
    split
    · refine hput.updateSessionStatus (by decide) ?_
      have hvhost : v.sessionHost i = some session.hostId := by
        rw [SharedSessionContext.sessionHost, hstates]
        exact (hw session.hostId).sessionHost i _ hhost
      change (v.sessionHost i).bind v.sessions.get = some i
      rw [hvhost, Option.bind_some]
      exact hcurrent
    · exact hput

/-! ## Clients -/

theorem OpenInv.checkSessionDetached (h : s.OpenInv) (hostId : String) :
    (s.checkSessionDetached hostId).OpenInv := by
  rw [SharedSessionContext.checkSessionDetached]
  split
  · exact h
  · rename_i i hi
    split
    · exact h
    · split
      · exact h
      · refine h.updateSessionStatus (by decide) ?_
        rw [h.sessionHost hostId i hi, Option.bind_some]
        exact hi

theorem OpenInv.leaveChannel (h : s.OpenInv) (k : ℕ) (hch : s.channels.get c = some ch) :
    (s.leaveChannel k c ch).OpenInv := by
  have hset : ∀ hostId, HostFrame hostId s (s.modifySet ch.clients fun set ↦ set.delete k) :=
    fun hostId ↦ .of_eq rfl rfl rfl rfl rfl
  rw [SharedSessionContext.leaveChannel]
  split
  · rename_i hlive
    refine OpenInv.checkSessionDetached (h.frame fun hostId ↦ (hset hostId).trans ?_) _
    refine hostFrame_updateChannelStatus c (.inr fun ch' hch' ↦ ?_)
    cases hch.symm.trans hch'
    rw [hlive.2]
    decide
  · exact h.frame hset

theorem OpenInv.detachClient (h : s.OpenInv) (k : ℕ) (c : ChannelId) :
    (s.detachClient k c).OpenInv :=
  detachClient_rule h (fun _ hch ↦ h.leaveChannel k hch) fun _ _ ht ↦ ht.frame fun _ ↦
    .of_eq rfl rfl rfl rfl rfl

theorem OpenInv.removeClient (h : s.OpenInv) (k : ℕ) : (s.removeClient k).OpenInv :=
  removeClient_rule h (fun _ c ht ↦ ht.detachClient k c) fun _ _ ht ↦ ht.frame fun _ ↦
    .of_eq rfl rfl rfl rfl rfl

theorem hostFrame_handleAttach (k : ℕ) (c : ChannelId) :
    HostFrame hostId s (s.handleAttach k c) := by
  rw [handleAttach]
  split
  · exact .refl
  · split
    · exact .refl
    · rename_i ch hch
      have hadd : HostFrame hostId s ((s.modifySet ch.clients fun set ↦ set.add k).modifyClient k
          fun x ↦ { x with attachedChannels := x.attachedChannels.add c }) :=
        .of_eq rfl rfl rfl rfl rfl
      dsimp only
      split
      · rename_i horphan
        refine hadd.trans (hostFrame_updateChannelStatus c (.inr fun ch' hch' ↦ ?_))
        cases hch.symm.trans hch'
        rw [horphan]
        decide
      · exact hadd

/-! ## Agents and their ends -/

theorem OpenInv.daemonReady (h : s.OpenInv) {states : List (ChannelId × Bool)}
    (hcurrent : s.Current i) :
    (s.daemonReady i a states).OpenInv := by
  rw [SharedSessionContext.daemonReady]
  split
  · exact h
  · rename_i session hsession
    have hreconcile : ∀ hostId,
        HostFrame hostId s (s.reconcileChannelState session.hostId states) :=
      fun hostId ↦ hostFrame_reconcileChannelState session.hostId states
    have hadopt :
        ((s.reconcileChannelState session.hostId states).adoptAgent session.hostId a).OpenInv :=
      h.frame fun hostId ↦ (hreconcile hostId).trans (.of_eq rfl rfl rfl rfl rfl)
    refine hadopt.updateSessionStatus (by decide) ?_
    have hhost := sessionHost_of_state hsession
    rw [Current, hhost, Option.bind_some] at hcurrent
    change ((s.reconcileChannelState session.hostId states).sessionHost i).bind
      (s.reconcileChannelState session.hostId states).sessions.get = some i
    rw [(hreconcile session.hostId).sessionHost i _ hhost, Option.bind_some,
      (hreconcile session.hostId).session]
    exact hcurrent

theorem OpenInv.agentClosed (h : s.OpenInv) (hostId : String) (disconnects : Bool) :
    (s.agentClosed hostId disconnects).OpenInv := by
  have hdelete : (s.deleteAgent hostId).OpenInv := h.frame fun hostId ↦ .of_eq rfl rfl rfl rfl rfl
  rw [SharedSessionContext.agentClosed]
  split
  · exact hdelete
  · rename_i i hi
    split
    · refine hdelete.updateSessionStatus (by decide) ?_
      rw [hdelete.sessionHost hostId i hi, Option.bind_some]
      exact hi
    · exact hdelete

theorem OpenInv.activateSession (h : s.OpenInv) (i : ℕ) : (s.activateSession i).OpenInv := by
  rw [SharedSessionContext.activateSession]
  split
  · rename_i hcurrent
    exact h.updateSessionStatus (by decide) hcurrent
  · exact h

/-- Where the session has this number, or is not open. -/
def MayClose (s : SharedSessionContext) (i : ℕ) : Prop :=
  ∀ j ∈ (s.sessionHost i).bind s.sessions.get, j = i ∨ ¬ s.Open j

instance (s : SharedSessionContext) (i : ℕ) : Decidable (s.MayClose i) :=
  by delta MayClose; infer_instance

theorem OpenInv.closeSession (h : s.OpenInv) (hmay : s.MayClose i) :
    (s.closeSession i).OpenInv := by
  rw [SharedSessionContext.closeSession]
  split
  · exact h
  · rename_i session hsession
    have hkill : ∀ hostId, HostFrame hostId s (s.killChannels session.hostId) :=
      fun hostId ↦ hostFrame_killChannels session.hostId
    have hhost := sessionHost_of_state hsession
    have hkilled : (s.killChannels session.hostId).sessionHost i = some session.hostId :=
      (hkill session.hostId).sessionHost i _ hhost
    rw [MayClose, hhost, Option.bind_some] at hmay
    refine (h.frame hkill).close hkilled (fun j hj ↦ ?_) fun c ch' hch' hhost' ↦ ?_
    · rw [(hkill session.hostId).session] at hj
      rcases hmay j hj with rfl | hnot
      · exact .inl rfl
      · refine .inr fun hopen ↦ hnot ?_
        have hj' := (hkill session.hostId).sessionHost j _ (h.sessionHost _ j hj)
        exact ((hkill session.hostId).opened j hj' hopen).2
    · rw [get_killChannels, Option.map_eq_some_iff] at hch'
      obtain ⟨ch, hch, rfl⟩ := hch'
      dsimp only at hhost' ⊢
      split
      · rfl
      · rename_i hnot
        by_contra hlive
        exact hnot ⟨hhost', hlive⟩

/-- The channels of the host are dead. -/
def AllDead (s : SharedSessionContext) (hostId : String) : Prop :=
  ∀ c ch, s.channels.get c = some ch → ch.hostId = hostId → ch.status = .dead

instance (s : SharedSessionContext) (hostId : String) : Decidable (s.AllDead hostId) :=
  by delta AllDead; infer_instance

theorem OpenInv.connectFailed (h : s.OpenInv)
    (hmay : s.sessionStatus i = some .starting → s.MayClose i ∧
      ∀ hostId ∈ s.sessionHost i, s.AllDead hostId) :
    (s.connectFailed i).OpenInv := by
  rw [SharedSessionContext.connectFailed]
  split
  · exact h
  · rename_i session hsession
    split
    · rename_i hstarting
      have hhost := sessionHost_of_state hsession
      have hstatus : s.sessionStatus i = some .starting := by
        rw [sessionStatus, hsession, Option.map_some, hstarting]
      obtain ⟨hmay, hdead⟩ := hmay hstatus
      rw [MayClose, hhost, Option.bind_some] at hmay
      exact h.close hhost hmay (hdead _ hhost)
    · exact h

theorem OpenInv.dropSession (h : s.OpenInv) (hnot : s.Current i → ¬ s.Open i) :
    (s.dropSession i).OpenInv := by
  rw [SharedSessionContext.dropSession]
  split
  · exact h
  · rename_i hostId hhost
    split
    · rename_i hcurrent
      refine h.deleteSession fun j hj ↦ ?_
      cases hcurrent.symm.trans hj
      refine hnot ?_
      rw [Current, hhost, Option.bind_some]
      exact hcurrent
    · exact h

theorem OpenInv.abandonSession (h : s.OpenInv) (i : ℕ) : (s.abandonSession i).OpenInv := by
  rw [SharedSessionContext.abandonSession]
  split
  · exact h
  · rename_i hostId hhost
    split
    · rename_i hguard
      obtain ⟨hnone, hcurrent⟩ := hguard
      -- A channel of the host that is not dead would be of the session.
      have hdead : ∀ c ch, s.channels.get c = some ch → ch.hostId = hostId → ch.status = .dead := by
        intro c ch hch hch'
        by_contra hlive
        rcases h.hosts hostId with hu | ho
        · exact hu.channels c ch hch hch'
        · obtain ⟨hget, -, -⟩ := ho.channels c ch hch hch' hlive
          rw [hch'] at hget
          cases hcurrent.symm.trans hget
          have htrue : s.sessionHasChannels ch.sessionId = true :=
            OrderedMap.anyValue_eq_true.mpr ⟨c, ch, hch, by simp⟩
          exact Bool.noConfusion (htrue.symm.trans hnone)
      have hclose : ∀ t, (∀ hostId, HostFrame hostId s t) → t.sessionHost i = some hostId →
          t.sessions = s.sessions → t.channels = s.channels →
          ((t.updateSessionStatus i .closed).deleteSession hostId).OpenInv := by
        intro t ht hthost hsessions hchannels
        refine (h.frame ht).close hthost (fun j hj ↦ .inl ?_) ?_
        · rw [hsessions] at hj
          exact Option.some.inj (hj.symm.trans hcurrent)
        · rw [hchannels]
          exact hdead
      rcases s.agents.get hostId with _ | a
      · exact hclose s (fun _ ↦ .refl) hhost rfl rfl
      · exact hclose _ (fun _ ↦ .of_eq rfl rfl rfl rfl rfl) hhost rfl rfl
    · exact h

theorem OpenInv.closeRow (h : s.OpenInv) (i : ℕ) : (s.closeRow i).OpenInv := by
  by_cases hcurrent : s.Current i
  · rw [Current] at hcurrent
    rw [SharedSessionContext.closeRow, if_pos hcurrent]
    exact h
  · rw [closeRow_eq hcurrent]
    refine ⟨fun hostId j hj ↦ ?_, fun hostId ↦ ?_⟩
    · rw [sessionHost_updateSessionStatus]
      exact h.sessionHost hostId j hj
    · rcases h.hosts hostId with hu | ho
      · exact .inl ⟨hu.early, hu.session, hu.channels⟩
      · refine .inr ⟨fun j hj hopen ↦ ?_, fun c ch hch hhost hlive ↦ ?_⟩
        · rw [sessionHost_updateSessionStatus] at hj
          rw [open_updateSessionStatus] at hopen
          split at hopen
          · exact absurd rfl hopen.1
          · exact ho.current j hj hopen
        · obtain ⟨hget, hopen, hrow⟩ := ho.channels c ch hch hhost hlive
          refine ⟨hget, ?_, hrow⟩
          rw [open_updateSessionStatus, if_neg]
          · exact hopen
          · rintro rfl
            refine hcurrent ?_
            rw [Current, h.sessionHost _ _ hget, Option.bind_some]
            exact hget

/-! ## Startup -/

theorem hostFrame_markDisconnected (host : String) :
    HostFrame hostId s (s.markDisconnected host) := by
  rw [markDisconnected]
  split
  · obtain ⟨f, hf⟩ : ∃ f : SessionState → SessionState, f = fun x ↦
        if x.hostId = host ∧ x.row ≠ .closed then { x with row := .disconnected } else x := ⟨_, rfl⟩
    have hhost : ∀ x, (f x).hostId = x.hostId := by
      intro x
      rw [hf]
      dsimp only
      split <;> rfl
    have hrow : ∀ x, (f x).row ≠ .closed ↔ x.row ≠ .closed := by
      intro x
      rw [hf]
      dsimp only
      split
      · rename_i hopen
        exact ⟨fun _ ↦ hopen.2, fun _ ↦ by simp⟩
      · exact Iff.rfl
    rw [← hf]
    have hsessionHost : ∀ i, ({ s with sessionStates := s.sessionStates.map f } :
        SharedSessionContext).sessionHost i = s.sessionHost i := by
      intro i
      rw [sessionHost, sessionHost, List.getElem?_map, Option.map_map]
      exact congrArg (fun g ↦ Option.map g s.sessionStates[i]?) (funext hhost)
    have hopen : ∀ i, ({ s with sessionStates := s.sessionStates.map f } :
        SharedSessionContext).Open i ↔ s.Open i := by
      intro i
      rw [Open, Open, sessionRow, sessionRow, List.getElem?_map]
      rcases s.sessionStates[i]? with _ | x
      · exact Iff.rfl
      · simpa using hrow x
    exact ⟨rfl, rfl, fun i host' hi ↦ (hsessionHost i).trans hi,
      fun i hi ho ↦ ⟨(hsessionHost i).symm.trans hi, (hopen i).mp ho⟩, fun i _ ho ↦
        (hopen i).mpr ho,
      fun c ch hch hch' ↦ ⟨ch, hch, hch', rfl, fun hdead ↦ ⟨hdead, rfl⟩⟩⟩
  · exact .refl

/-- What `startup` finds for a host: no other open session, and rows of this session. -/
def Restorable (s : SharedSessionContext) (i : ℕ) (alive : List ChannelId) : Prop :=
  (∀ j ∈ List.range s.sessionStates.length, s.sessionHost j = s.sessionHost i → s.Open j → j = i) ∧
    ∀ c ∈ alive, (s.channelRows.get c).map ChannelRow.sessionId = some i

instance (s : SharedSessionContext) (i : ℕ) (alive : List ChannelId) :
    Decidable (s.Restorable i alive) :=
  inferInstanceAs (Decidable (_ ∧ _))

theorem OpenInv.restoreSession (h : s.OpenInv) {session : SessionState}
    (hsession : s.sessionStates[i]? = some session)
    (honly : ∀ j, s.sessionHost j = some session.hostId → s.Open j → j = i) :
    OpenInv { s with
      sessions := s.sessions.set session.hostId i
      sessionStates := s.sessionStates.modify i fun x ↦ { x with status := .disconnected } } := by
  obtain ⟨t, ht⟩ : ∃ t : SharedSessionContext, t = { s with
      sessions := s.sessions.set session.hostId i
      sessionStates :=
        s.sessionStates.modify i fun x ↦ { x with status := .disconnected } } := ⟨_, rfl⟩
  have hreopens : Reopens s t i := ⟨congrArg sessionStates ht⟩
  have hopen : ∀ j, t.Open j ↔ s.Open j := by
    intro j
    rw [Open, Open, hreopens.sessionRow]
  have hget : ∀ hostId, t.sessions.get hostId =
      if session.hostId = hostId then some i else s.sessions.get hostId := by
    intro hostId
    rw [ht]
    exact OrderedMap.get_set ..
  have hchannels : t.channels = s.channels := by rw [ht]
  have hrows : t.channelRows = s.channelRows := by rw [ht]
  have hserving : t.serving = s.serving := by rw [ht]
  rw [← ht]
  refine ⟨hreopens.hosted h.sessionHost hsession (congrArg sessions ht), fun hostId ↦ ?_⟩
  · by_cases heq : session.hostId = hostId
    · subst heq
      refine .inr ⟨fun j hj ho ↦ ?_, fun c ch hch hch' hlive ↦ ?_⟩
      · rw [hget, if_pos rfl, honly j ((hreopens.sessionHost j).symm.trans hj) ((hopen j).mp ho)]
      · rw [hchannels] at hch
        rcases h.hosts session.hostId with hu | ho
        · exact absurd hch' (hu.channels c ch hch)
        · -- The session of the channel is open, so that it is this one.
          obtain ⟨hcurrent, ho', hrow⟩ := ho.channels c ch hch hch' hlive
          rw [hch'] at hcurrent
          have hi := honly _ (h.sessionHost _ _ hcurrent) ho'
          refine ⟨?_, (hopen _).mpr ho', by rw [hrows]; exact hrow⟩
          rw [hget, if_pos hch'.symm, hi]
    · rcases h.hosts hostId with hu | ho
      · refine .inl ⟨hserving.trans hu.early, ?_, by rw [hchannels]; exact hu.channels⟩
        rw [hget, if_neg heq]
        exact hu.session
      · refine .inr ⟨fun j hj ho' ↦ ?_, fun c ch hch hch' hlive ↦ ?_⟩
        · rw [hget, if_neg heq]
          exact ho.current j ((hreopens.sessionHost j).symm.trans hj) ((hopen j).mp ho')
        · rw [hchannels] at hch
          obtain ⟨hcurrent, ho', hrow⟩ := ho.channels c ch hch hch' hlive
          refine ⟨?_, (hopen _).mpr ho', by rw [hrows]; exact hrow⟩
          rw [hget, if_neg (by rw [hch']; exact heq)]
          exact hcurrent

theorem OpenInv.restoreHost (h : s.OpenInv) {alive : List ChannelId}
    (hrestorable : s.serving = false → s.Open i → s.Restorable i alive) :
    (s.restoreHost i alive).OpenInv := by
  have hfold : ∀ (cs : List ChannelId) (hostId : String) {t : SharedSessionContext}, t.OpenInv →
      t.sessions.get hostId = some i → t.Open i →
      (∀ c ∈ cs, (t.channelRows.get c).map ChannelRow.sessionId = some i) →
      (cs.foldl (fun t c ↦ ((t.updateRow c .orphan).newSet .empty).putChannel c
        ⟨i, hostId, .orphan, t.clientSets.length⟩) t).OpenInv := by
    intro cs hostId
    induction cs with
    | nil => exact fun ht _ _ _ ↦ ht
    | cons c cs ih =>
      intro t ht hcurrent hopen hrows
      refine ih ?_ hcurrent hopen fun c' hc' ↦ ?_
      · exact ht.put c ⟨i, hostId, .orphan, t.clientSets.length⟩
          (fun c' ↦ OrderedMap.get_set ..) rfl rfl rfl (fun c' _ ↦ rowSession_modify)
          ⟨hcurrent, hopen, rowSession_modify.trans (hrows c (List.mem_cons_self ..))⟩
      · exact rowSession_modify.trans (hrows c' (List.mem_cons_of_mem _ hc'))
  rw [SharedSessionContext.restoreHost]
  split
  · exact h
  · rename_i session hsession
    split
    · rename_i hguard
      obtain ⟨hrestoring, hrow⟩ := hguard
      have hserving : s.serving = false := by
        rw [restoring, Bool.and_eq_true, Bool.not_eq_true'] at hrestoring
        exact hrestoring.1
      have hhost := sessionHost_of_state hsession
      have hopen : s.Open i := ⟨session.row, by rw [sessionRow, hsession]; rfl, hrow⟩
      obtain ⟨honly, halive⟩ := hrestorable hserving hopen
      refine hfold alive session.hostId (h.restoreSession hsession fun j hj ho ↦ ?_)
        (OrderedMap.get_set_self ..) ⟨session.row, ?_, hrow⟩ halive
      · exact honly j (List.mem_range.mpr (lt_length_of_sessionHost hj)) (hj.trans hhost.symm) ho
      · rw [sessionRow, List.getElem?_modify, hsession]
        simp
    · exact h

/-- Behind `startup`, no session of a host that was not restored may be open. -/
theorem OpenInv.serve (h : s.OpenInv)
    (hnone : ∀ x ∈ s.sessionStates, x.row ≠ .closed → s.sessions.get x.hostId ≠ none) :
    OpenInv { s with serving := true } where
  sessionHost := h.sessionHost
  hosts hostId := by
    rcases h.hosts hostId with hu | ho
    · refine .inr ⟨fun i hi ho ↦ ?_, fun c ch hch hhost _ ↦ absurd hhost (hu.channels c ch hch)⟩
      obtain ⟨row, hrow, hne⟩ := ho
      rw [Option.mem_def, sessionRow, Option.map_eq_some_iff] at hrow
      obtain ⟨x, hx, rfl⟩ := hrow
      change s.sessionStates[i]?.map SessionState.hostId = some hostId at hi
      have hx : s.sessionStates[i]? = some x := hx
      rw [hx, Option.map_some] at hi
      refine absurd ?_ (hnone x (List.mem_of_getElem? hx) hne)
      rw [Option.some.inj hi]
      exact hu.session
    · exact .inr ⟨ho.current, ho.channels⟩

/-! ## All operations -/

/-- What goes wrong is excluded: a new session for a host that has an open one, a channel that gets
a session which is not current or not that of its row, and code that opens or drops a session behind
the others. -/
def OpenCareful (s : SharedSessionContext) : ContextAction → Prop
  | .serve => ∀ x ∈ s.sessionStates, x.row ≠ .closed → s.sessions.get x.hostId ≠ none
  | .spawned _ c i _ => s.channelRows.get c = none → s.CurrentOpen i
  | .respawned _ c i =>
    s.CurrentOpen i ∧ (s.channelRows.get c).map ChannelRow.sessionId = some i
  | .applyRestartState c previous i _ _ => s.RestartCarries c previous i
  | .hostSpawned reAttach c n =>
    reAttach = true → (s.clientSet n).isEmpty = false → ∀ ch ∈ s.channels.get c, ch.status = .dead →
      s.Carries c ch
  | .createSession hostId => ∀ x ∈ s.sessionStates, x.hostId = hostId → x.row = .closed
  | .daemonReady i _ _ => s.Current i
  | .closeSession i => s.MayClose i
  | .connectFailed i =>
    s.sessionStatus i = some .starting → s.MayClose i ∧ ∀ hostId ∈ s.sessionHost i, s.AllDead hostId
  | .dropSession i => s.Current i → ¬ s.Open i
  | .restoreHost i alive => s.serving = false → s.Open i → s.Restorable i alive
  | _ => True

instance (s : SharedSessionContext) (a : ContextAction) : Decidable (s.OpenCareful a) := by
  apply a.casesOn (motive := fun a ↦ Decidable (s.OpenCareful a)) <;> intros <;>
    dsimp only [OpenCareful] <;> infer_instance

theorem OpenInv.hostSpawned (h : s.OpenInv) {reAttach : Bool}
    (hcarries : reAttach = true → (s.clientSet n).isEmpty = false → ∀ ch ∈ s.channels.get c,
      ch.status = .dead → s.Carries c ch) : (s.hostSpawned reAttach c n).OpenInv := by
  rw [SharedSessionContext.hostSpawned]
  split
  · rename_i hlive
    refine OpenInv.frame (h.revive fun ch hch ↦ ?_) fun hostId ↦ .of_eq rfl rfl rfl rfl rfl
    by_cases hdead : ch.status = .dead
    · exact hcarries hlive.1 hlive.2 ch hch hdead
    · rcases h.hosts ch.hostId with hu | ho
      · exact absurd rfl (hu.channels c ch hch)
      · exact ho.channels c ch hch rfl hdead
  · exact h.frame fun hostId ↦ .of_eq rfl rfl rfl rfl rfl

theorem OpenInv.purgeRow (h : s.OpenInv) (hrows : s.RowsFollow) (c : ChannelId) :
    (s.apply (.purgeRow c)).OpenInv := by
  rw [SharedSessionContext.apply]
  split
  · rename_i hdead
    rw [Option.any_eq_true] at hdead
    obtain ⟨row, hrow, hdead⟩ := hdead
    rw [decide_eq_true_iff] at hdead
    refine h.frame fun hostId ↦ ⟨rfl, rfl, fun _ _ ↦ id, fun _ hi ho ↦ ⟨hi, ho⟩, fun _ _ ↦ id,
      fun c' ch hch hhost ↦ ⟨ch, hch, hhost, rfl, fun hlive ↦ ⟨hlive, ?_⟩⟩⟩
    -- The row of a channel that is not dead is not, either.
    have hne : c ≠ c' := by
      rintro rfl
      exact hlive ((hrows c ch row hch hrow).symm.trans hdead)
    rw [OrderedMap.get_delete, if_neg hne]
  · exact h

/-- **Careful actions keep one open session for each host.** -/
theorem OpenInv.apply (h : s.OpenInv) (hrows : s.RowsFollow) (a : ContextAction)
    (ha : s.OpenCareful a) :
    (s.apply a).OpenInv := by
  have hsame : ∀ {t : SharedSessionContext}, t.serving = s.serving → t.sessions = s.sessions →
      t.sessionStates = s.sessionStates → t.channels = s.channels → t.channelRows = s.channelRows →
      t.OpenInv := fun h₁ h₂ h₃ h₄ h₅ ↦ h.frame fun hostId ↦ .of_eq h₁ h₂ h₃ h₄ h₅
  cases a with
  | serve => exact h.serve ha
  | beginQuit =>
    rw [SharedSessionContext.apply]
    split
    · exact h
    · exact hsame rfl rfl rfl rfl rfl
  | addClient =>
    rw [SharedSessionContext.apply]
    split
    · exact hsame rfl rfl rfl rfl rfl
    · exact h
  | removeClient k => exact h.removeClient k
  | detachClient k c => exact h.detachClient k c
  | handleAttach k c => exact h.frame fun hostId ↦ hostFrame_handleAttach k c
  | attachRejected k c n =>
    exact h.frame fun hostId ↦ (hostFrame_retireChannel c).trans (.of_eq rfl rfl rfl rfl rfl)
  | spawned k c i elevated => exact h.spawned k c elevated ha
  | respawned k c i => exact h.respawned k c ha.1 ha.2
  | applyRestartState c previous i clients elevated => exact h.applyRestartState clients elevated ha
  | destroyChannel c => exact h.frame fun hostId ↦ hostFrame_destroyChannel c
  | markRowDead c =>
    rw [SharedSessionContext.apply]
    split
    · exact h
    · exact h.frame fun hostId ↦ hostFrame_updateRow c .dead
  | purgeRow c => exact h.purgeRow hrows c
  | channelExit c =>
    rw [SharedSessionContext.apply]
    split
    · exact h.frame fun hostId ↦ (hostFrame_updateChannelStatus c (.inl rfl)).trans
        (.of_eq rfl rfl rfl rfl rfl)
    · exact hsame rfl rfl rfl rfl rfl
  | hostSpawned reAttach c n => exact h.hostSpawned ha
  | hostSpawnFailed c => exact h.frame fun hostId ↦ hostFrame_updateChannelStatus c (.inl rfl)
  | createSession hostId =>
    have hnone : ∀ i, s.sessionHost i = some hostId → ¬ s.Open i := by
      rintro i hi ⟨row, hrow, hne⟩
      rw [Option.mem_def, sessionRow, Option.map_eq_some_iff] at hrow
      obtain ⟨x, hx, rfl⟩ := hrow
      rw [SharedSessionContext.sessionHost, hx] at hi
      exact hne (ha x (List.mem_of_getElem? hx) (Option.some.inj hi))
    exact h.createSession hnone
  | activateSession i => exact h.activateSession i
  | daemonReady i a states => exact h.daemonReady ha
  | agentClosed hostId disconnects => exact h.agentClosed hostId disconnects
  | closeSession i => exact h.closeSession ha
  | connectFailed i => exact h.connectFailed ha
  | dropSession i => exact h.dropSession ha
  | abandonSession i => exact h.abandonSession i
  | closeRow i => exact h.closeRow i
  | markDisconnected hostId => exact h.frame fun host ↦ hostFrame_markDisconnected hostId
  | restoreHost i alive => exact h.restoreHost ha
  | bury alive => exact h.frame fun hostId ↦ hostFrame_bury alive
  | _ => exact hsame rfl rfl rfl rfl rfl

theorem openInv_opened (db : Database) : (opened db).OpenInv where
  sessionHost := nofun
  hosts _ := .inl ⟨rfl, rfl, nofun⟩

end SharedSessionContext

/-! ## Runs -/

namespace SessionHub

open Runs

/-- **One open session for each host**, in every state that careful actions lead to. Before the
routes are registered there may be hosts that `startup` has not come to. -/
theorem oneOpen_of_careful {db : Database} {es : List Event} :
    ∀ h, run step (start db) es = some h → h.Issued SharedSessionContext.OpenCareful →
      ∀ hostId, h.ctx.Untouched hostId ∨ h.ctx.OneOpen hostId := by
  intro h _ hcareful
  have hinv : h.ctx.OpenInv ∧ h.ctx.RowsFollow :=
    ctx_invariant (fun s ↦ s.OpenInv ∧ s.RowsFollow)
      (fun s a hs ha ↦ ⟨hs.1.apply hs.2 a ha, hs.2.apply a⟩)
      ⟨SharedSessionContext.openInv_opened db, nofun⟩ hcareful
  exact hinv.1.hosts

/-- A channel of a host is restarted, and lives on in the one session. -/
theorem oneOpen_of_careful_restarted :
    ∃ h, run step (start (.ofHost "desk" .daemon))
        (spawning ++ [.resume 0 (.spawnOk "c"), .restart "c" false, .resume 2 (.spawnOk "c"),
          .resume 2 .settled]) = some h ∧
      h.ctx.sessions.get "desk" = some 0 ∧
      ∀ hostId, h.ctx.Untouched hostId ∨ h.ctx.OneOpen hostId :=
  ⟨_, rfl, rfl, @oneOpen_of_careful _ (spawning ++ [.resume 0 (.spawnOk "c"), .restart "c" false,
    .resume 2 (.spawnOk "c"), .resume 2 .settled]) _ rfl (by decide)⟩

/-- The session of a host is detached, and a SPAWN creates another one. -/
theorem two_open_sessions :
    ∃ h, run step (start (.ofHost "desk" .daemon))
        (leaving ++ [.spawn 0 "desk" false false, .resume 3 .settled]) = some h ∧
      ¬ ∀ hostId, h.ctx.Untouched hostId ∨ h.ctx.OneOpen hostId := by
  refine ⟨_, rfl, fun h ↦ ?_⟩
  rcases h "desk" with hu | ho
  · cases hu.early
  · have hcurrent := ho.current 0 rfl ⟨.detached, rfl, by decide⟩
    cases hcurrent

end SessionHub

end Lasterm.Hub
