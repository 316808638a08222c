import Lasterm.Hub.ChannelRows
import Lasterm.Hub.SessionStatus

/-!
# Live channels are tracked

The output of a channel is stored while the scheduler and the chunker track it. Tracking is switched
where a channel is spawned, restarted or dies, next to the change of the status.
`reconcileChannelState` changes the status alone: behind a start of the hub with a daemon that still
runs, a channel is live and not tracked, and one that the daemon has lost is dead and tracked on. A
SPAWN that fails leaves its channel tracked, too. `TrackCareful` rules these out.

A lost connection does not change what is tracked. Only the channels that `startup` restores are
there without being tracked, until their host has an agent (`TrackInv`).
-/

namespace Lasterm.Hub

/-- The channels that an action restores. -/
def ContextAction.restored : ContextAction → List ChannelId
  | restoreHost _ alive => alive
  | _ => []

namespace SharedSessionContext

variable {s t u : SharedSessionContext} {k n i a : ℕ} {c c' : ChannelId} {ch : ChannelState}
  {hostId : String} {status : ChannelStatus} {restored : List ChannelId}
  {states : List (ChannelId × Bool)}

/-- The scheduler and the chunker track the channel. -/
def Tracked (s : SharedSessionContext) (c : ChannelId) : Prop := c ∈ s.scheduler ∧ c ∈ s.chunker

instance (s : SharedSessionContext) (c : ChannelId) : Decidable (s.Tracked c) :=
  inferInstanceAs (Decidable (_ ∧ _))

/-- Neither does. -/
def Untracked (s : SharedSessionContext) (c : ChannelId) : Prop := c ∉ s.scheduler ∧ c ∉ s.chunker

instance (s : SharedSessionContext) (c : ChannelId) : Decidable (s.Untracked c) :=
  inferInstanceAs (Decidable (_ ∧ _))

/-- The channel is there and not dead. -/
def Alive (s : SharedSessionContext) (c : ChannelId) : Prop :=
  ∃ ch, s.channels.get c = some ch ∧ ch.status ≠ .dead

/-- The invariant. The channels that were restored are tracked while their host has an agent, and
all others with or without one. -/
structure TrackInv (restored : List ChannelId) (s : SharedSessionContext) : Prop where
  tracked : ∀ c ch, s.channels.get c = some ch → ch.status ≠ .dead →
    (c ∈ restored → s.agentConnected ch.hostId = true) → s.Tracked c
  untracked : ∀ c, ¬ s.Alive c → s.Untracked c

/-- Channels may have died in `t`, and are not tracked there. Agents may be gone. -/
structure TrackFrame (s t : SharedSessionContext) : Prop where
  channels : ∀ c ch', t.channels.get c = some ch' → ch'.status ≠ .dead →
    ∃ ch, s.channels.get c = some ch ∧ ch.status ≠ .dead ∧ ch'.hostId = ch.hostId ∧
      (s.Tracked c → t.Tracked c)
  agents : ∀ hostId, t.agentConnected hostId = true → s.agentConnected hostId = true
  dead : ∀ c, s.Untracked c ∨ s.Alive c → ¬ t.Alive c → t.Untracked c

theorem TrackInv.frame (h : s.TrackInv restored) (ht : TrackFrame s t) : t.TrackInv restored where
  tracked c ch' hch' hdead' hconnected := by
    obtain ⟨ch, hch, hdead, hhost, htracked⟩ := ht.channels c ch' hch' hdead'
    exact htracked (h.tracked c ch hch hdead fun hc ↦ ht.agents _ (hhost ▸ hconnected hc))
  untracked c hc := by
    by_cases halive : s.Alive c
    · exact ht.dead c (.inr halive) hc
    · exact ht.dead c (.inl (h.untracked c halive)) hc

theorem TrackFrame.of_same (hchannels : t.channels = s.channels)
    (hscheduler : t.scheduler = s.scheduler)
    (hchunker : t.chunker = s.chunker)
    (hagents : ∀ hostId, t.agentConnected hostId = true → s.agentConnected hostId = true) :
    TrackFrame s t where
  channels c ch' hch' hdead' := by
    refine ⟨ch', hchannels ▸ hch', hdead', rfl, fun htracked ↦ ?_⟩
    rw [Tracked, hscheduler, hchunker]
    exact htracked
  agents := hagents
  dead c hc hdead := by
    rw [Alive, hchannels] at hdead
    rw [Untracked, hscheduler, hchunker]
    rcases hc with hc | hc
    · exact hc
    · exact absurd hc hdead

theorem TrackFrame.of_eq (hchannels : t.channels = s.channels)
    (hscheduler : t.scheduler = s.scheduler)
    (hchunker : t.chunker = s.chunker) (hagents : t.agents = s.agents)
    (hclosed : t.closedAgents = s.closedAgents) : TrackFrame s t :=
  .of_same hchannels hscheduler hchunker fun hostId h ↦ by
    rw [agentConnected, hagents, hclosed] at h
    exact h

theorem TrackFrame.refl : TrackFrame s s := .of_eq rfl rfl rfl rfl rfl

/-! ## What keeps to the frame -/

/-- The status of one channel changes, and not from or to dead. -/
theorem trackFrame_updateChannelStatus (c : ChannelId) (hstatus : status ≠ .dead)
    (hlive : ∀ ch, s.channels.get c = some ch → ch.status ≠ .dead) :
    TrackFrame s (s.updateChannelStatus c status) where
  channels c' ch' hch' hdead' := by
    rw [get_updateChannelStatus] at hch'
    split at hch'
    · rename_i heq
      subst heq
      rw [Option.map_eq_some_iff] at hch'
      obtain ⟨ch, hch, rfl⟩ := hch'
      exact ⟨ch, hch, hlive ch hch, rfl, id⟩
    · exact ⟨ch', hch', hdead', rfl, id⟩
  agents _ := id
  dead c' hc hdead := by
    rcases hc with hc | ⟨ch, hch, halive⟩
    · exact hc
    · refine absurd ?_ hdead
      by_cases heq : c = c'
      · refine ⟨{ ch with status := status }, ?_, hstatus⟩
        rw [get_updateChannelStatus, if_pos heq, hch]
        rfl
      · refine ⟨ch, ?_, halive⟩
        rw [get_updateChannelStatus, if_neg heq]
        exact hch

/-- A channel that dies or is gone, and is not tracked any more. -/
theorem TrackFrame.drop (c : ChannelId)
    (hother : ∀ c', c' ≠ c → t.channels.get c' = s.channels.get c')
    (hdead : ∀ ch, t.channels.get c = some ch → ch.status = .dead)
    (hscheduler : t.scheduler = s.scheduler.delete c) (hchunker : t.chunker = s.chunker.delete c)
    (hagents : t.agents = s.agents) (hclosed : t.closedAgents = s.closedAgents) :
    TrackFrame s t where
  channels c' ch' hch' hdead' := by
    have hne : c' ≠ c := by
      rintro rfl
      exact hdead' (hdead ch' hch')
    refine ⟨ch', (hother c' hne).symm.trans hch', hdead', rfl, fun htracked ↦ ?_⟩
    rw [Tracked, hscheduler, hchunker]
    exact ⟨OrderedSet.mem_delete.mpr ⟨htracked.1, hne⟩, OrderedSet.mem_delete.mpr ⟨htracked.2, hne⟩⟩
  agents hostId h := by
    rw [agentConnected, hagents, hclosed] at h
    exact h
  dead c' hc hdead' := by
    rw [Untracked, hscheduler, hchunker, OrderedSet.mem_delete, OrderedSet.mem_delete]
    by_cases hne : c' = c
    · exact ⟨fun h ↦ h.2 hne, fun h ↦ h.2 hne⟩
    · rcases hc with hc | ⟨ch, hch, halive⟩
      · exact ⟨fun h ↦ hc.1 h.1, fun h ↦ hc.2 h.1⟩
      · exact absurd ⟨ch, (hother c' hne).trans hch, halive⟩ hdead'

theorem TrackFrame.trans (h : TrackFrame s t) (h' : TrackFrame t u) : TrackFrame s u where
  channels c ch'' hch'' hdead'' := by
    obtain ⟨ch', hch', hdead', hhost', htracked'⟩ := h'.channels c ch'' hch'' hdead''
    obtain ⟨ch, hch, hdead, hhost, htracked⟩ := h.channels c ch' hch' hdead'
    exact ⟨ch, hch, hdead, hhost'.trans hhost, fun ht ↦ htracked' (htracked ht)⟩
  agents hostId hc := h.agents hostId (h'.agents hostId hc)
  dead c hc hdead := by
    by_cases halive : t.Alive c
    · exact h'.dead c (.inr halive) hdead
    · exact h'.dead c (.inl (h.dead c hc halive)) hdead

theorem trackFrame_deleteAgent (hostId : String) : TrackFrame s (s.deleteAgent hostId) :=
  .of_same rfl rfl rfl (shrinks_deleteAgent hostId).agents

theorem trackFrame_closeAgent (a : ℕ) : TrackFrame s (s.closeAgent a) :=
  .of_same rfl rfl rfl (shrinks_closeAgent a).agents

theorem get_updateChannelStatus_of_ne (hne : c' ≠ c) :
    (s.updateChannelStatus c status).channels.get c' = s.channels.get c' := by
  rw [get_updateChannelStatus, if_neg hne.symm]

theorem status_updateChannelStatus (h : (s.updateChannelStatus c status).channels.get c = some ch) :
    ch.status = status := by
  rw [get_updateChannelStatus, if_pos rfl, Option.map_eq_some_iff] at h
  obtain ⟨ch', -, rfl⟩ := h
  rfl

theorem get_retireChannel :
    (s.retireChannel c).channels.get c' = if c = c' then none
      else (s.updateChannelStatus c .dead).channels.get c' :=
  OrderedMap.get_delete ..

theorem trackFrame_retireChannel (c : ChannelId) : TrackFrame s (s.retireChannel c) := by
  refine .drop c (fun c' hne ↦ ?_) (fun ch hch ↦ ?_) rfl rfl rfl rfl
  · rw [get_retireChannel, if_neg hne.symm]
    exact get_updateChannelStatus_of_ne hne
  · rw [get_retireChannel, if_pos rfl] at hch
    cases hch

theorem trackFrame_destroyChannel (c : ChannelId) : TrackFrame s (s.destroyChannel c) := by
  rw [destroyChannel]
  split
  · exact .refl
  · have hget : ∀ c',
        (((s.updateChannelStatus c .dead).untrackChannel c).deleteChannel c).channels.get c' =
          if c = c' then none else (s.updateChannelStatus c .dead).channels.get c' :=
      fun c' ↦ OrderedMap.get_delete ..
    refine .drop c (fun c' hne ↦ ?_) (fun ch hch ↦ ?_) rfl rfl rfl rfl
    · rw [hget, if_neg hne.symm]
      exact get_updateChannelStatus_of_ne hne
    · rw [hget, if_pos rfl] at hch
      cases hch

theorem trackFrame_channelExit (c : ChannelId) : TrackFrame s (s.apply (.channelExit c)) := by
  rw [apply]
  split
  · refine .drop c (fun c' hne ↦ ?_) (fun ch hch ↦ ?_) rfl rfl rfl rfl
    · exact get_updateChannelStatus_of_ne hne
    · exact status_updateChannelStatus hch
  · rename_i hnone
    refine .drop c (fun _ _ ↦ rfl) (fun ch hch ↦ ?_) rfl rfl rfl rfl
    exact absurd (by rw [show s.channels.get c = some ch from hch]; rfl) hnone

/-- Untracking several channels. -/
theorem mem_untrackAll {es : List (ChannelId × ChannelState)} :
    (c ∈ (es.foldl (fun t e ↦ t.untrackChannel e.1) s).scheduler ↔
        c ∈ s.scheduler ∧ ∀ e ∈ es, e.1 ≠ c) ∧
      (c ∈ (es.foldl (fun t e ↦ t.untrackChannel e.1) s).chunker ↔
        c ∈ s.chunker ∧ ∀ e ∈ es, e.1 ≠ c) := by
  induction es generalizing s with
  | nil => simp
  | cons e es ih =>
    obtain ⟨hscheduler, hchunker⟩ := ih (s := s.untrackChannel e.1)
    have hone : (c ∈ (s.untrackChannel e.1).scheduler ↔ c ∈ s.scheduler ∧ c ≠ e.1) ∧
        (c ∈ (s.untrackChannel e.1).chunker ↔ c ∈ s.chunker ∧ c ≠ e.1) :=
      ⟨OrderedSet.mem_delete, OrderedSet.mem_delete⟩
    rw [List.foldl_cons, hscheduler, hchunker, hone.1, hone.2, List.forall_mem_cons, and_assoc,
      and_assoc,
      ne_comm (a := c)]
    exact ⟨Iff.rfl, Iff.rfl⟩

/-- The channels that `killChannels` untracks are those that die. -/
theorem mem_killChannels (hostId : String) :
    (c ∈ (s.killChannels hostId).scheduler ↔ c ∈ s.scheduler ∧
        ∀ ch, s.channels.get c = some ch → ¬ (ch.hostId = hostId ∧ ch.status ≠ .dead)) ∧
      (c ∈ (s.killChannels hostId).chunker ↔ c ∈ s.chunker ∧
        ∀ ch, s.channels.get c = some ch → ¬ (ch.hostId = hostId ∧ ch.status ≠ .dead)) := by
  obtain ⟨es, hes⟩ : ∃ es, es = s.channels.entries.filter fun e ↦
      decide (e.2.hostId = hostId ∧ e.2.status ≠ ChannelStatus.dead) := ⟨_, rfl⟩
  have hscheduler : (s.killChannels hostId).scheduler = (es.foldl (fun t e ↦ t.untrackChannel e.1)
      (s.setStatuses fun _ ch ↦ if decide (ch.hostId = hostId ∧ ch.status ≠ .dead) = true then .dead
        else ch.status)).scheduler := by rw [hes]; rfl
  have hchunker : (s.killChannels hostId).chunker = (es.foldl (fun t e ↦ t.untrackChannel e.1)
      (s.setStatuses fun _ ch ↦ if decide (ch.hostId = hostId ∧ ch.status ≠ .dead) = true then .dead
        else ch.status)).chunker := by rw [hes]; rfl
  have hdying : (∀ e ∈ es, e.1 ≠ c) ↔
      ∀ ch, s.channels.get c = some ch → ¬ (ch.hostId = hostId ∧ ch.status ≠ .dead) := by
    rw [hes]
    constructor
    · intro h ch hch hdying
      refine h (c, ch) (List.mem_filter.mpr ⟨OrderedMap.get_eq_some_iff.mp hch, ?_⟩) rfl
      rw [decide_eq_true_iff]
      exact hdying
    · rintro h ⟨c', ch⟩ hmem rfl
      rw [List.mem_filter, decide_eq_true_iff] at hmem
      exact h ch (OrderedMap.get_eq_some_iff.mpr hmem.1) hmem.2
  rw [hscheduler, hchunker, mem_untrackAll.1, mem_untrackAll.2, hdying]
  exact ⟨Iff.rfl, Iff.rfl⟩

theorem trackFrame_killChannels (hostId : String) : TrackFrame s (s.killChannels hostId) := by
  refine ⟨fun c ch' hch' hdead' ↦ ?_, fun hostId' hc ↦ ?_, fun c hc hdead ↦ ?_⟩
  · rw [get_killChannels, Option.map_eq_some_iff] at hch'
    obtain ⟨ch, hch, rfl⟩ := hch'
    dsimp only at hdead'
    split at hdead'
    · exact absurd rfl hdead'
    · rename_i hnot
      refine ⟨ch, hch, hdead', rfl, fun htracked ↦ ?_⟩
      have hnone : ∀ ch', s.channels.get c = some ch' →
          ¬ (ch'.hostId = hostId ∧ ch'.status ≠ .dead) := by
        intro ch' hch'
        cases hch.symm.trans hch'
        exact hnot
      rw [Tracked, (mem_killChannels hostId).1, (mem_killChannels hostId).2]
      exact ⟨⟨htracked.1, hnone⟩, htracked.2, hnone⟩
  · exact (shrinks_killChannels hostId).agents hostId' hc
  · rw [Untracked, (mem_killChannels hostId).1, (mem_killChannels hostId).2]
    rcases hc with hc | ⟨ch, hch, halive⟩
    · exact ⟨fun h ↦ hc.1 h.1, fun h ↦ hc.2 h.1⟩
    · by_cases hhost : ch.hostId = hostId
      · exact ⟨fun h ↦ h.2 ch hch ⟨hhost, halive⟩, fun h ↦ h.2 ch hch ⟨hhost, halive⟩⟩
      · -- A channel of another host lives on.
        refine absurd ⟨ch, ?_, halive⟩ hdead
        rw [get_killChannels, hch, Option.map_some, if_neg fun h ↦ hhost h.1]

theorem trackFrame_leaveChannel (k : ℕ) (hch : s.channels.get c = some ch) :
    TrackFrame s (s.leaveChannel k c ch) := by
  have hset : TrackFrame s (s.modifySet ch.clients fun set ↦ set.delete k) :=
    .of_eq rfl rfl rfl rfl rfl
  rw [leaveChannel]
  split
  · rename_i hlive
    have hstill : ∀ ch', s.channels.get c = some ch' → ch'.status ≠ .dead := by
      intro ch' hch'
      cases hch.symm.trans hch'
      rw [hlive.2]
      decide
    have horphan : TrackFrame s
        ((s.modifySet ch.clients fun set ↦ set.delete k).updateChannelStatus c .orphan) :=
      hset.trans (trackFrame_updateChannelStatus c (by decide) hstill)
    exact checkSessionDetached_rule horphan fun _ ↦ horphan.trans (.of_eq rfl rfl rfl rfl rfl)
  · exact hset

theorem trackFrame_detachClient (k : ℕ) (c : ChannelId) : TrackFrame s (s.detachClient k c) :=
  detachClient_rule .refl (fun _ hch ↦ trackFrame_leaveChannel k hch) fun _ _ ht ↦
    ht.trans (.of_eq rfl rfl rfl rfl rfl)

theorem trackFrame_removeClient (k : ℕ) : TrackFrame s (s.removeClient k) :=
  removeClient_rule .refl (fun _ c ht ↦ ht.trans (trackFrame_detachClient k c)) fun _ _ ht ↦
    ht.trans (.of_eq rfl rfl rfl rfl rfl)

theorem trackFrame_handleAttach (k : ℕ) (c : ChannelId) : TrackFrame s (s.handleAttach k c) := by
  rw [handleAttach]
  split
  · exact .refl
  · split
    · exact .refl
    · rename_i ch hch
      have hadd : TrackFrame s ((s.modifySet ch.clients fun set ↦ set.add k).modifyClient k fun x ↦
          { x with attachedChannels := x.attachedChannels.add c }) := .of_eq rfl rfl rfl rfl rfl
      dsimp only
      split
      · rename_i horphan
        refine hadd.trans (trackFrame_updateChannelStatus c (by decide) fun ch' hch' ↦ ?_)
        cases hch.symm.trans hch'
        rw [horphan]
        decide
      · exact hadd

theorem trackFrame_agentClosed (hostId : String) (disconnects : Bool) :
    TrackFrame s (s.agentClosed hostId disconnects) := by
  have hdelete : TrackFrame s (s.deleteAgent hostId) := trackFrame_deleteAgent hostId
  rw [agentClosed]
  split
  · exact hdelete
  · split
    · exact hdelete.trans (.of_eq rfl rfl rfl rfl rfl)
    · exact hdelete

theorem trackFrame_abandonSession (i : ℕ) : TrackFrame s (s.abandonSession i) := by
  rw [abandonSession]
  split
  · exact .refl
  · rename_i hostId _
    split
    · rcases s.agents.get hostId with _ | a
      · exact .of_eq rfl rfl rfl rfl rfl
      · exact ((trackFrame_closeAgent a).trans (trackFrame_deleteAgent hostId)).trans
          (.of_eq rfl rfl rfl rfl rfl)
    · exact .refl

/-! ## Channels that are put there -/

/-- A channel that is put there, and is tracked. -/
theorem TrackInv.put (h : s.TrackInv restored) (c : ChannelId) (ch : ChannelState)
    (hget : ∀ c', t.channels.get c' = if c = c' then some ch else s.channels.get c')
    (hscheduler : t.scheduler = s.scheduler.add c) (hchunker : t.chunker = s.chunker.add c)
    (hagents : t.agents = s.agents) (hclosed : t.closedAgents = s.closedAgents)
    (halive : ch.status ≠ .dead) : t.TrackInv restored := by
  have hmem : ∀ c', t.Tracked c' ↔ c = c' ∨ s.Tracked c' := by
    intro c'
    rw [Tracked, hscheduler, hchunker, OrderedSet.mem_add, OrderedSet.mem_add, eq_comm (a := c)]
    rw [Tracked, or_and_left]
  refine ⟨fun c' ch' hch' hdead' hconnected ↦ ?_, fun c' hc' ↦ ?_⟩
  · rw [hmem]
    rw [hget] at hch'
    split at hch'
    · rename_i heq
      exact .inl heq
    · refine .inr (h.tracked c' ch' hch' hdead' fun hc' ↦ ?_)
      have hconnected := hconnected hc'
      rw [agentConnected, hagents, hclosed] at hconnected
      exact hconnected
  · have hne : c ≠ c' := by
      rintro rfl
      exact hc' ⟨ch, by rw [hget, if_pos rfl], halive⟩
    have hdead : ¬ s.Alive c' := by
      rintro ⟨ch', hch', halive'⟩
      exact hc' ⟨ch', by rw [hget, if_neg hne]; exact hch', halive'⟩
    obtain ⟨hnot, hnot'⟩ := h.untracked c' hdead
    rw [Untracked, hscheduler, hchunker, OrderedSet.mem_add, OrderedSet.mem_add]
    exact ⟨fun h ↦ h.elim hne.symm hnot, fun h ↦ h.elim hne.symm hnot'⟩

theorem TrackInv.spawned (h : s.TrackInv restored) (k : ℕ) (c : ChannelId) (i : ℕ)
    (elevated : Bool) : (s.spawned k c i elevated).TrackInv restored := by
  rw [SharedSessionContext.spawned]
  split
  · rename_i session _ _
    exact h.put c ⟨i, session.hostId, .live, s.clientSets.length⟩ (fun c' ↦ OrderedMap.get_set ..)
      rfl rfl rfl rfl (by simp)
  · exact h

theorem TrackInv.respawned (h : s.TrackInv restored) (k : ℕ) (c : ChannelId) (i : ℕ) :
    (s.respawned k c i).TrackInv restored := by
  rw [SharedSessionContext.respawned]
  split
  · exact h
  · rename_i session _
    exact h.put c ⟨i, session.hostId, .live, s.clientSets.length⟩ (fun c' ↦ OrderedMap.get_set ..)
      rfl rfl rfl rfl (by simp)

theorem trackFrame_setOrNew (clients : Option ℕ) : TrackFrame s (s.setOrNew clients).1 :=
  setOrNew_rule .refl (.of_eq rfl rfl rfl rfl rfl)

theorem trackFrame_moveChannel (c previous : ChannelId) (i n : ℕ) (elevated : Bool) :
    TrackFrame s (s.moveChannel c previous i n elevated) :=
  moveChannel_rule ((trackFrame_retireChannel previous).trans (.of_eq rfl rfl rfl rfl rfl))
    fun _ ht ↦ ht.trans (.of_eq rfl rfl rfl rfl rfl)

section

variable (h : s.TrackInv restored)
include h

theorem TrackInv.applyRestartState (c previous : ChannelId) (i : ℕ)
    (clients : Option ℕ) (elevated : Bool) :
    (s.applyRestartState c previous i clients elevated).TrackInv restored := by
  rw [SharedSessionContext.applyRestartState]
  split
  · exact h
  · rename_i session _
    have hset : (s.setOrNew clients).1.TrackInv restored := h.frame (trackFrame_setOrNew clients)
    rcases hsn : s.setOrNew clients with ⟨u, n⟩
    rw [hsn] at hset
    have hmoved : (if c = previous then u
        else u.moveChannel c previous i n elevated).TrackInv restored := by
      split
      · exact hset
      · exact hset.frame (trackFrame_moveChannel c previous i n elevated)
    have hput := hmoved.put (t := (((if c = previous then u else u.moveChannel c previous i n
        elevated).updateRow c .live).putChannel c ⟨i, session.hostId, .live, n⟩).trackChannel c) c
      ⟨i, session.hostId, .live, n⟩ (fun c' ↦ OrderedMap.get_set ..) rfl rfl rfl rfl (by simp)
    dsimp only
    split
    · exact hput.frame (.of_eq rfl rfl rfl rfl rfl)
    · exact hput

/-- A channel that is restored for a host without an agent need not be tracked. -/
theorem TrackInv.putOrphan (hagent : s.agentConnected hostId = false) (i : ℕ) (hc : c ∈ restored) :
    (((s.updateRow c .orphan).newSet .empty).putChannel c
      ⟨i, hostId, .orphan, s.clientSets.length⟩).TrackInv restored := by
  have hget : ∀ c', (((s.updateRow c .orphan).newSet .empty).putChannel c
      ⟨i, hostId, .orphan, s.clientSets.length⟩).channels.get c' =
        if c = c' then some ⟨i, hostId, .orphan, s.clientSets.length⟩ else s.channels.get c' :=
    fun c' ↦ OrderedMap.get_set ..
  refine ⟨fun c' ch' hch' hdead' hconnected ↦ ?_, fun c' hc' ↦ ?_⟩
  · rw [hget] at hch'
    split at hch'
    · rename_i heq
      cases hch'
      exact Bool.noConfusion (hagent.symm.trans (hconnected (heq ▸ hc)))
    · exact h.tracked c' ch' hch' hdead' hconnected
  · refine h.untracked c' fun halive ↦ hc' ?_
    obtain ⟨ch', hch', halive'⟩ := halive
    by_cases heq : c = c'
    · exact ⟨⟨i, hostId, .orphan, s.clientSets.length⟩, by rw [hget, if_pos heq], by simp⟩
    · exact ⟨ch', by rw [hget, if_neg heq]; exact hch', halive'⟩

theorem TrackInv.restoreHost (i : ℕ) {alive : List ChannelId} (halive : alive ⊆ restored) :
    (s.restoreHost i alive).TrackInv restored := by
  -- The host has no agent, before and behind each channel.
  have hall : (s.restoreHost i alive).TrackInv restored ∧
      ∀ hostId, (s.restoreHost i alive).agentConnected hostId = s.agentConnected hostId := by
    refine restoreHost_rule
      (motive := fun t ↦ t.TrackInv restored ∧
        ∀ hostId, t.agentConnected hostId = s.agentConnected hostId)
      ⟨h, fun _ ↦ rfl⟩ fun session _ hrestoring _ ↦
        ⟨⟨h.frame (.of_eq rfl rfl rfl rfl rfl), fun _ ↦ rfl⟩, fun t c hc ⟨ht, hagents⟩ ↦
          ⟨?_, hagents⟩⟩
    exact ht.putOrphan ((hagents _).trans (agentConnected_of_restoring hrestoring)) i (halive hc)
  exact hall.1

/-! ## Channels that die -/

/-- A channel that is not tracked dies. -/
theorem TrackInv.die (hc : s.Untracked c) : (s.updateChannelStatus c .dead).TrackInv restored := by
  refine ⟨fun c' ch' hch' hdead' hconnected ↦ ?_, fun c' hc' ↦ ?_⟩
  · have hne : c' ≠ c := by
      rintro rfl
      exact hdead' (status_updateChannelStatus hch')
    rw [get_updateChannelStatus_of_ne hne] at hch'
    exact h.tracked c' ch' hch' hdead' hconnected
  · by_cases heq : c' = c
    · exact heq ▸ hc
    · refine h.untracked c' fun halive ↦ hc' ?_
      obtain ⟨ch', hch', halive'⟩ := halive
      exact ⟨ch', by rw [get_updateChannelStatus_of_ne heq]; exact hch', halive'⟩

theorem TrackInv.bury {alive : List ChannelId} (hc : ∀ c ∈ alive, s.Untracked c) :
    (s.bury alive).TrackInv restored := by
  rw [SharedSessionContext.bury]
  induction alive generalizing s with
  | nil => exact h
  | cons c alive ih =>
    rw [List.forall_mem_cons] at hc
    exact ih (h.die hc.1) hc.2

/-- Behind a SPAWN of `reAttachChannels` or of a warm restart the channel is there and not dead. -/
theorem TrackInv.hostSpawned {reAttach : Bool} (hc : ∃ ch ∈ s.channels.get c, ch.status ≠ .dead ∨
      (reAttach = true ∧ (s.clientSet n).isEmpty = false)) :
      (s.hostSpawned reAttach c n).TrackInv restored := by
  obtain ⟨ch, hch, halive⟩ := hc
  have hch : s.channels.get c = some ch := hch
  rw [SharedSessionContext.hostSpawned]
  split
  · refine h.put c { ch with status := .live } (fun c' ↦ ?_) rfl rfl rfl rfl (by simp)
    change (s.updateChannelStatus c .live).channels.get c' = _
    rw [get_updateChannelStatus]
    split
    · rename_i heq
      rw [← heq, hch]
      rfl
    · rfl
  · rename_i hnot
    have halive : ch.status ≠ .dead := halive.resolve_right hnot
    refine h.put c ch (fun c' ↦ ?_) rfl rfl rfl rfl halive
    change s.channels.get c' = _
    split
    · rename_i heq
      exact heq ▸ hch
    · rfl

/-! ## Agents that are adopted -/

theorem TrackInv.adoptAgent
    (htracked : a ∉ s.closedAgents → ∀ c ch, s.channels.get c = some ch → ch.hostId = hostId →
      ch.status ≠ .dead → c ∈ restored → s.Tracked c) :
    (s.adoptAgent hostId a).TrackInv restored where
  tracked c ch hch hdead hconnected := by
    rw [agentConnected, SharedSessionContext.adoptAgent, OrderedMap.get_set] at hconnected
    by_cases heq : hostId = ch.hostId
    · rw [if_pos heq, Option.any_some, decide_eq_true_iff] at hconnected
      by_cases hc : c ∈ restored
      · exact htracked (hconnected hc) c ch hch heq.symm hdead hc
      · exact h.tracked c ch hch hdead fun h ↦ absurd h hc
    · rw [if_neg heq] at hconnected
      exact h.tracked c ch hch hdead hconnected
  untracked := h.untracked

end

/-- The channels of the host that are dead behind an attach to a daemon are not tracked, and those
that were restored and are not dead are. -/
def ReportsTracked (restored : List ChannelId) (s : SharedSessionContext) (i a : ℕ)
    (states : List (ChannelId × Bool)) : Prop :=
  ∀ session ∈ s.sessionStates[i]?, ∀ c ch, s.channels.get c = some ch → ch.hostId = session.hostId →
    if s.reconciledStatus session.hostId states c ch = .dead then s.Untracked c
    else a ∉ s.closedAgents → c ∈ restored → s.Tracked c

instance (restored : List ChannelId) (s : SharedSessionContext) (i a : ℕ)
    (states : List (ChannelId × Bool)) : Decidable (s.ReportsTracked restored i a states) :=
  by delta ReportsTracked; infer_instance

/-- Channels of other hosts keep their status. -/
theorem reconciledStatus_of_ne (hne : ch.hostId ≠ hostId) :
    s.reconciledStatus hostId states c ch = ch.status := by
  rw [reconciledStatus]
  rcases s.sessions.get hostId with _ | j
  · rfl
  · rw [Option.elim_some, reconciled, if_neg fun h ↦ hne h.1]

/-- No report brings a dead channel back. -/
theorem status_ne_dead_of_reconciledStatus
    (h : s.reconciledStatus hostId states c ch ≠ .dead) : ch.status ≠ .dead := by
  intro hdead
  refine h ?_
  rw [reconciledStatus]
  rcases s.sessions.get hostId with _ | j
  · exact hdead
  · rw [Option.elim_some, reconciled, hdead]
    simp

theorem TrackInv.daemonReady (h : s.TrackInv restored)
    (hreports : s.ReportsTracked restored i a states) :
    (s.daemonReady i a states).TrackInv restored := by
  rw [SharedSessionContext.daemonReady]
  split
  · exact h
  · rename_i session hsession
    obtain ⟨u, hu⟩ : ∃ u, u = s.reconcileChannelState session.hostId states := ⟨_, rfl⟩
    have hsame : u.agents = s.agents ∧ u.closedAgents = s.closedAgents ∧ u.scheduler = s.scheduler ∧
        u.chunker = s.chunker := by
      rw [hu, reconcileChannelState]
      split <;> exact ⟨rfl, rfl, rfl, rfl⟩
    obtain ⟨hagents, hclosed, hscheduler, hchunker⟩ := hsame
    have hget : ∀ c, u.channels.get c = (s.channels.get c).map fun ch ↦
        { ch with status := s.reconciledStatus session.hostId states c ch } := by
      intro c
      rw [hu]
      exact get_reconcileChannelState session.hostId states c
    rw [← hu]
    refine ⟨fun c ch' hch' hdead' hconnected ↦ ?_, fun c hc ↦ ?_⟩
    · change u.channels.get c = some ch' at hch'
      rw [hget, Option.map_eq_some_iff] at hch'
      obtain ⟨ch, hch, rfl⟩ := hch'
      change u.Tracked c
      rw [Tracked, hscheduler, hchunker]
      have hdead : ch.status ≠ .dead := status_ne_dead_of_reconciledStatus hdead'
      by_cases hc : c ∈ restored
      · have hconnected := hconnected hc
        change ((u.agents.set session.hostId a).get ch.hostId).any _ = true at hconnected
        rw [OrderedMap.get_set] at hconnected
        split at hconnected
        · rename_i heq
          have htracked := hreports session hsession c ch hch heq.symm
          rw [if_neg hdead'] at htracked
          rw [Option.any_some, decide_eq_true_iff] at hconnected
          refine htracked ?_ hc
          rw [← hclosed]
          exact hconnected
        · refine h.tracked c ch hch hdead fun _ ↦ ?_
          rw [hagents] at hconnected
          rw [agentConnected, ← hclosed]
          exact hconnected
      · exact h.tracked c ch hch hdead fun h ↦ absurd h hc
    · change u.Untracked c
      change ¬ u.Alive c at hc
      rw [Untracked, hscheduler, hchunker]
      by_cases halive : s.Alive c
      · obtain ⟨ch, hch, halive'⟩ := halive
        have hdead : s.reconciledStatus session.hostId states c ch = .dead := by
          by_contra hdead
          refine hc ⟨{ ch with status := s.reconciledStatus session.hostId states c ch }, ?_, hdead⟩
          rw [hget, hch]
          rfl
        have hhost : ch.hostId = session.hostId := by
          by_contra hne
          exact halive' ((reconciledStatus_of_ne hne).symm.trans hdead)
        have huntracked := hreports session hsession c ch hch hhost
        rw [if_pos hdead] at huntracked
        exact huntracked
      · exact h.untracked c halive

/-! ## All operations -/

/-- What goes wrong is excluded: an agent that is adopted while restored channels of its host are
not tracked, a channel that dies without being untracked, and one that is tracked when it is dead
or gone. -/
def TrackCareful (restored : List ChannelId) (s : SharedSessionContext) : ContextAction → Prop
  | .hostSpawned reAttach c n =>
    ∃ ch ∈ s.channels.get c, ch.status ≠ .dead ∨ (reAttach = true ∧ (s.clientSet n).isEmpty = false)
  | .hostSpawnFailed c => s.Untracked c
  | .adoptAgent hostId a =>
    a ∉ s.closedAgents → ∀ c ch, s.channels.get c = some ch → ch.hostId = hostId →
      ch.status ≠ .dead → c ∈ restored → s.Tracked c
  | .daemonReady i a states => s.ReportsTracked restored i a states
  | .bury alive => ∀ c ∈ alive, s.Untracked c
  | _ => True

instance (restored : List ChannelId) (s : SharedSessionContext) (a : ContextAction) :
    Decidable (s.TrackCareful restored a) := by
  apply a.casesOn (motive := fun a ↦ Decidable (s.TrackCareful restored a)) <;>
    intros <;> dsimp only [TrackCareful] <;> infer_instance

/-- **Careful actions track what lives, and untrack what dies.** -/
theorem TrackInv.apply (h : s.TrackInv restored) (a : ContextAction)
    (ha : s.TrackCareful restored a) (hrestored : a.restored ⊆ restored) :
    (s.apply a).TrackInv restored := by
  have hsame : ∀ {t : SharedSessionContext}, t.channels = s.channels → t.scheduler = s.scheduler →
      t.chunker = s.chunker → t.agents = s.agents → t.closedAgents = s.closedAgents →
      t.TrackInv restored :=
    fun h₁ h₂ h₃ h₄ h₅ ↦ h.frame (.of_eq h₁ h₂ h₃ h₄ h₅)
  cases a with
  | beginQuit =>
    rw [SharedSessionContext.apply]
    split
    · exact h
    · exact hsame rfl rfl rfl rfl rfl
  | addClient =>
    rw [SharedSessionContext.apply]
    split
    · exact hsame rfl rfl rfl rfl rfl
    · exact h
  | removeClient k => exact h.frame (trackFrame_removeClient k)
  | detachClient k c => exact h.frame (trackFrame_detachClient k c)
  | handleAttach k c => exact h.frame (trackFrame_handleAttach k c)
  | attachRejected k c n =>
    exact h.frame ((trackFrame_retireChannel c).trans (.of_eq rfl rfl rfl rfl rfl))
  | spawned k c i elevated => exact h.spawned k c i elevated
  | respawned k c i => exact h.respawned k c i
  | applyRestartState c previous i clients elevated =>
    exact h.applyRestartState c previous i clients elevated
  | destroyChannel c => exact h.frame (trackFrame_destroyChannel c)
  | markRowDead c =>
    rw [SharedSessionContext.apply]
    split
    · exact h
    · exact hsame rfl rfl rfl rfl rfl
  | purgeRow c =>
    rw [SharedSessionContext.apply]
    split
    · exact hsame rfl rfl rfl rfl rfl
    · exact h
  | channelExit c => exact h.frame (trackFrame_channelExit c)
  | hostSpawned reAttach c n => exact h.hostSpawned ha
  | hostSpawnFailed c => exact h.die ha
  | activateSession i =>
    rw [SharedSessionContext.apply, activateSession]
    split
    · exact hsame rfl rfl rfl rfl rfl
    · exact h
  | adoptAgent hostId a => exact h.adoptAgent ha
  | daemonReady i a states => exact h.daemonReady ha
  | closeAgent a => exact h.frame (trackFrame_closeAgent a)
  | deleteAgent hostId => exact h.frame (trackFrame_deleteAgent hostId)
  | agentClosed hostId disconnects => exact h.frame (trackFrame_agentClosed hostId disconnects)
  | closeSession i =>
    rw [SharedSessionContext.apply, closeSession]
    split
    · exact h
    · exact h.frame ((trackFrame_killChannels _).trans (.of_eq rfl rfl rfl rfl rfl))
  | connectFailed i =>
    rw [SharedSessionContext.apply, connectFailed]
    split
    · exact h
    · split
      · exact hsame rfl rfl rfl rfl rfl
      · exact h
  | dropSession i =>
    rw [SharedSessionContext.apply, dropSession]
    split
    · exact h
    · split
      · exact hsame rfl rfl rfl rfl rfl
      · exact h
  | abandonSession i => exact h.frame (trackFrame_abandonSession i)
  | closeRow i =>
    rw [SharedSessionContext.apply, closeRow]
    split
    · exact h
    · exact hsame rfl rfl rfl rfl rfl
  | markDisconnected hostId =>
    rw [SharedSessionContext.apply, markDisconnected]
    split
    · exact hsame rfl rfl rfl rfl rfl
    · exact h
  | restoreHost i alive => exact h.restoreHost i hrestored
  | bury alive => exact h.bury ha
  | _ => exact hsame rfl rfl rfl rfl rfl

theorem trackInv_opened (db : Database) : (opened db).TrackInv restored where
  tracked := nofun
  untracked c _ := ⟨OrderedSet.not_mem_empty c, OrderedSet.not_mem_empty c⟩

/-- The channels of hosts with a connected agent are tracked until they are dead, and what is dead,
in memory or in the database, is not. -/
structure LiveTracked (s : SharedSessionContext) : Prop where
  live : ∀ c ch, s.channels.get c = some ch → ch.status ≠ .dead →
    s.agentConnected ch.hostId = true → c ∈ s.scheduler ∧ c ∈ s.chunker
  dead : ∀ c, (∃ ch ∈ s.channels.get c, ch.status = .dead) ∨
    (∃ row ∈ s.channelRows.get c, row.status = .dead) → c ∉ s.scheduler ∧ c ∉ s.chunker

theorem TrackInv.liveTracked (h : s.TrackInv restored) (hrows : s.RowsFollow) : s.LiveTracked where
  live c ch hch hdead hconnected := h.tracked c ch hch hdead fun _ ↦ hconnected
  dead c hc := by
    refine h.untracked c ?_
    rintro ⟨ch, hch, halive⟩
    rcases hc with ⟨ch', hch', hdead⟩ | ⟨row, hrow, hdead⟩
    · cases hch.symm.trans hch'
      exact halive hdead
    · exact halive ((hrows c ch row hch hrow).symm.trans hdead)

end SharedSessionContext

/-! ## Runs -/

namespace SessionHub

open Runs

/-- The channels that `startup` has restored. -/
def restored {db : Database} (h : SessionHub db) : List ChannelId :=
  h.journal.entries.flatMap ContextAction.restored

/-- **Live channels are tracked, and dead ones are not**, in every state that careful actions
lead to. -/
theorem liveTracked_of_careful {db : Database} {es : List Event} :
    ∀ h, run step (start db) es = some h → h.Issued (SharedSessionContext.TrackCareful h.restored) →
      h.ctx.LiveTracked := by
  intro h _ hcareful
  have hrestored : h.Issued fun _ a ↦ a.restored ⊆ h.restored :=
    along_of_forall_mem fun a ha _ _ _ _ hc ↦ List.mem_flatMap.mpr ⟨a, ha, hc⟩
  have hinv : h.ctx.TrackInv h.restored ∧ h.ctx.RowsFollow :=
    ctx_invariant (C := fun s a ↦ s.TrackCareful h.restored a ∧ a.restored ⊆ h.restored)
      (fun s ↦ s.TrackInv h.restored ∧ s.RowsFollow)
      (fun s a hs ha ↦ ⟨hs.1.apply a ha.1 ha.2, hs.2.apply a⟩)
      ⟨SharedSessionContext.trackInv_opened db, nofun⟩ (along_and hcareful hrestored)
  exact hinv.1.liveTracked hinv.2

/-- A client gets a channel, and another one that ends. -/
theorem liveTracked_of_careful_exits :
    ∃ h, run step (start (.ofHost "desk" .daemon))
        (spawning ++ [.resume 0 (.spawnOk "c"), .spawn 0 "desk" false false, .resume 2 .settled,
          .resume 2 .settled, .resume 2 (.spawnOk "d"), .channelExit 0 "d"]) = some h ∧
      h.ctx.chunker = .singleton "c" ∧ h.ctx.LiveTracked :=
  ⟨_, rfl, rfl, @liveTracked_of_careful _ (spawning ++ [.resume 0 (.spawnOk "c"),
    .spawn 0 "desk" false false, .resume 2 .settled, .resume 2 .settled, .resume 2 (.spawnOk "d"),
    .channelExit 0 "d"]) _ rfl (by decide)⟩

/-- The hub is started while the daemon still has the channel, and nobody tracks it. -/
def warmStart : List Event :=
  [.startup, .resume 0 (.connected false), .resume 0 (.channelStates [("c", true)])]

theorem live_without_tracking :
    ∃ h, run step (start (.ofChannel "desk" .daemon "c")) warmStart = some h ∧
      ¬ h.ctx.LiveTracked := by
  refine ⟨_, rfl, fun h ↦ ?_⟩
  obtain ⟨hscheduler, -⟩ := h.live "c" _ rfl nofun rfl
  cases hscheduler

end SessionHub

end Lasterm.Hub
