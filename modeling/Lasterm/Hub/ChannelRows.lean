import Lasterm.Hub.ChannelStatus

/-!
# The row of a channel follows the channel

Every piece of code that sets the status of a channel in memory writes it to the row, too, so that
the two agree as long as both are there. This holds of all runs, and is what other invariants say
about rows through.
-/

namespace Lasterm.Hub

namespace SharedSessionContext

variable {s t u : SharedSessionContext} {k n i : ℕ} {c : ChannelId} {ch : ChannelState}
  {hostId : String}

/-- The row of a channel in memory has its status. -/
def RowsFollow (s : SharedSessionContext) : Prop :=
  ∀ c ch row, s.channels.get c = some ch → s.channelRows.get c = some row → row.status = ch.status

section

variable (h : s.RowsFollow)
include h

theorem RowsFollow.of_eq (hchannels : t.channels = s.channels)
    (hrows : t.channelRows = s.channelRows) : t.RowsFollow := by
  rw [RowsFollow, hchannels, hrows]
  exact h

theorem RowsFollow.of_sameChannels (hsame : SameChannels s t) : t.RowsFollow :=
  h.of_eq hsame.channels hsame.channelRows

theorem RowsFollow.setStatuses (f : ChannelId → ChannelState → ChannelStatus) :
    (s.setStatuses f).RowsFollow := by
  intro c ch' row' hch' hrow'
  rw [get_setStatuses, Option.map_eq_some_iff] at hch'
  obtain ⟨ch, hch, rfl⟩ := hch'
  rw [SharedSessionContext.setStatuses, OrderedMap.get_mapValues, Option.map_eq_some_iff] at hrow'
  obtain ⟨row, hrow, rfl⟩ := hrow'
  have hstatus := h c ch row hch hrow
  simp only [hch]
  split
  · rename_i hsame
    exact hstatus.trans hsame.symm
  · rfl

theorem RowsFollow.updateChannelStatus (c : ChannelId) (status : ChannelStatus) :
    (s.updateChannelStatus c status).RowsFollow := by
  intro c' ch' row' hch' hrow'
  rw [get_updateChannelStatus] at hch'
  rw [SharedSessionContext.updateChannelStatus, OrderedMap.get_modify] at hrow'
  split at hch'
  · rename_i heq
    rw [if_pos heq] at hrow'
    rw [Option.map_eq_some_iff] at hch' hrow'
    obtain ⟨ch, -, rfl⟩ := hch'
    obtain ⟨row, -, rfl⟩ := hrow'
    rfl
  · rename_i hne
    rw [if_neg hne] at hrow'
    exact h c' ch' row' hch' hrow'

theorem RowsFollow.deleteChannel (c : ChannelId) : (s.deleteChannel c).RowsFollow := by
  intro c' ch row hch hrow
  rw [SharedSessionContext.deleteChannel, OrderedMap.get_delete] at hch
  split at hch
  · cases hch
  · exact h c' ch row hch hrow

theorem RowsFollow.retireChannel (c : ChannelId) : (s.retireChannel c).RowsFollow :=
  ((h.updateChannelStatus c .dead).of_eq rfl rfl : RowsFollow (((s.updateChannelStatus c
    .dead).modifyMembers (s.members c) fun set ↦ set.delete c).untrackChannel c)).deleteChannel c

theorem RowsFollow.destroyChannel (c : ChannelId) : (s.destroyChannel c).RowsFollow := by
  rw [SharedSessionContext.destroyChannel]
  split
  · exact h
  · exact ((h.updateChannelStatus c .dead).of_eq rfl rfl : RowsFollow ((s.updateChannelStatus c
      .dead).untrackChannel c)).deleteChannel c

/-- A channel that is put there together with the status of its row. -/
theorem RowsFollow.put (c : ChannelId) (ch : ChannelState) (u : SharedSessionContext)
    (hget : ∀ c', t.channels.get c' = if c = c' then some ch else s.channels.get c')
    (hrows : ∀ c', t.channelRows.get c' = (if c = c' then
      (u.channelRows.get c).map fun row ↦ { row with status := ch.status }
        else s.channelRows.get c')) :
    t.RowsFollow := by
  intro c' ch' row' hch' hrow'
  rw [hget] at hch'
  rw [hrows] at hrow'
  split at hch'
  · rename_i heq
    cases hch'
    rw [if_pos heq, Option.map_eq_some_iff] at hrow'
    obtain ⟨row, -, rfl⟩ := hrow'
    rfl
  · rename_i hne
    rw [if_neg hne] at hrow'
    exact h c' ch' row' hch' hrow'

theorem RowsFollow.killChannels (hostId : String) : (s.killChannels hostId).RowsFollow :=
  killChannels_rule (h.setStatuses _) fun _ _ ht ↦ ht.of_eq rfl rfl

theorem RowsFollow.leaveChannel (k : ℕ) (c : ChannelId) (ch : ChannelState) :
    (s.leaveChannel k c ch).RowsFollow := by
  rw [SharedSessionContext.leaveChannel]
  split
  · have horphan : ((s.modifySet ch.clients fun set ↦ set.delete k).updateChannelStatus c
        .orphan).RowsFollow := RowsFollow.updateChannelStatus (h.of_eq rfl rfl) c .orphan
    exact horphan.of_sameChannels (sameChannels_checkSessionDetached _)
  · exact h.of_eq rfl rfl

theorem RowsFollow.detachClient (k : ℕ) (c : ChannelId) : (s.detachClient k c).RowsFollow :=
  detachClient_rule h (fun ch _ ↦ h.leaveChannel k c ch) fun _ _ ht ↦ ht.of_eq rfl rfl

theorem RowsFollow.removeClient (k : ℕ) : (s.removeClient k).RowsFollow :=
  removeClient_rule h (fun _ c ht ↦ ht.detachClient k c) fun _ _ ht ↦ ht.of_eq rfl rfl

theorem RowsFollow.applyRestartState (c previous : ChannelId) (i : ℕ)
    (clients : Option ℕ) (elevated : Bool) :
    (s.applyRestartState c previous i clients elevated).RowsFollow := by
  rw [SharedSessionContext.applyRestartState]
  split
  · exact h
  · rename_i session hsession
    have hset : (s.setOrNew clients).1.RowsFollow := setOrNew_rule h (h.of_eq rfl rfl)
    rcases hsn : s.setOrNew clients with ⟨u, n⟩
    rw [hsn] at hset
    dsimp only at hset ⊢
    obtain ⟨v, hv⟩ : ∃ v, v = if c = previous then u else u.moveChannel c previous i n elevated :=
      ⟨_, rfl⟩
    rw [← hv]
    have hmoved : ((u.retireChannel previous).modifyMembers (u.clientSet n) fun set ↦
        (set.delete previous).add c).RowsFollow := (hset.retireChannel previous).of_eq rfl rfl
    -- Behind the INSERT only the row of `c` is another one.
    have hw : ∃ w : SharedSessionContext, w.RowsFollow ∧ v.channels = w.channels ∧
        ∀ c', c' ≠ c → v.channelRows.get c' = w.channelRows.get c' := by
      rw [hv]
      split
      · exact ⟨u, hset, rfl, fun _ _ ↦ rfl⟩
      · refine ⟨_, hmoved, ?_, ?_⟩
        · rw [moveChannel]
          split <;> rfl
        · intro c' hne
          rw [moveChannel]
          split
          · rfl
          · exact OrderedMap.get_set_of_ne _ _ hne.symm
    obtain ⟨w, hw, hchannels, hrows⟩ := hw
    have hput : (((v.updateRow c .live).putChannel c ⟨i, session.hostId, .live, n⟩).trackChannel
        c).RowsFollow := by
      refine hw.put c ⟨i, session.hostId, .live, n⟩ v (fun c' ↦ ?_) fun c' ↦ ?_
      · rw [← hchannels]
        exact OrderedMap.get_set ..
      · change (v.channelRows.modify c _).get c' = _
        rw [OrderedMap.get_modify]
        split
        · rename_i heq
          rw [heq]
        · rename_i hne
          exact hrows c' (Ne.symm hne)
    split
    · exact hput.of_eq rfl rfl
    · exact hput

theorem RowsFollow.bury (alive : List ChannelId) : (s.bury alive).RowsFollow :=
  bury_rule h fun _ c ht ↦ ht.updateChannelStatus c .dead

theorem RowsFollow.restoreHost (i : ℕ) (alive : List ChannelId) :
    (s.restoreHost i alive).RowsFollow := by
  refine restoreHost_rule h fun session _ _ _ ↦ ⟨h.of_eq rfl rfl, fun t c _ ht ↦ ?_⟩
  refine ht.put c ⟨i, session.hostId, .orphan, t.clientSets.length⟩ t
    (fun c' ↦ OrderedMap.get_set ..) fun c' ↦ ?_
  change (t.channelRows.modify c _).get c' = _
  rw [OrderedMap.get_modify]
  split
  · rename_i heq
    rw [heq]
  · rfl

theorem RowsFollow.handleAttach (k : ℕ) (c : ChannelId) : (s.handleAttach k c).RowsFollow := by
  rw [SharedSessionContext.handleAttach]
  split
  · exact h
  · split
    · exact h
    · dsimp only
      split
      · exact RowsFollow.updateChannelStatus (h.of_eq rfl rfl) c .live
      · exact h.of_eq rfl rfl

/-- The INSERT and the write behind it make the row live. -/
theorem RowsFollow.spawned (k : ℕ) (c : ChannelId) (i : ℕ) (elevated : Bool) :
    (s.spawned k c i elevated).RowsFollow := by
  rw [SharedSessionContext.spawned]
  split
  · rename_i session hsession hrow
    refine h.put c ⟨i, session.hostId, .live, s.clientSets.length⟩
      (s.createChannel c ⟨i, .born, elevated⟩) (fun c' ↦ OrderedMap.get_set ..)
      fun c' ↦ ?_
    change ((s.channelRows.set c _).modify c _).get c' = _
    rw [OrderedMap.get_modify]
    split
    · rename_i heq
      rw [heq]
      rfl
    · rename_i hne
      exact OrderedMap.get_set_of_ne _ _ hne
  · exact h

theorem RowsFollow.respawned (k : ℕ) (c : ChannelId) (i : ℕ) : (s.respawned k c i).RowsFollow := by
  rw [SharedSessionContext.respawned]
  split
  · exact h
  · rename_i session hsession
    refine h.put c ⟨i, session.hostId, .live, s.clientSets.length⟩ s
      (fun c' ↦ OrderedMap.get_set ..) fun c' ↦ ?_
    change (s.channelRows.modify c _).get c' = _
    rw [OrderedMap.get_modify]
    split
    · rename_i heq
      rw [heq]
    · rfl

/-- Status and row are written together, whatever happens. -/
theorem RowsFollow.apply (a : ContextAction) : (s.apply a).RowsFollow := by
  cases a with
  | beginQuit =>
    rw [SharedSessionContext.apply]
    split
    · exact h
    · exact h.of_eq rfl rfl
  | addClient =>
    rw [SharedSessionContext.apply]
    split
    · exact h.of_eq rfl rfl
    · exact h
  | removeClient k => exact h.removeClient k
  | detachClient k c => exact h.detachClient k c
  | handleAttach k c => exact h.handleAttach k c
  | attachRejected k c n => exact (h.retireChannel c).of_eq rfl rfl
  | spawned k c i elevated => exact h.spawned k c i elevated
  | respawned k c i => exact h.respawned k c i
  | applyRestartState c previous i clients elevated =>
    exact h.applyRestartState c previous i clients elevated
  | destroyChannel c => exact h.destroyChannel c
  | markRowDead c =>
    rw [SharedSessionContext.apply]
    split
    · exact h
    · rename_i hnone
      intro c' ch row hch hrow
      rw [updateRow, OrderedMap.get_modify] at hrow
      split at hrow
      · rename_i heq
        subst heq
        exact absurd (by rw [show s.channels.get c = some ch from hch]; rfl) hnone
      · exact h c' ch row hch hrow
  | purgeRow c =>
    rw [SharedSessionContext.apply]
    split
    · intro c' ch row hch hrow
      rw [OrderedMap.get_delete] at hrow
      split at hrow
      · cases hrow
      · exact h c' ch row hch hrow
    · exact h
  | channelExit c =>
    rw [SharedSessionContext.apply]
    split
    · exact (h.updateChannelStatus c .dead).of_eq rfl rfl
    · exact h.of_eq rfl rfl
  | hostSpawned reAttach c n =>
    rw [SharedSessionContext.apply, hostSpawned]
    split
    · exact (h.updateChannelStatus c .live).of_eq rfl rfl
    · exact h.of_eq rfl rfl
  | hostSpawnFailed c => exact h.updateChannelStatus c .dead
  | daemonReady i a states =>
    rw [SharedSessionContext.apply, daemonReady]
    split
    · exact h
    · rename_i session hsession
      have hreconcile : (s.reconcileChannelState session.hostId states).RowsFollow :=
        reconcileChannelState_rule h h.setStatuses
      exact hreconcile.of_eq rfl rfl
  | closeSession i =>
    rw [SharedSessionContext.apply, closeSession]
    split
    · exact h
    · exact (h.killChannels _).of_eq rfl rfl
  | restoreHost i alive => exact h.restoreHost i alive
  | bury alive => exact h.bury alive
  | serve => exact h.of_eq rfl rfl
  | _ => exact h.of_sameChannels (sameChannels_apply _ trivial)

end

end SharedSessionContext

end Lasterm.Hub
