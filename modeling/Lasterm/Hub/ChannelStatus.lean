import Lasterm.Hub.Membership

/-!
# The status of a channel follows its clients

A channel is live while clients are attached to it, and orphan while none is: `Fits` says which
status goes with which set. Attaching and detaching keep to that. A restart makes the channel live
whatever the set has, and so does `reconcileChannelState` with a channel that its daemon reports
alive, so that a channel without clients can be live. `StatusCareful` rules this out, with the sets
that are out of date, and every run whose operations meet it keeps statuses and sets together
(`channelStatus_of_careful`).
-/

namespace Lasterm.Hub

/-- The status goes with the set of clients. A dead channel may have any. -/
def ChannelStatus.Fits (set : OrderedSet ℕ) : ChannelStatus → Prop
  | .born => False
  | .live => set.isEmpty = false
  | .orphan => set.isEmpty = true
  | .dead => True

namespace SharedSessionContext

variable {s t : SharedSessionContext} {k n i : ℕ} {c c' : ChannelId} {ch : ChannelState}
  {set : OrderedSet ℕ} {status : ChannelStatus}

/-- The invariant. -/
structure StatusInv (s : SharedSessionContext) : Prop where
  separate : s.Separate
  fits : ∀ c ch, s.channels.get c = some ch → ch.status.Fits (s.clientSet ch.clients)

theorem StatusInv.of_same (h : s.StatusInv) (hchannels : t.channels = s.channels)
    (hsets : t.clientSets = s.clientSets) : t.StatusInv where
  separate := ⟨fun c n hn ↦ by
      rw [channelSet, hchannels] at hn
      rw [hsets]
      exact h.separate.bound c n hn,
    fun c c' n hn hn' ↦ by
      rw [channelSet, hchannels] at hn hn'
      exact h.separate.inj c c' n hn hn'⟩
  fits c ch hch := by
    rw [clientSet, hsets]
    exact h.fits c ch (hchannels ▸ hch)

/-! ## Statuses -/

theorem StatusInv.of_sameChannels (h : s.StatusInv) (hsame : SameChannels s t) : t.StatusInv :=
  h.of_same hsame.channels hsame.clientSets

theorem get_setStatuses (f : ChannelId → ChannelState → ChannelStatus) :
    (s.setStatuses f).channels.get c =
      (s.channels.get c).map fun ch ↦ { ch with status := f c ch } :=
  OrderedMap.get_mapValues ..

theorem get_updateChannelStatus :
    (s.updateChannelStatus c status).channels.get c' =
      if c = c' then (s.channels.get c').map fun ch ↦ { ch with status := status }
      else s.channels.get c' :=
  OrderedMap.get_modify ..

section

variable (h : s.StatusInv)
include h

theorem StatusInv.setStatuses {f : ChannelId → ChannelState → ChannelStatus}
    (hf : ∀ c ch, s.channels.get c = some ch → (f c ch).Fits (s.clientSet ch.clients)) :
    (s.setStatuses f).StatusInv where
  separate := (sameMembers_setStatuses f).separate h.separate
  fits c ch hch := by
    rw [get_setStatuses, Option.map_eq_some_iff] at hch
    obtain ⟨ch, hch, rfl⟩ := hch
    exact hf c ch hch

theorem StatusInv.updateChannelStatus
    (hfits : ∀ ch, s.channels.get c = some ch → status.Fits (s.clientSet ch.clients)) :
    (s.updateChannelStatus c status).StatusInv where
  separate := (sameMembers_updateChannelStatus c status).separate h.separate
  fits c' ch hch := by
    rw [get_updateChannelStatus] at hch
    split at hch
    · rename_i heq
      subst heq
      rw [Option.map_eq_some_iff] at hch
      obtain ⟨ch, hch, rfl⟩ := hch
      exact hfits ch hch
    · exact h.fits c' ch hch

theorem StatusInv.die (c : ChannelId) : (s.updateChannelStatus c .dead).StatusInv :=
  h.updateChannelStatus fun _ _ ↦ trivial

theorem StatusInv.deleteChannel (c : ChannelId) : (s.deleteChannel c).StatusInv where
  separate := by
    refine h.separate.shrink (fun c' n hn ↦ ?_) rfl
    rw [channelSet_deleteChannel] at hn
    split at hn
    · cases hn
    · exact hn
  fits c' ch hch := by
    rw [SharedSessionContext.deleteChannel, OrderedMap.get_delete] at hch
    split at hch
    · cases hch
    · exact h.fits c' ch hch

theorem StatusInv.retireChannel (c : ChannelId) : (s.retireChannel c).StatusInv :=
  ((h.die c).of_same rfl rfl : StatusInv (((s.updateChannelStatus c .dead).modifyMembers
    (s.members c) fun set ↦ set.delete c).untrackChannel c)).deleteChannel c

/-! ## Sets -/

/-- A channel whose set has changed, with the status that it then has. -/
theorem StatusInv.of_update (status : ChannelStatus) (f : OrderedSet ℕ → OrderedSet ℕ)
    (hch : s.channels.get c = some ch) (hget : ∀ c', t.channels.get c' =
      if c = c' then some { ch with status := status } else s.channels.get c')
    (hsets : t.clientSets = s.clientSets.modify ch.clients f)
    (hfits : status.Fits (f (s.clientSet ch.clients))) : t.StatusInv := by
  have hset : t.channelSet = s.channelSet := by
    funext c'
    rw [channelSet, channelSet, hget]
    split
    · rename_i heq
      rw [← heq, hch]
      rfl
    · rfl
  have hclientSet : ∀ m, t.clientSet m = (s.modifySet ch.clients f).clientSet m := by
    intro m
    rw [clientSet, hsets]
    rfl
  have hlt := h.separate.bound c ch.clients (channelSet_of_get hch)
  refine ⟨⟨fun c' n hn ↦ ?_, fun c' c'' n hn hn' ↦ ?_⟩, fun c' ch' hch' ↦ ?_⟩
  · rw [hsets, List.length_modify]
    exact h.separate.bound c' n (hset ▸ hn)
  · exact h.separate.inj c' c'' n (hset ▸ hn) (hset ▸ hn')
  · rw [hclientSet, clientSet_modifySet]
    rw [hget] at hch'
    split at hch'
    · cases hch'
      rw [if_pos ⟨rfl, hlt⟩]
      exact hfits
    · rename_i hne
      -- The set of another channel is another one.
      rw [if_neg]
      · exact h.fits c' ch' hch'
      · rintro ⟨heq, -⟩
        exact hne (h.separate.inj c c' ch.clients (channelSet_of_get hch)
          (heq ▸ channelSet_of_get hch'))

/-- A channel that is put there, with a set that no other channel has. -/
theorem StatusInv.put (ch : ChannelState) (hlt : ch.clients < s.clientSets.length)
    (hown : ∀ c', s.channelSet c' = some ch.clients → c' = c)
    (hfits : ch.status.Fits (s.clientSet ch.clients))
    (hget : ∀ c', t.channels.get c' = if c = c' then some ch else s.channels.get c')
    (hsets : t.clientSets = s.clientSets) : t.StatusInv := by
  have hset : ∀ c', t.channelSet c' = if c = c' then some ch.clients else s.channelSet c' := by
    intro c'
    rw [channelSet, channelSet, hget]
    split <;> rfl
  refine ⟨⟨fun c' n hn ↦ ?_, fun c₁ c₂ n hn hn' ↦ ?_⟩, fun c' ch' hch' ↦ ?_⟩
  · rw [hset] at hn
    rw [hsets]
    split at hn
    · cases hn
      exact hlt
    · exact h.separate.bound c' n hn
  · rw [hset] at hn hn'
    split at hn <;> split at hn'
    · rename_i h₁ h₂
      exact h₁.symm.trans h₂
    · rename_i h₁ h₂
      cases hn
      exact absurd (hown c₂ hn').symm h₂
    · rename_i h₁ h₂
      cases hn'
      exact absurd (hown c₁ hn).symm h₁
    · exact h.separate.inj c₁ c₂ n hn hn'
  · rw [hget] at hch'
    rw [clientSet, hsets]
    split at hch'
    · cases hch'
      exact hfits
    · exact h.fits c' ch' hch'

theorem StatusInv.newSet (set : OrderedSet ℕ) : (s.newSet set).StatusInv where
  separate := h.separate.newSet set
  fits c ch hch := by
    rw [clientSet_newSet, if_neg (Nat.ne_of_lt (h.separate.bound c _ (channelSet_of_get hch)))]
    exact h.fits c ch hch

/-- A channel that is put there with a new set. -/
theorem StatusInv.put_new (ch : ChannelState) (set : OrderedSet ℕ)
    (hch : ch.clients = s.clientSets.length) (hfits : ch.status.Fits set)
    (hget : ∀ c', t.channels.get c' = if c = c' then some ch else s.channels.get c')
    (hsets : t.clientSets = s.clientSets ++ [set]) : t.StatusInv := by
  have hset : (s.newSet set).clientSet ch.clients = set := by rw [clientSet_newSet, if_pos hch]
  refine (h.newSet set).put ch (by simp [hch, SharedSessionContext.newSet]) (fun c' hc' ↦ ?_)
    (hset.symm ▸ hfits) hget hsets
  exact absurd (h.separate.bound c' _ hc') (by omega)

/-! ## Operations -/

theorem StatusInv.leaveChannel (k : ℕ) (hch : s.channels.get c = some ch) :
    (s.leaveChannel k c ch).StatusInv := by
  have hlt := h.separate.bound c ch.clients (channelSet_of_get hch)
  have hset : (s.modifySet ch.clients fun set ↦ set.delete k).clientSet ch.clients =
      (s.clientSet ch.clients).delete k := by
    rw [clientSet_modifySet, if_pos ⟨rfl, hlt⟩]
  have hfits := h.fits c ch hch
  rw [SharedSessionContext.leaveChannel, hset]
  split
  · rename_i hempty
    -- The last client of a live channel.
    have horphan : ((s.modifySet ch.clients fun set ↦ set.delete k).updateChannelStatus c
        .orphan).StatusInv := by
      refine h.of_update .orphan _ hch (fun c' ↦ ?_) rfl hempty.1
      rw [get_updateChannelStatus]
      split
      · rename_i heq
        subst heq
        change (s.channels.get c).map _ = _
        rw [hch]
        rfl
      · rfl
    exact horphan.of_sameChannels (sameChannels_checkSessionDetached _)
  · rename_i hnot
    refine h.of_update ch.status _ hch (fun c' ↦ ?_) rfl ?_
    · split
      · rename_i heq
        rw [← heq]
        exact hch
      · rfl
    · rcases hstatus : ch.status with _ | _ | _ | _
      · rw [hstatus] at hfits
        exact hfits
      · rw [hstatus] at hnot
        rw [ChannelStatus.Fits]
        simpa using hnot
      · rw [hstatus, ChannelStatus.Fits, OrderedSet.isEmpty_iff] at hfits
        rw [ChannelStatus.Fits, OrderedSet.isEmpty_iff]
        exact fun k' hk' ↦ hfits k' (OrderedSet.mem_delete.mp hk').1
      · trivial

theorem StatusInv.detachClient (k : ℕ) (c : ChannelId) : (s.detachClient k c).StatusInv :=
  detachClient_rule h (fun _ hch ↦ h.leaveChannel k hch) fun _ _ ht ↦ ht.of_same rfl rfl

theorem StatusInv.removeClient (k : ℕ) : (s.removeClient k).StatusInv :=
  removeClient_rule h (fun _ c ht ↦ ht.detachClient k c) fun _ _ ht ↦ ht.of_same rfl rfl

theorem StatusInv.handleAttach (k : ℕ) (c : ChannelId) : (s.handleAttach k c).StatusInv := by
  rw [SharedSessionContext.handleAttach]
  split
  · exact h
  · split
    · exact h
    · rename_i ch hch
      have hadd : ((s.clientSet ch.clients).add k).isEmpty = false := by
        rw [Bool.eq_false_iff, ne_eq, OrderedSet.isEmpty_iff]
        exact fun hempty ↦ hempty k (OrderedSet.mem_add.mpr (.inl rfl))
      have hfits := h.fits c ch hch
      dsimp only
      split
      · refine h.of_update .live (fun set ↦ set.add k) hch (fun c' ↦ ?_) rfl hadd
        rw [get_updateChannelStatus]
        split
        · rename_i heq
          subst heq
          change (s.channels.get c).map _ = _
          rw [hch]
          rfl
        · rfl
      · rename_i hstatus
        refine h.of_update ch.status (fun set ↦ set.add k) hch (fun c' ↦ ?_) rfl ?_
        · split
          · rename_i heq
            rw [← heq]
            exact hch
          · rfl
        · rcases hst : ch.status with _ | _ | _ | _
          · rw [hst] at hfits
            exact hfits
          · exact hadd
          · exact absurd hst hstatus
          · trivial

theorem StatusInv.attachRejected
    (hcareful : ∀ c' ch, s.channels.get c' = some ch → ch.clients = n → c' ≠ c →
      k ∉ s.clientSet n) : (s.attachRejected k c n).StatusInv := by
  have hretire := h.retireChannel c
  have hchannels : ∀ c', (s.attachRejected k c n).channels.get c' =
      (s.retireChannel c).channels.get c' :=
    fun _ ↦ rfl
  have hsets : (s.attachRejected k c n).clientSets =
      ((s.retireChannel c).modifySet n fun set ↦ set.delete k).clientSets := rfl
  have hsep := hretire.separate.modifySet n fun set ↦ set.delete k
  refine ⟨⟨hsep.bound, hsep.inj⟩, fun c' ch hch ↦ ?_⟩
  have hch' : (s.retireChannel c).channels.get c' = some ch := hch
  have hfits := hretire.fits c' ch hch'
  change ch.status.Fits (((s.retireChannel c).modifySet n fun set ↦ set.delete k).clientSet
    ch.clients)
  rw [clientSet_modifySet]
  split
  · rename_i heq
    -- The set is that of a channel that is still there, so that the client is not in it.
    have hset := channelSet_of_retireChannel (channelSet_of_get hch')
    have hne : c' ≠ c := by
      rintro rfl
      rw [SharedSessionContext.retireChannel, SharedSessionContext.deleteChannel,
        OrderedMap.get_delete_self] at hch'
      cases hch'
    rw [channelSet, Option.map_eq_some_iff] at hset
    obtain ⟨ch₀, hch₀, hclients⟩ := hset
    have hk : k ∉ (s.retireChannel c).clientSet ch.clients := by
      rw [heq.1]
      exact hcareful c' ch₀ hch₀ (hclients.trans heq.1) hne
    rw [OrderedSet.delete_of_not_mem hk]
    exact hfits
  · exact hfits

theorem StatusInv.spawned (k : ℕ) (c : ChannelId) (i : ℕ) (elevated : Bool) :
    (s.spawned k c i elevated).StatusInv := by
  rw [SharedSessionContext.spawned]
  split
  · rename_i session hsession hrow
    exact h.put_new ⟨i, session.hostId, .live, s.clientSets.length⟩ (.singleton k) rfl rfl
      (fun c' ↦ OrderedMap.get_set ..) rfl
  · exact h

theorem StatusInv.respawned (k : ℕ) (c : ChannelId) (i : ℕ) : (s.respawned k c i).StatusInv := by
  rw [SharedSessionContext.respawned]
  split
  · exact h
  · rename_i session hsession
    exact h.put_new ⟨i, session.hostId, .live, s.clientSets.length⟩ (.singleton k) rfl rfl
      (fun c' ↦ OrderedMap.get_set ..) rfl

end

/-- A restart of a channel with a set that has clients, and that no channel has but the one that is
restarted. -/
def RestartLive (s : SharedSessionContext) (previous : ChannelId) (clients : Option ℕ) : Prop :=
  (s.restartSet clients).isEmpty = false ∧
    ∀ c' ch, s.channels.get c' = some ch → some ch.clients = clients → c' = previous

instance (s : SharedSessionContext) (previous : ChannelId) (clients : Option ℕ) :
    Decidable (s.RestartLive previous clients) :=
  inferInstanceAs (Decidable (_ ∧ _))

theorem StatusInv.applyRestartState (h : s.StatusInv) {previous : ChannelId} {clients : Option ℕ}
    (hlive : s.RestartLive previous clients) (c : ChannelId) (i : ℕ) (elevated : Bool) :
    (s.applyRestartState c previous i clients elevated).StatusInv := by
  obtain ⟨hset, hown⟩ := hlive
  -- A set that has clients is there.
  obtain ⟨n, rfl, hlt⟩ : ∃ n, clients = some n ∧ n < s.clientSets.length := by
    rcases clients with _ | n
    · cases hset
    · refine ⟨n, rfl, ?_⟩
      by_contra hlt
      rw [restartSet, Option.elim_some, clientSet, List.getElem?_eq_none (by omega)] at hset
      cases hset
  rw [SharedSessionContext.applyRestartState]
  split
  · exact h
  · rename_i session hsession
    rw [setOrNew, if_pos hlt]
    dsimp only
    have hput : ∀ t : SharedSessionContext, t.clientSets = s.clientSets → t.StatusInv →
        (∀ c', t.channelSet c' = some n → c' = c) →
        StatusInv
          (((t.updateRow c .live).putChannel c ⟨i, session.hostId, .live, n⟩).trackChannel c) := by
      intro t ht hinv hown'
      refine hinv.put ⟨i, session.hostId, .live, n⟩ (ht.symm ▸ hlt) hown' ?_
        (fun c' ↦ OrderedMap.get_set ..) rfl
      rw [clientSet, ht]
      exact hset
    have hinv : (((if c = previous then s else s.moveChannel c previous i n elevated).updateRow c
        .live).putChannel c ⟨i, session.hostId, .live, n⟩ |>.trackChannel c).StatusInv := by
      split
      · rename_i heq
        refine hput s rfl h fun c' hc' ↦ ?_
        rw [channelSet, Option.map_eq_some_iff] at hc'
        obtain ⟨ch, hch, hclients⟩ := hc'
        exact (hown c' ch hch (congrArg some hclients)).trans heq.symm
      · have hretire := h.retireChannel previous
        have hmove : (s.moveChannel c previous i n elevated).StatusInv :=
          moveChannel_rule (hretire.of_same rfl rfl) fun _ ht ↦ ht.of_same rfl rfl
        refine hput _ (by rw [moveChannel]; split <;> rfl) hmove fun c' hc' ↦ ?_
        have hc'' : (s.retireChannel previous).channelSet c' = some n := by
          rw [moveChannel] at hc'
          split at hc' <;> exact hc'
        have hold := channelSet_of_retireChannel hc''
        rw [channelSet, Option.map_eq_some_iff] at hold
        obtain ⟨ch, hch, hclients⟩ := hold
        -- Only the channel that was restarted had the set, and it is retired.
        obtain rfl := hown c' ch hch (congrArg some hclients)
        rw [channelSet_retireChannel, if_pos rfl] at hc''
        cases hc''
    split
    · exact hinv.of_same rfl rfl
    · exact hinv

theorem StatusInv.killChannels (h : s.StatusInv) (hostId : String) :
    (s.killChannels hostId).StatusInv := by
  refine killChannels_rule (h.setStatuses fun c ch hch ↦ ?_) fun _ _ ht ↦ ht.of_same rfl rfl
  split
  · trivial
  · exact h.fits c ch hch

theorem StatusInv.closeSession (h : s.StatusInv) (i : ℕ) : (s.closeSession i).StatusInv := by
  rw [SharedSessionContext.closeSession]
  split
  · exact h
  · exact (h.killChannels _).of_same rfl rfl

/-- No channel that the daemon reports alive is orphan. -/
def ReportsAttached (s : SharedSessionContext) (i : ℕ) (states : List (ChannelId × Bool)) : Prop :=
  ∀ session ∈ s.sessionStates[i]?, ∀ j ∈ s.sessions.get session.hostId,
    ∀ c ch, s.channels.get c = some ch → ch.hostId = session.hostId → ch.sessionId = j →
      c ∈ (states.filter Prod.snd).map Prod.fst → ch.status ≠ .orphan

instance (s : SharedSessionContext) (i : ℕ) (states : List (ChannelId × Bool)) :
    Decidable (s.ReportsAttached i states) :=
  by delta ReportsAttached; infer_instance

theorem StatusInv.daemonReady (h : s.StatusInv) {states : List (ChannelId × Bool)}
    (hattached : s.ReportsAttached i states) (a : ℕ) : (s.daemonReady i a states).StatusInv := by
  rw [SharedSessionContext.daemonReady]
  split
  · exact h
  · rename_i session hsession
    have hreconcile : (s.reconcileChannelState session.hostId states).StatusInv := by
      rw [reconcileChannelState]
      split
      · exact h
      · rename_i j hj
        refine h.setStatuses fun c ch hch ↦ ?_
        rw [reconciled]
        split
        · rename_i hown
          split
          · rename_i hreported
            rw [if_neg (hattached session hsession j hj c ch hch hown.1 hown.2 hreported)]
            exact h.fits c ch hch
          · trivial
        · exact h.fits c ch hch
    exact hreconcile.of_same rfl rfl

theorem StatusInv.restoreHost (h : s.StatusInv) (i : ℕ) (alive : List ChannelId) :
    (s.restoreHost i alive).StatusInv :=
  restoreHost_rule h fun session _ _ _ ↦ ⟨h.of_same rfl rfl, fun t _ _ ht ↦
    ht.put_new ⟨i, session.hostId, .orphan, t.clientSets.length⟩ .empty rfl rfl
      (fun _ ↦ OrderedMap.get_set ..) rfl⟩

theorem StatusInv.bury (h : s.StatusInv) (alive : List ChannelId) : (s.bury alive).StatusInv :=
  bury_rule h fun _ c ht ↦ ht.die c

/-! ## All operations -/

/-- What goes wrong is excluded: a restart without clients, a daemon that reports a channel without
clients, and sets that are out of date. -/
def StatusCareful (s : SharedSessionContext) : ContextAction → Prop
  | .applyRestartState _ previous _ clients _ => s.RestartLive previous clients
  | .daemonReady i _ states => s.ReportsAttached i states
  | .hostSpawned reAttach c n =>
    reAttach = true → (s.clientSet n).isEmpty = false → ∀ ch ∈ s.channels.get c,
      (s.clientSet ch.clients).isEmpty = false
  | .attachRejected k c n =>
    ∀ c' ch, s.channels.get c' = some ch → ch.clients = n → c' ≠ c → k ∉ s.clientSet n
  | _ => True

instance (s : SharedSessionContext) (a : ContextAction) : Decidable (s.StatusCareful a) := by
  apply a.casesOn (motive := fun a ↦ Decidable (s.StatusCareful a)) <;>
    intros <;> dsimp only [StatusCareful] <;> infer_instance

/-- **Careful actions keep statuses and sets together.** -/
theorem StatusInv.apply (h : s.StatusInv) (a : ContextAction) (ha : s.StatusCareful a) :
    (s.apply a).StatusInv := by
  cases a with
  | beginQuit =>
    rw [SharedSessionContext.apply]
    split
    · exact h
    · exact h.of_same rfl rfl
  | addClient =>
    rw [SharedSessionContext.apply]
    split
    · exact h.of_same rfl rfl
    · exact h
  | removeClient k => exact h.removeClient k
  | detachClient k c => exact h.detachClient k c
  | handleAttach k c => exact h.handleAttach k c
  | attachRejected k c n => exact h.attachRejected ha
  | spawned k c i elevated => exact h.spawned k c i elevated
  | respawned k c i => exact h.respawned k c i
  | applyRestartState c previous i clients elevated => exact h.applyRestartState ha c i elevated
  | destroyChannel c =>
    rw [SharedSessionContext.apply, destroyChannel]
    split
    · exact h
    · exact ((h.die c).of_same rfl rfl :
        ((s.updateChannelStatus c .dead).untrackChannel c).StatusInv).deleteChannel c
  | markRowDead c =>
    rw [SharedSessionContext.apply]
    split
    · exact h
    · exact h.of_same rfl rfl
  | purgeRow c =>
    rw [SharedSessionContext.apply]
    split
    · exact h.of_same rfl rfl
    · exact h
  | channelExit c =>
    rw [SharedSessionContext.apply]
    split
    · exact (h.die c).of_same rfl rfl
    · exact h.of_same rfl rfl
  | hostSpawned reAttach c n =>
    rw [SharedSessionContext.apply, hostSpawned]
    split
    · rename_i hlive
      have hinv : (s.updateChannelStatus c .live).StatusInv :=
        h.updateChannelStatus fun ch hch ↦ ha hlive.1 hlive.2 ch hch
      exact hinv.of_same rfl rfl
    · exact h.of_same rfl rfl
  | hostSpawnFailed c => exact h.die c
  | daemonReady i a states => exact h.daemonReady ha a
  | closeSession i => exact h.closeSession i
  | restoreHost i alive => exact h.restoreHost i alive
  | bury alive => exact h.bury alive
  | serve => exact h.of_same rfl rfl
  | _ => exact h.of_sameChannels (sameChannels_apply _ trivial)

theorem statusInv_opened (db : Database) : (opened db).StatusInv where
  separate := ⟨nofun, nofun⟩
  fits := nofun

/-! ## Runs -/

/-- A channel that is not dead, and whose agent is connected, is live if and only if it has clients,
and orphan if and only if it has none. -/
def ChannelStatuses (s : SharedSessionContext) : Prop :=
  ∀ c ch, s.channels.get c = some ch → ch.status ≠ .dead → s.agentConnected ch.hostId = true →
    (ch.status = .live ↔ ∃ k, k ∈ s.members c) ∧ (ch.status = .orphan ↔ ∀ k, k ∉ s.members c)

theorem StatusInv.channelStatuses (h : s.StatusInv) : s.ChannelStatuses := by
  intro c ch hch hdead _
  have hfits := h.fits c ch hch
  rw [members_of_channelSet (channelSet_of_get hch), ← OrderedSet.isEmpty_iff]
  have hmem : (∃ k, k ∈ s.clientSet ch.clients) ↔ ¬ (s.clientSet ch.clients).isEmpty = true := by
    rw [OrderedSet.isEmpty_iff]
    push Not
    exact Iff.rfl
  rw [hmem]
  rcases hstatus : ch.status with _ | _ | _ | _
  · rw [hstatus] at hfits
    exact hfits.elim
  · rw [hstatus, ChannelStatus.Fits] at hfits
    simp [hfits]
  · rw [hstatus, ChannelStatus.Fits] at hfits
    simp [hfits]
  · exact absurd hstatus hdead

end SharedSessionContext

namespace SessionHub

open Runs

/-- **Channel status follows attachment**, in every state that careful actions lead to. -/
theorem channelStatus_of_careful {db : Database} {es : List Event} :
    ∀ h, run step (start db) es = some h → h.Issued SharedSessionContext.StatusCareful →
      h.ctx.ChannelStatuses := by
  intro h _ hcareful
  have hinv : h.ctx.StatusInv :=
    ctx_invariant _ (fun s a hs ha ↦ hs.apply a ha)
      (SharedSessionContext.statusInv_opened db) hcareful
  exact hinv.channelStatuses

/-- A client attaches once more, and leaves. -/
def leaving : List Event := spawning ++ [.resume 0 (.spawnOk "c"), .attach 0 "c", .detach 0 "c"]

theorem channelStatus_of_careful_leaving :
    ∃ h, run step (start (.ofHost "desk" .daemon)) leaving = some h ∧ h.ctx.ChannelStatuses :=
  ⟨_, rfl, @channelStatus_of_careful _ leaving _ rfl (by decide)⟩

/-- A channel without clients is restarted, and is live then. -/
theorem live_without_clients :
    ∃ h, run step (start (.ofHost "desk" .daemon)) (leaving ++ [.restart "c" false,
        .resume 3 (.spawnOk "c"), .resume 3 .settled]) = some h ∧ ¬ h.ctx.ChannelStatuses := by
  refine ⟨_, rfl, fun h ↦ ?_⟩
  obtain ⟨hlive, -⟩ := h "c" _ rfl (by decide) rfl
  obtain ⟨k, hk⟩ := hlive.mp rfl
  cases hk

end SessionHub

end Lasterm.Hub
