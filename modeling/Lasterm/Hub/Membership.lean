import Lasterm.Hub.SessionManager

/-!
# Clients and channels know of each other

A channel has the set of its clients, and a client has the set of the channels to which it is
attached. About ten operations write to one or to both. The invariant is `MembershipInv`: the two
sides agree, and no two channels have one set. Some operations break it (`MembershipCareful` says
when): the client of a SPAWN may be gone when the answer comes, `destroyChannel` leaves the clients
of the channel as they are, and a restart goes on with the set that the channel had before. Wherever
no operation of a run does that, the two sides agree (`membership_of_careful`).
-/

namespace Lasterm.Hub

namespace SharedSessionContext

/-- The client is registered, and its `attachedChannels` has the channel. -/
def Attached (s : SharedSessionContext) (k : ℕ) (c : ChannelId) : Prop :=
  ∃ x, s.clients[k]? = some x ∧ x.connected = true ∧ c ∈ x.attachedChannels

variable {s s' s'' : SharedSessionContext} {k k' n i : ℕ} {c c' : ChannelId} {set : OrderedSet ℕ}

/-! ## Sets of clients -/

/-- Two channels have two sets. -/
structure Separate (s : SharedSessionContext) : Prop where
  bound : ∀ c n, s.channelSet c = some n → n < s.clientSets.length
  inj : ∀ c c' n, s.channelSet c = some n → s.channelSet c' = some n → c = c'

/-- The clients and the sets are the same, whatever else has changed. -/
structure SameMembers (s s' : SharedSessionContext) : Prop where
  channelSet : s'.channelSet = s.channelSet
  clientSets : s'.clientSets = s.clientSets
  clients : s'.clients = s.clients
  serving : s'.serving = s.serving

theorem SameMembers.refl : SameMembers s s := ⟨rfl, rfl, rfl, rfl⟩

theorem SameMembers.trans (h : SameMembers s s') (h' : SameMembers s' s'') : SameMembers s s'' where
  channelSet := h'.channelSet.trans h.channelSet
  clientSets := h'.clientSets.trans h.clientSets
  clients := h'.clients.trans h.clients
  serving := h'.serving.trans h.serving

theorem members_congr (hchannelSet : s'.channelSet = s.channelSet)
    (hclientSets : s'.clientSets = s.clientSets) : s'.members = s.members := by
  funext c
  rw [members, members, hchannelSet]
  rcases s.channelSet c with _ | n
  · rfl
  · simp only [Option.elim_some, clientSet, hclientSets]

theorem SameMembers.members (h : SameMembers s s') : s'.members = s.members :=
  members_congr h.channelSet h.clientSets

theorem SameMembers.attached (h : SameMembers s s') : s'.Attached k c ↔ s.Attached k c := by
  rw [Attached, Attached, h.clients]

theorem SameMembers.separate (h : SameMembers s s') (hs : s.Separate) : s'.Separate where
  bound c n hn := by
    rw [h.clientSets]
    exact hs.bound c n (h.channelSet ▸ hn)
  inj c c' n hn hn' := hs.inj c c' n (h.channelSet ▸ hn) (h.channelSet ▸ hn')

theorem channelSet_setStatuses (f : ChannelId → ChannelState → ChannelStatus) :
    (s.setStatuses f).channelSet = s.channelSet := by
  funext c
  rw [channelSet, channelSet, setStatuses, OrderedMap.get_mapValues, Option.map_map]
  rfl

theorem channelSet_updateChannelStatus (c : ChannelId) (status : ChannelStatus) :
    (s.updateChannelStatus c status).channelSet = s.channelSet := by
  funext c'
  rw [channelSet, channelSet, updateChannelStatus, OrderedMap.get_modify]
  split
  · rw [Option.map_map]
    rfl
  · rfl

theorem sameMembers_setStatuses (f : ChannelId → ChannelState → ChannelStatus) :
    SameMembers s (s.setStatuses f) := ⟨channelSet_setStatuses f, rfl, rfl, rfl⟩

theorem sameMembers_updateChannelStatus (c : ChannelId) (status : ChannelStatus) :
    SameMembers s (s.updateChannelStatus c status) :=
  ⟨channelSet_updateChannelStatus c status, rfl, rfl, rfl⟩

theorem sameMembers_updateSessionStatus (i : ℕ) (status : SessionStatus) :
    SameMembers s (s.updateSessionStatus i status) := ⟨rfl, rfl, rfl, rfl⟩

theorem SameChannels.sameMembers (h : SameChannels s s') : SameMembers s s' := by
  refine ⟨funext fun c ↦ ?_, h.clientSets, h.clients, h.serving⟩
  rw [channelSet, channelSet, h.channels]

theorem sameMembers_reconcileChannelState (hostId : String) (states : List (ChannelId × Bool)) :
    SameMembers s (s.reconcileChannelState hostId states) :=
  reconcileChannelState_rule .refl sameMembers_setStatuses

theorem sameMembers_daemonReady (i a : ℕ) (states : List (ChannelId × Bool)) :
    SameMembers s (s.daemonReady i a states) := by
  rw [daemonReady]
  split
  · exact .refl
  · rename_i session hsession
    exact (sameMembers_reconcileChannelState session.hostId states).trans ⟨rfl, rfl, rfl, rfl⟩

theorem sameMembers_killChannels (hostId : String) : SameMembers s (s.killChannels hostId) :=
  killChannels_rule (sameMembers_setStatuses _) fun _ _ ht ↦ ht.trans ⟨rfl, rfl, rfl, rfl⟩

theorem sameMembers_closeSession (i : ℕ) : SameMembers s (s.closeSession i) := by
  rw [closeSession]
  split
  · exact .refl
  · rename_i session hsession
    exact (sameMembers_killChannels session.hostId).trans ⟨rfl, rfl, rfl, rfl⟩

theorem sameMembers_bury (alive : List ChannelId) : SameMembers s (s.bury alive) :=
  bury_rule .refl fun _ c ht ↦ ht.trans (sameMembers_updateChannelStatus c .dead)

/-! ## Members after an update -/

theorem clientSet_modifySet (f : OrderedSet ℕ → OrderedSet ℕ) (m : ℕ) :
    (s.modifySet n f).clientSet m =
      if m = n ∧ n < s.clientSets.length then f (s.clientSet m) else s.clientSet m := by
  rw [clientSet, clientSet, modifySet, List.getElem?_modify]
  by_cases hm : n = m
  · subst hm
    by_cases hlt : n < s.clientSets.length
    · simp [hlt]
    · simp [hlt]
  · rw [if_neg fun h ↦ hm h.1.symm]
    simp [hm]

theorem clientSet_newSet (m : ℕ) :
    (s.newSet set).clientSet m = if m = s.clientSets.length then set else s.clientSet m := by
  rw [clientSet, clientSet, newSet, List.getElem?_append]
  split
  · rename_i hlt
    rw [if_neg (Nat.ne_of_lt hlt)]
  · rename_i hlt
    split
    · rename_i heq
      simp [heq]
    · rename_i hne
      rw [List.getElem?_eq_none (by simpa using by omega), List.getElem?_eq_none (by omega)]

/-- `members` of a channel whose set is known. -/
theorem members_of_channelSet (h : s.channelSet c = some n) : s.members c = s.clientSet n := by
  rw [members, h]
  rfl

theorem members_of_none (h : s.channelSet c = none) : s.members c = .empty := by
  rw [members, h]
  rfl

theorem mem_members_iff : k ∈ s.members c ↔ ∃ n, s.channelSet c = some n ∧ k ∈ s.clientSet n := by
  rcases hset : s.channelSet c with _ | n
  · rw [members_of_none hset]
    simp
  · rw [members_of_channelSet hset]
    simp

theorem mem_members_delete :
    k' ∈ (s.modifySet n fun set ↦ set.delete k).members c ↔
      k' ∈ s.members c ∧ ¬ (k' = k ∧ s.channelSet c = some n) := by
  rw [mem_members_iff, mem_members_iff]
  change (∃ m, s.channelSet c = some m ∧ _) ↔ _
  constructor
  · rintro ⟨m, hm, hk⟩
    rw [clientSet_modifySet] at hk
    split at hk
    · rw [OrderedSet.mem_delete] at hk
      exact ⟨⟨m, hm, hk.1⟩, fun h ↦ hk.2 h.1⟩
    · rename_i hcond
      refine ⟨⟨m, hm, hk⟩, ?_⟩
      rintro ⟨rfl, hn⟩
      cases hm.symm.trans hn
      rw [clientSet, List.getElem?_eq_none (by omega)] at hk
      exact OrderedSet.not_mem_empty _ hk
  · rintro ⟨⟨m, hm, hk⟩, hnot⟩
    refine ⟨m, hm, ?_⟩
    rw [clientSet_modifySet]
    split
    · rename_i hcond
      rw [OrderedSet.mem_delete]
      exact ⟨hk, fun heq ↦ hnot ⟨heq, by rw [hm, hcond.1]⟩⟩
    · exact hk

theorem mem_members_add (hn : n < s.clientSets.length) :
    k' ∈ (s.modifySet n fun set ↦ set.add k).members c ↔
      k' ∈ s.members c ∨ (k' = k ∧ s.channelSet c = some n) := by
  rw [mem_members_iff, mem_members_iff]
  change (∃ m, s.channelSet c = some m ∧ _) ↔ _
  simp only [clientSet_modifySet, hn, and_true]
  constructor
  · rintro ⟨m, hm, hk⟩
    split at hk
    · rename_i hmn
      rw [OrderedSet.mem_add] at hk
      rcases hk with rfl | hk
      · exact .inr ⟨rfl, by rw [hm, hmn]⟩
      · exact .inl ⟨m, hm, hk⟩
    · exact .inl ⟨m, hm, hk⟩
  · rintro (⟨m, hm, hk⟩ | ⟨rfl, hn'⟩)
    · refine ⟨m, hm, ?_⟩
      split
      · exact OrderedSet.mem_add.mpr (.inr hk)
      · exact hk
    · exact ⟨n, hn', by rw [if_pos rfl]; exact OrderedSet.mem_add.mpr (.inl rfl)⟩

theorem channelSet_putChannel (ch : ChannelState) :
    (s.putChannel c ch).channelSet c' = if c = c' then some ch.clients else s.channelSet c' := by
  rw [channelSet, channelSet, putChannel, OrderedMap.get_set]
  split <;> rfl

theorem channelSet_deleteChannel :
    (s.deleteChannel c).channelSet c' = if c = c' then none else s.channelSet c' := by
  rw [channelSet, channelSet, deleteChannel, OrderedMap.get_delete]
  split <;> rfl

theorem mem_members_deleteChannel :
    k ∈ (s.deleteChannel c).members c' ↔ k ∈ s.members c' ∧ c' ≠ c := by
  rw [mem_members_iff, mem_members_iff, channelSet_deleteChannel]
  split
  · rename_i heq
    constructor
    · rintro ⟨m, hm, -⟩
      cases hm
    · rintro ⟨-, hne⟩
      exact absurd heq.symm hne
  · rename_i hne
    constructor
    · intro h
      exact ⟨h, Ne.symm hne⟩
    · exact And.left

/-! ## Attachments after an update -/

theorem attached_add :
    (s.modifyClient k fun x ↦ { x with attachedChannels := x.attachedChannels.add c }).Attached
      k' c' ↔
      s.Attached k' c' ∨ (k' = k ∧ c' = c ∧ s.isConnected k = true) := by
  rw [Attached, Attached, modifyClient, isConnected]
  simp only [List.getElem?_modify, Option.map_eq_map]
  rcases hx : s.clients[k']? with _ | x
  · simp only [Option.map_none]
    constructor
    · rintro ⟨y, hy, -⟩
      cases hy
    · rintro (⟨y, hy, -⟩ | ⟨rfl, -, h⟩)
      · cases hy
      · rw [hx] at h
        cases h
  · by_cases hk : k = k'
    · subst hk
      simp only [if_pos, Option.map_some, Option.some.injEq, exists_eq_left', hx, Option.any_some,
        OrderedSet.mem_add]
      tauto
    · simp only [if_neg hk, Option.map_some, Option.some.injEq, exists_eq_left']
      constructor
      · exact Or.inl
      · rintro (h | ⟨rfl, -⟩)
        · exact h
        · exact absurd rfl hk

theorem attached_delete :
    (s.modifyClient k fun x ↦
        { x with attachedChannels := x.attachedChannels.delete c }).Attached k' c' ↔
      s.Attached k' c' ∧ ¬ (k' = k ∧ c' = c) := by
  rw [Attached, Attached, modifyClient]
  simp only [List.getElem?_modify, Option.map_eq_map]
  rcases hx : s.clients[k']? with _ | x
  · simp
  · by_cases hk : k = k'
    · subst hk
      simp only [if_pos, Option.map_some, Option.some.injEq, exists_eq_left', OrderedSet.mem_delete]
      tauto
    · simp only [if_neg hk, Option.map_some, Option.some.injEq, exists_eq_left']
      constructor
      · intro h
        exact ⟨h, fun h' ↦ hk h'.1.symm⟩
      · exact And.left

theorem attached_modifyMembers {f : OrderedSet ChannelId → OrderedSet ChannelId} :
    (s.modifyMembers set f).Attached k c ↔
      ∃ x, s.clients[k]? = some x ∧ x.connected = true ∧
        if k ∈ set then c ∈ f x.attachedChannels else c ∈ x.attachedChannels := by
  rw [Attached, modifyMembers]
  simp only [List.getElem?_mapIdx]
  rcases s.clients[k]? with _ | x
  · simp
  · simp only [Option.map_some, Option.some.injEq, exists_eq_left']
    by_cases hk : k ∈ set
    · by_cases hx : x.connected = true
      · simp [hk, hx]
      · simp [hx]
    · simp [hk]

/-! ## The invariant -/

structure MembershipInv (s : SharedSessionContext) : Prop where
  agree : ∀ k c, k ∈ s.members c ↔ s.Attached k c
  separate : s.Separate
  /-- No client comes in before the routes are registered. -/
  early : s.serving = false → s.clients = []

theorem MembershipInv.of_same (h : s.MembershipInv) (hs : SameMembers s s') : s'.MembershipInv where
  agree k c := by rw [hs.members, hs.attached, h.agree]
  separate := hs.separate h.separate
  early := by
    rw [hs.serving, hs.clients]
    exact h.early

/-- Where two sets are one, it is the set of one channel. -/
theorem Separate.channelSet_iff (h : s.Separate) (hc : s.channelSet c = some n) :
    s.channelSet c' = some n ↔ c' = c := by
  constructor
  · intro hc'
    exact h.inj c' c n hc' hc
  · rintro rfl
    exact hc

theorem channelSet_of_get {ch : ChannelState} (hch : s.channels.get c = some ch) :
    s.channelSet c = some ch.clients := by
  rw [channelSet, hch]
  rfl

/-! ### Detaching -/

theorem sameMembers_leaveChannel (k : ℕ) (c : ChannelId) (ch : ChannelState) :
    SameMembers (s.modifySet ch.clients fun set ↦ set.delete k) (s.leaveChannel k c ch) := by
  rw [leaveChannel]
  split
  · exact (sameMembers_updateChannelStatus c .orphan).trans
      (sameChannels_checkSessionDetached _).sameMembers
  · exact .refl

theorem Separate.modifySet (h : s.Separate) (n : ℕ) (f : OrderedSet ℕ → OrderedSet ℕ) :
    (s.modifySet n f).Separate where
  bound c m hm := (h.bound c m hm).trans_eq (List.length_modify ..).symm
  inj := h.inj

/-- What `detachClient` does to the channel. -/
theorem MembershipInv.leave (h : s.MembershipInv) (k : ℕ) (c : ChannelId) :
    let t := (s.channels.get c).elim s fun ch ↦ s.leaveChannel k c ch
    (∀ k' c', k' ∈ t.members c' ↔ k' ∈ s.members c' ∧ ¬ (k' = k ∧ c' = c)) ∧
      t.Separate ∧ t.clients = s.clients ∧ t.serving = s.serving := by
  rcases hch : s.channels.get c with _ | ch
  · refine ⟨fun k' c' ↦ ?_, h.separate, rfl, rfl⟩
    constructor
    · intro hk
      refine ⟨hk, ?_⟩
      rintro ⟨-, rfl⟩
      rw [Option.elim_none, members, channelSet, hch] at hk
      exact OrderedSet.not_mem_empty _ hk
    · exact And.left
  · have hsame := s.sameMembers_leaveChannel k c ch
    refine ⟨fun k' c' ↦ ?_, hsame.separate (h.separate.modifySet _ _), hsame.clients,
      hsame.serving⟩
    rw [Option.elim_some, hsame.members, mem_members_delete,
      h.separate.channelSet_iff (channelSet_of_get hch)]

theorem isConnected_of_attached (h : s.Attached k c) : s.isConnected k = true := by
  obtain ⟨x, hx, hconnected, -⟩ := h
  rw [isConnected, hx]
  exact hconnected

theorem attached_congr (h : s'.clients = s.clients) : s'.Attached k c ↔ s.Attached k c := by
  rw [Attached, Attached, h]

theorem attached_detachClient (h : s.MembershipInv) :
    (s.detachClient k c).Attached k' c' ↔ s.Attached k' c' ∧ ¬ (k' = k ∧ c' = c) := by
  obtain ⟨-, -, hclients, -⟩ := h.leave k c
  rw [detachClient]
  split
  · rw [attached_delete, attached_congr hclients]
  · rename_i hnot
    rw [attached_congr hclients]
    constructor
    · intro hatt
      refine ⟨hatt, ?_⟩
      rintro ⟨rfl, -⟩
      exact hnot (isConnected_of_attached ((attached_congr hclients).mpr hatt))
    · exact And.left

theorem MembershipInv.detachClient (h : s.MembershipInv) (k : ℕ) (c : ChannelId) :
    (s.detachClient k c).MembershipInv := by
  obtain ⟨hmembers, hseparate, hclients, hserving⟩ := h.leave k c
  have hmembers' : ∀ k' c', k' ∈ (s.detachClient k c).members c' ↔
      k' ∈ s.members c' ∧ ¬ (k' = k ∧ c' = c) := by
    intro k' c'
    rw [SharedSessionContext.detachClient]
    split
    · exact hmembers k' c'
    · exact hmembers k' c'
  refine ⟨fun k' c' ↦ ?_, ?_, fun hs ↦ ?_⟩
  · rw [hmembers', attached_detachClient h, h.agree]
  · rw [SharedSessionContext.detachClient]
    split
    · exact ⟨hseparate.bound, hseparate.inj⟩
    · exact hseparate
  · rw [SharedSessionContext.detachClient] at hs ⊢
    have hnone : s.clients = [] := by
      apply h.early
      rw [← hserving]
      split at hs <;> exact hs
    split
    · simp [modifyClient, hclients, hnone]
    · rw [hclients, hnone]

theorem attached_disconnect :
    (s.modifyClient k fun x ↦ { x with connected := false }).Attached k' c ↔
      s.Attached k' c ∧ k' ≠ k := by
  rw [Attached, Attached, modifyClient]
  simp only [List.getElem?_modify, Option.map_eq_map]
  rcases hx : s.clients[k']? with _ | x
  · simp
  · by_cases hk : k = k'
    · simp [hk]
    · simp [hk, Ne.symm hk]

/-- A client without channels goes. -/
theorem MembershipInv.disconnect (h : s.MembershipInv) (hnone : ∀ c, ¬ s.Attached k c) :
    (s.modifyClient k fun x ↦ { x with connected := false }).MembershipInv where
  agree k' c := by
    rw [attached_disconnect, ← h.agree]
    constructor
    · intro hk
      refine ⟨hk, ?_⟩
      rintro rfl
      exact hnone c ((h.agree k' c).mp hk)
    · exact And.left
  separate := ⟨h.separate.bound, h.separate.inj⟩
  early hs := by simp [modifyClient, h.early hs]

theorem MembershipInv.removeClient (h : s.MembershipInv) (k : ℕ) :
    (s.removeClient k).MembershipInv := by
  rw [SharedSessionContext.removeClient]
  split
  · have hfold : ∀ (cs : List ChannelId) (t : SharedSessionContext), t.MembershipInv →
        (cs.foldl (fun t c ↦ t.detachClient k c) t).MembershipInv ∧
          ∀ c, (cs.foldl (fun t c ↦ t.detachClient k c) t).Attached k c →
            t.Attached k c ∧ c ∉ cs := by
      intro cs
      induction cs with
      | nil => exact fun t ht ↦ ⟨ht, fun c hc ↦ ⟨hc, List.not_mem_nil⟩⟩
      | cons c' cs ih =>
        intro t ht
        obtain ⟨hinv, hatt⟩ := ih _ (ht.detachClient k c')
        refine ⟨hinv, fun c hc ↦ ?_⟩
        obtain ⟨hc, hnot⟩ := hatt c hc
        rw [attached_detachClient ht] at hc
        refine ⟨hc.1, fun hmem ↦ ?_⟩
        rcases List.mem_cons.mp hmem with rfl | hmem
        · exact hc.2 ⟨rfl, rfl⟩
        · exact hnot hmem
    obtain ⟨hinv, hatt⟩ := hfold (s.attachedChannels k).elems s h
    refine hinv.disconnect fun c hc ↦ ?_
    -- What the client was attached to is what the loop went over.
    obtain ⟨⟨x, hx, -, hmem⟩, hnot⟩ := hatt c hc
    refine hnot ?_
    rw [attachedChannels, hx]
    exact hmem
  · exact h

/-! ### Channels with a new set -/

/-- The channel `c` gets a set of its own, and everything else keeps its set. -/
structure Seats (s t : SharedSessionContext) (c : ChannelId) (set : OrderedSet ℕ) : Prop where
  channelSet : ∀ c', t.channelSet c' = if c = c' then some s.clientSets.length else s.channelSet c'
  clientSets : t.clientSets = s.clientSets ++ [set]

variable {t : SharedSessionContext} {previous : ChannelId}

theorem Seats.mem_members (ht : Seats s t c set)
    (h : ∀ c n, s.channelSet c = some n → n < s.clientSets.length) :
    k ∈ t.members c' ↔ if c = c' then k ∈ set else k ∈ s.members c' := by
  have hclientSet : ∀ n, t.clientSet n = (s.newSet set).clientSet n := fun n ↦ by
    rw [clientSet, clientSet, ht.clientSets, newSet]
  rw [mem_members_iff, ht.channelSet]
  split
  · constructor
    · rintro ⟨n, hn, hk⟩
      cases hn
      rwa [hclientSet, clientSet_newSet, if_pos rfl] at hk
    · intro hk
      exact ⟨_, rfl, by rwa [hclientSet, clientSet_newSet, if_pos rfl]⟩
  · rw [mem_members_iff]
    refine exists_congr fun n ↦ and_congr_right fun hn ↦ ?_
    rw [hclientSet, clientSet_newSet, if_neg (Nat.ne_of_lt (h c' n hn))]

theorem Seats.separate (ht : Seats s t c set) (h : s.Separate) : t.Separate where
  bound c' n hn := by
    rw [ht.clientSets, List.length_append, List.length_singleton]
    rw [ht.channelSet] at hn
    split at hn
    · cases hn
      omega
    · have := h.bound c' n hn
      omega
  inj c₁ c₂ n h₁ h₂ := by
    rw [ht.channelSet] at h₁ h₂
    split at h₁ <;> split at h₂
    · rename_i hc₁ hc₂
      exact hc₁.symm.trans hc₂
    · cases h₁
      exact absurd (h.bound c₂ _ h₂) (Nat.lt_irrefl _)
    · cases h₂
      exact absurd (h.bound c₁ _ h₁) (Nat.lt_irrefl _)
    · exact h.inj c₁ c₂ n h₁ h₂

section

variable (h : s.MembershipInv)
include h

/-- One connected client in a channel that no other client is attached to. -/
theorem MembershipInv.seat (ht : Seats s t c (.singleton k))
    (hclients : t.clients = s.clients) (hserving : t.serving = s.serving)
    (hconnected : s.isConnected k = true) (halone : ∀ k' ∈ s.members c, k' = k) :
    (t.modifyClient k fun x ↦
      { x with attachedChannels := x.attachedChannels.add c }).MembershipInv where
  agree k' c' := by
    have hmembers : (t.modifyClient k fun x ↦
        { x with attachedChannels := x.attachedChannels.add c }).members = t.members :=
      members_congr rfl rfl
    have hconnected' : t.isConnected k = true := by rwa [isConnected, hclients]
    rw [hmembers, ht.mem_members h.separate.bound, attached_add, attached_congr hclients, ← h.agree]
    split
    · rename_i heq
      subst heq
      rw [OrderedSet.mem_singleton]
      constructor
      · rintro rfl
        exact .inr ⟨rfl, rfl, hconnected'⟩
      · rintro (hk | ⟨rfl, -⟩)
        · exact halone k' hk
        · rfl
    · rename_i hne
      constructor
      · exact Or.inl
      · rintro (hk | ⟨-, rfl, -⟩)
        · exact hk
        · exact absurd rfl hne
  separate := ⟨(ht.separate h.separate).bound, (ht.separate h.separate).inj⟩
  early hs := by
    rw [isConnected, h.early (hserving ▸ hs)] at hconnected
    cases hconnected

theorem MembershipInv.spawned (i : ℕ) (elevated : Bool) (hcareful : s.channelRows.get c = none →
      s.isConnected k = true ∧ ∀ k' ∈ s.members c, k' = k) :
    (s.spawned k c i elevated).MembershipInv := by
  rw [SharedSessionContext.spawned]
  split
  · rename_i session hsession hrow
    obtain ⟨hconnected, halone⟩ := hcareful hrow
    refine h.seat ⟨fun c' ↦ ?_, rfl⟩ rfl rfl hconnected halone
    exact channelSet_putChannel _
  · exact h

theorem MembershipInv.respawned (i : ℕ) (hconnected : s.isConnected k = true)
    (halone : ∀ k' ∈ s.members c, k' = k) : (s.respawned k c i).MembershipInv := by
  rw [SharedSessionContext.respawned]
  split
  · exact h
  · refine h.seat ⟨fun c' ↦ ?_, rfl⟩ rfl rfl hconnected halone
    exact channelSet_putChannel _

/-! ### Attaching and retiring -/

theorem MembershipInv.handleAttach (k : ℕ) (c : ChannelId) :
    (s.handleAttach k c).MembershipInv := by
  rw [SharedSessionContext.handleAttach]
  split
  · exact h
  · rename_i hconnected
    rw [Bool.not_eq_false] at hconnected
    split
    · exact h
    · rename_i ch hch
      have hset : s.channelSet c = some ch.clients := channelSet_of_get hch
      have hinv : ((s.modifySet ch.clients fun set ↦ set.add k).modifyClient k fun x ↦
          { x with attachedChannels := x.attachedChannels.add c }).MembershipInv := by
        refine ⟨fun k' c' ↦ ?_, ?_, fun hs ↦ ?_⟩
        · have hmembers : ((s.modifySet ch.clients fun set ↦ set.add k).modifyClient k fun x ↦
              { x with attachedChannels := x.attachedChannels.add c }).members =
              (s.modifySet ch.clients fun set ↦ set.add k).members := members_congr rfl rfl
          rw [hmembers, mem_members_add (h.separate.bound c _ hset), attached_add,
            h.separate.channelSet_iff hset, h.agree]
          change _ ↔ s.Attached k' c' ∨ k' = k ∧ c' = c ∧ s.isConnected k = true
          simp only [hconnected, and_true]
        · have hsep := h.separate.modifySet ch.clients fun set ↦ set.add k
          exact ⟨hsep.bound, hsep.inj⟩
        · have hnone : s.clients = [] := h.early hs
          rw [isConnected, hnone] at hconnected
          cases hconnected
      split
      · exact hinv.of_same (sameMembers_updateChannelStatus c .live)
      · exact hinv

end

theorem channelSet_retireChannel :
    (s.retireChannel c).channelSet c' = if c = c' then none else s.channelSet c' := by
  have hdelete : (s.retireChannel c).channelSet c' =
      ((s.updateChannelStatus c .dead).deleteChannel c).channelSet c' := rfl
  rw [hdelete, channelSet_deleteChannel, channelSet_updateChannelStatus]

theorem mem_members_retireChannel :
    k ∈ (s.retireChannel c).members c' ↔ k ∈ s.members c' ∧ c' ≠ c := by
  rw [mem_members_iff, mem_members_iff, channelSet_retireChannel]
  change (∃ n, _ ∧ k ∈ s.clientSet n) ↔ _
  split
  · rename_i heq
    constructor
    · rintro ⟨n, hn, -⟩
      cases hn
    · rintro ⟨-, hne⟩
      exact absurd heq.symm hne
  · rename_i hne
    constructor
    · intro hk
      exact ⟨hk, Ne.symm hne⟩
    · exact And.left

theorem MembershipInv.attached_retireChannel (h : s.MembershipInv) :
    (s.retireChannel c).Attached k c' ↔ s.Attached k c' ∧ c' ≠ c := by
  have hmodify : (s.retireChannel c).Attached k c' ↔
      (s.modifyMembers (s.members c) fun set ↦ set.delete c).Attached k c' := by
    rw [Attached, Attached]
    rfl
  rw [hmodify, attached_modifyMembers, Attached]
  constructor
  · rintro ⟨x, hx, hconnected, hmem⟩
    split at hmem
    · rw [OrderedSet.mem_delete] at hmem
      exact ⟨⟨x, hx, hconnected, hmem.1⟩, hmem.2⟩
    · rename_i hnot
      refine ⟨⟨x, hx, hconnected, hmem⟩, ?_⟩
      rintro rfl
      exact hnot ((h.agree k c').mpr ⟨x, hx, hconnected, hmem⟩)
  · rintro ⟨⟨x, hx, hconnected, hmem⟩, hne⟩
    refine ⟨x, hx, hconnected, ?_⟩
    split
    · exact OrderedSet.mem_delete.mpr ⟨hmem, hne⟩
    · exact hmem

theorem Separate.shrink (h : s.Separate)
    (hset : ∀ c n, t.channelSet c = some n → s.channelSet c = some n)
    (hlength : t.clientSets.length = s.clientSets.length) : t.Separate where
  bound c n hn := (h.bound c n (hset c n hn)).trans_eq hlength.symm
  inj c c' n hn hn' := h.inj c c' n (hset c n hn) (hset c' n hn')

theorem channelSet_of_retireChannel (h : (s.retireChannel c).channelSet c' = some n) :
    s.channelSet c' = some n := by
  rw [channelSet_retireChannel] at h
  split at h
  · cases h
  · exact h

theorem early_modifyMembers (h : s.clients = []) (f : OrderedSet ChannelId → OrderedSet ChannelId) :
    (s.modifyMembers set f).clients = [] := by
  rw [modifyMembers, h]
  rfl

theorem clients_retireChannel (h : s.clients = []) : (s.retireChannel c).clients = [] := by
  change (s.modifyMembers (s.members c) fun set ↦ set.delete c).clients = []
  exact early_modifyMembers h _

theorem MembershipInv.retireChannel (h : s.MembershipInv) (c : ChannelId) :
    (s.retireChannel c).MembershipInv where
  agree k c' := by rw [mem_members_retireChannel, h.attached_retireChannel, h.agree]
  separate := h.separate.shrink (fun c' n ↦ channelSet_of_retireChannel) rfl
  early hs := clients_retireChannel (h.early hs)

theorem MembershipInv.attachRejected (h : s.MembershipInv)
    (hcareful : ∀ c' ch, s.channels.get c' = some ch → ch.clients = n → c' ≠ c →
      k ∉ s.clientSet n) :
    (s.attachRejected k c n).MembershipInv := by
  have hretire := h.retireChannel c
  refine ⟨fun k' c' ↦ ?_, ?_, fun hs ↦ ?_⟩
  · have hmembers : (s.attachRejected k c n).members =
        ((s.retireChannel c).modifySet n fun set ↦ set.delete k).members := members_congr rfl rfl
    rw [hmembers, mem_members_delete, SharedSessionContext.attachRejected, attached_delete,
      hretire.agree]
    change _ ↔ (s.retireChannel c).Attached k' c' ∧ _
    refine and_congr_right fun hatt ↦ ?_
    rw [h.attached_retireChannel] at hatt
    constructor
    · rintro - ⟨-, rfl⟩
      exact hatt.2 rfl
    · rintro - ⟨rfl, hn⟩
      have hset := channelSet_of_retireChannel hn
      rw [channelSet, Option.map_eq_some_iff] at hset
      obtain ⟨ch, hch, rfl⟩ := hset
      refine hcareful c' ch hch rfl hatt.2 ?_
      rw [← members_of_channelSet (channelSet_of_get hch), h.agree]
      exact hatt.1
  · have hsep := hretire.separate.modifySet n fun set ↦ set.delete k
    exact ⟨hsep.bound, hsep.inj⟩
  · have hnone : (s.retireChannel c).clients = [] := hretire.early hs
    change List.modify (s.retireChannel c).clients k _ = []
    rw [hnone]
    simp

theorem MembershipInv.destroyChannel (h : s.MembershipInv) (hempty : ∀ k, k ∉ s.members c) :
    (s.destroyChannel c).MembershipInv := by
  rw [SharedSessionContext.destroyChannel]
  split
  · exact h
  · have hset : ∀ c',
        (((s.updateChannelStatus c .dead).untrackChannel c).deleteChannel c).channelSet c' =
          if c = c' then none else s.channelSet c' := fun c' ↦ by
      rw [channelSet_deleteChannel]
      exact congrArg _ (congrFun (channelSet_updateChannelStatus c .dead) c')
    refine ⟨fun k c' ↦ ?_, h.separate.shrink (fun c' n hn ↦ ?_) rfl, h.early⟩
    · rw [mem_members_deleteChannel]
      change k ∈ (s.updateChannelStatus c .dead).members c' ∧ _ ↔ s.Attached k c'
      rw [(sameMembers_updateChannelStatus c .dead).members, ← h.agree]
      constructor
      · exact And.left
      · intro hk
        refine ⟨hk, ?_⟩
        rintro rfl
        exact hempty k hk
    · rw [hset] at hn
      split at hn
      · cases hn
      · exact hn

/-! ### Restarts -/

/-- The set that a restart installs: that of the channel object it has, or none. -/
def restartSet (s : SharedSessionContext) (clients : Option ℕ) : OrderedSet ℕ :=
  clients.elim .empty s.clientSet

theorem sameSets_newSet (h : s.Separate) : (s.newSet set).members = s.members := by
  funext c
  rcases hset : s.channelSet c with _ | n
  · rw [members_of_none hset, members_of_none (s := s.newSet set) hset]
  · rw [members_of_channelSet hset, members_of_channelSet (s := s.newSet set) hset,
      clientSet_newSet, if_neg (Nat.ne_of_lt (h.bound c n hset))]

theorem Separate.newSet (h : s.Separate) (set : OrderedSet ℕ) : (s.newSet set).Separate where
  bound c n hn := by
    have := h.bound c n hn
    rw [SharedSessionContext.newSet, List.length_append]
    omega
  inj := h.inj

theorem MembershipInv.newSet (h : s.MembershipInv) (set : OrderedSet ℕ) :
    (s.newSet set).MembershipInv where
  agree k c := by
    rw [sameSets_newSet h.separate]
    exact h.agree k c
  separate := h.separate.newSet set
  early := h.early

/-- What `setOrNew` gives: a context with the same members, and a set in it that `previous` alone
may have. -/
structure Owns (s t : SharedSessionContext) (n : ℕ) (set : OrderedSet ℕ) (previous : ChannelId) :
    Prop where
  eq_or : t = s ∨ t = s.newSet .empty
  lt : n < t.clientSets.length
  clientSet : t.clientSet n = set
  own : ∀ c, t.channelSet c = some n → c = previous

theorem setOrNew_owns (h : s.Separate) {clients : Option ℕ}
    (hown : ∀ n ∈ clients, ∀ c, s.channelSet c = some n → c = previous) :
    Owns s (s.setOrNew clients).1 (s.setOrNew clients).2 (s.restartSet clients) previous := by
  have hnew : Owns s (s.newSet .empty) s.clientSets.length .empty previous := by
    refine ⟨.inr rfl, by simp [newSet], by rw [clientSet_newSet, if_pos rfl], fun c hc ↦ ?_⟩
    exact absurd (h.bound c _ hc) (Nat.lt_irrefl _)
  rcases clients with _ | n
  · exact hnew
  · rw [setOrNew]
    split
    · rename_i hlt
      exact ⟨.inl rfl, hlt, rfl, hown n rfl⟩
    · rename_i hlt
      have hempty : s.restartSet (some n) = .empty := by
        rw [restartSet, Option.elim_some, clientSet, List.getElem?_eq_none (by omega)]
        rfl
      rw [hempty]
      exact hnew

theorem Owns.inv (ht : Owns s t n set c) (h : s.MembershipInv) : t.MembershipInv := by
  rcases ht.eq_or with rfl | rfl
  · exact h
  · exact h.newSet _

theorem Owns.members (ht : Owns s t n set c) (h : s.Separate) : t.members = s.members := by
  rcases ht.eq_or with rfl | rfl
  · rfl
  · exact sameSets_newSet h

theorem Owns.clients (ht : Owns s t n set c) : t.clients = s.clients := by
  rcases ht.eq_or with rfl | rfl <;> rfl

/-- The channel `c` has the set `n`, and everything else keeps its set. -/
structure Installs (s t : SharedSessionContext) (c : ChannelId) (n : ℕ) : Prop where
  channelSet : ∀ c', t.channelSet c' = if c = c' then some n else s.channelSet c'
  clientSets : t.clientSets = s.clientSets
  clients : t.clients = s.clients
  serving : t.serving = s.serving

theorem Installs.mem_members (ht : Installs s t c n) :
    k ∈ t.members c' ↔ if c = c' then k ∈ s.clientSet n else k ∈ s.members c' := by
  have hclientSet : t.clientSet = s.clientSet := by
    funext m
    rw [clientSet, clientSet, ht.clientSets]
  rw [mem_members_iff, ht.channelSet, hclientSet]
  split
  · simp
  · exact mem_members_iff.symm

theorem Installs.inv (ht : Installs s t c n) (hn : n < s.clientSets.length)
    (hown : ∀ c', s.channelSet c' = some n → c' = c) (hseparate : s.Separate)
    (hearly : s.serving = false → s.clients = [])
    (hagree : ∀ k c', (if c = c' then k ∈ s.clientSet n else k ∈ s.members c') ↔ s.Attached k c') :
    t.MembershipInv where
  agree k c' := by rw [ht.mem_members, attached_congr ht.clients, hagree]
  separate := by
    constructor
    · intro c' m hm
      rw [ht.channelSet] at hm
      rw [ht.clientSets]
      split at hm
      · exact Option.some.inj hm ▸ hn
      · exact hseparate.bound c' m hm
    · intro c₁ c₂ m h₁ h₂
      rw [ht.channelSet] at h₁ h₂
      split at h₁ <;> split at h₂
      · rename_i hc₁ hc₂
        exact hc₁.symm.trans hc₂
      · rename_i hc₁ hc₂
        cases h₁
        exact absurd (hown c₂ h₂).symm hc₂
      · rename_i hc₁ hc₂
        cases h₂
        exact absurd (hown c₁ h₁).symm hc₁
      · exact hseparate.inj c₁ c₂ m h₁ h₂
  early hs := by
    rw [ht.clients]
    exact hearly (ht.serving ▸ hs)

theorem isConnected_iff :
    s.isConnected k = true ↔ ∃ x, s.clients[k]? = some x ∧ x.connected = true := by
  rw [isConnected, Option.any_eq_true]

theorem exists_connected_modifyMembers (set : OrderedSet ℕ)
    (f : OrderedSet ChannelId → OrderedSet ChannelId) :
    (∃ x, (s.modifyMembers set f).clients[k]? = some x ∧ x.connected = true) ↔
      ∃ x, s.clients[k]? = some x ∧ x.connected = true := by
  rw [modifyMembers]
  simp only [List.getElem?_mapIdx]
  rcases s.clients[k]? with _ | x
  · simp
  · simp only [Option.map_some, Option.some.injEq, exists_eq_left']
    split <;> rfl

/-- The clients of the set of a restart move from one channel to another. -/
theorem attached_moveChannel (h : s.MembershipInv) {elevated : Bool} :
    (s.moveChannel c previous i n elevated).Attached k c' ↔
      (s.isConnected k = true ∧ k ∈ s.clientSet n ∧ c' = c) ∨
        (s.Attached k c' ∧ c' ≠ previous) := by
  have hmodify : (s.moveChannel c previous i n elevated).Attached k c' ↔
      ((s.retireChannel previous).modifyMembers (s.clientSet n) fun set ↦
        (set.delete previous).add c).Attached k c' := by
    rw [moveChannel]
    split <;> exact attached_congr rfl
  have hconnected : s.isConnected k = true ↔
      ∃ x, (s.retireChannel previous).clients[k]? = some x ∧ x.connected = true := by
    rw [isConnected_iff, ← exists_connected_modifyMembers (s.members previous) fun set ↦
      set.delete previous]
    exact Iff.rfl
  rw [hmodify, attached_modifyMembers, ← h.attached_retireChannel, Attached, hconnected]
  constructor
  · rintro ⟨x, hx, hcon, hmem⟩
    split at hmem
    · rename_i hk
      rw [OrderedSet.mem_add, OrderedSet.mem_delete] at hmem
      rcases hmem with rfl | hmem
      · exact .inl ⟨⟨x, hx, hcon⟩, hk, rfl⟩
      · exact .inr ⟨x, hx, hcon, hmem.1⟩
    · exact .inr ⟨x, hx, hcon, hmem⟩
  · rintro (⟨⟨x, hx, hcon⟩, hk, rfl⟩ | ⟨x, hx, hcon, hmem⟩)
    · refine ⟨x, hx, hcon, ?_⟩
      rw [if_pos hk]
      exact OrderedSet.mem_add.mpr (.inl rfl)
    · refine ⟨x, hx, hcon, ?_⟩
      split
      · refine OrderedSet.mem_add.mpr (.inr (OrderedSet.mem_delete.mpr ⟨hmem, ?_⟩))
        exact (h.attached_retireChannel.mp ⟨x, hx, hcon, hmem⟩).2
      · exact hmem

theorem clients_moveChannel {elevated : Bool} (h : s.clients = []) :
    (s.moveChannel c previous i n elevated).clients = [] := by
  have hmove : ((s.retireChannel previous).modifyMembers (s.clientSet n) fun set ↦
      (set.delete previous).add c).clients = [] := early_modifyMembers (clients_retireChannel h) _
  rw [moveChannel]
  split <;> exact hmove

theorem mem_members_moveChannel {elevated : Bool} :
    k ∈ (s.moveChannel c previous i n elevated).members c' ↔ k ∈ s.members c' ∧ c' ≠ previous := by
  have hmembers : (s.moveChannel c previous i n elevated).members =
      (s.retireChannel previous).members :=
    by
      rw [moveChannel]
      split <;> exact members_congr rfl rfl
  rw [hmembers, mem_members_retireChannel]

/-- A restart whose set has the clients of the channel. Where the agent answers with another id,
they are all connected, and they include the clients of the channel that has this id. -/
def RestartCareful (s : SharedSessionContext) (c previous : ChannelId) (clients : Option ℕ) :
    Prop :=
  (∀ c' ch, s.channels.get c' = some ch → some ch.clients = clients → c' = previous) ∧
    if c = previous then ∀ k, k ∈ s.restartSet clients ↔ k ∈ s.members c
    else (∀ k ∈ s.restartSet clients, s.isConnected k = true) ∧
      ∀ k ∈ s.members c, k ∈ s.restartSet clients

instance (s : SharedSessionContext) (c previous : ChannelId) (clients : Option ℕ) :
    Decidable (s.RestartCareful c previous clients) :=
  inferInstanceAs (Decidable (_ ∧ ite _ _ _))

section

variable (h : s.MembershipInv)
include h

theorem MembershipInv.restarted {clients : Option ℕ}
    (hcareful : s.RestartCareful c previous clients) (elevated : Bool)
    (ht : Installs (if c = previous then (s.setOrNew clients).1
        else (s.setOrNew clients).1.moveChannel c previous i (s.setOrNew clients).2 elevated)
      t c (s.setOrNew clients).2) : t.MembershipInv := by
  have hown : ∀ n ∈ clients, ∀ c', s.channelSet c' = some n → c' = previous := by
    intro n hn c' hc'
    rw [channelSet, Option.map_eq_some_iff] at hc'
    obtain ⟨ch, hch, rfl⟩ := hc'
    exact hcareful.1 c' ch hch hn.symm
  have howns := setOrNew_owns h.separate hown
  have hinv := howns.inv h
  obtain ⟨-, hcareful⟩ := hcareful
  split at hcareful
  · rename_i heq
    rw [if_pos heq] at ht
    refine ht.inv howns.lt
      (fun c' hc' ↦ (howns.own c' hc').trans heq.symm) hinv.separate hinv.early ?_
    intro k c'
    rw [← hinv.agree, howns.clientSet, howns.members h.separate]
    split
    · rename_i hc
      rw [hcareful, hc]
    · exact Iff.rfl
  · rename_i hne
    rw [if_neg hne] at ht
    generalize (s.setOrNew clients).1 = u at ht howns hinv
    generalize (s.setOrNew clients).2 = n at ht howns
    have hsets : (u.moveChannel c previous i n elevated).clientSets = u.clientSets := by
      rw [moveChannel]
      split <;> rfl
    have hset : ∀ c' m, (u.moveChannel c previous i n elevated).channelSet c' = some m →
        u.channelSet c' = some m ∧ c' ≠ previous := by
      intro c' m hm
      have hretire : (u.retireChannel previous).channelSet c' = some m := by
        rw [moveChannel] at hm
        split at hm <;> exact hm
      rw [channelSet_retireChannel] at hretire
      split at hretire
      · cases hretire
      · rename_i hprevious
        exact ⟨hretire, Ne.symm hprevious⟩
    have hclientSet : (u.moveChannel c previous i n elevated).clientSet n = u.clientSet n := by
      rw [clientSet, clientSet, hsets]
    refine ht.inv (by rw [hsets]; exact howns.lt) (fun c' hc' ↦ ?_) ?_ ?_ ?_
    · obtain ⟨hc', hprevious⟩ := hset c' n hc'
      exact absurd (howns.own c' hc') hprevious
    · exact hinv.separate.shrink (fun c' m hm ↦ (hset c' m hm).1) (by rw [hsets])
    · intro hs
      refine clients_moveChannel (hinv.early ?_)
      rw [moveChannel] at hs
      split at hs <;> exact hs
    · intro k c'
      have hconnected : u.isConnected k =
          s.isConnected k := by rw [isConnected, isConnected, howns.clients]
      rw [attached_moveChannel hinv, ← hinv.agree, mem_members_moveChannel, hclientSet,
        howns.clientSet,
        hconnected, howns.members h.separate]
      have hcon := hcareful.1 k
      have hmem := hcareful.2 k
      split
      · rename_i hc
        subst hc
        constructor
        · intro hk
          exact .inl ⟨hcon hk, hk, rfl⟩
        · rintro (⟨-, hk, -⟩ | ⟨hk, -⟩)
          · exact hk
          · exact hmem hk
      · rename_i hc
        constructor
        · exact Or.inr
        · rintro (⟨-, -, rfl⟩ | hk)
          · exact absurd rfl hc
          · exact hk

theorem MembershipInv.applyRestartState
    {clients : Option ℕ} (hcareful : s.RestartCareful c previous clients) (elevated : Bool) :
    (s.applyRestartState c previous i clients elevated).MembershipInv := by
  rw [SharedSessionContext.applyRestartState]
  split
  · exact h
  · rename_i session hsession
    dsimp only
    have hinv := h.restarted (i := i) (t := _) hcareful elevated
      ⟨fun c' ↦ channelSet_putChannel ⟨i, session.hostId, .live, _⟩, rfl, rfl, rfl⟩
    split
    · exact hinv.of_same ⟨rfl, rfl, rfl, rfl⟩
    · exact hinv.of_same ⟨rfl, rfl, rfl, rfl⟩

/-! ### All actions -/

theorem MembershipInv.addClient (hserving : s.serving = true) :
    MembershipInv { s with clients := s.clients ++ [⟨true, .empty⟩] } where
  agree k c := by
    change k ∈ s.members c ↔ _
    rw [h.agree, Attached, Attached]
    refine exists_congr fun x ↦ ?_
    rw [List.getElem?_append]
    split
    · exact Iff.rfl
    · rename_i hlt
      constructor
      · rintro ⟨hx, -⟩
        rw [List.getElem?_eq_none (by omega)] at hx
        cases hx
      · rintro ⟨hx, -, hmem⟩
        rw [List.getElem?_singleton] at hx
        split at hx
        · cases hx
          exact absurd hmem (OrderedSet.not_mem_empty c)
        · cases hx
  separate := ⟨h.separate.bound, h.separate.inj⟩
  early hs := by
    rw [hserving] at hs
    cases hs

/-- A channel without clients that are attached gets an empty set. -/
theorem MembershipInv.putOrphan (hnone : s.clients = []) (i : ℕ) (hostId : String) (c : ChannelId) :
    (((s.updateRow c .orphan).newSet .empty).putChannel c
      ⟨i, hostId, .orphan, s.clientSets.length⟩).MembershipInv := by
  have hseats : Seats s (((s.updateRow c .orphan).newSet .empty).putChannel c
      ⟨i, hostId, .orphan, s.clientSets.length⟩) c .empty := ⟨fun c' ↦ channelSet_putChannel _, rfl⟩
  have hattached : ∀ k c', ¬ s.Attached k c' := by
    rintro k c' ⟨x, hx, -⟩
    rw [hnone] at hx
    cases hx
  refine ⟨fun k c' ↦ ?_, hseats.separate h.separate, fun _ ↦ hnone⟩
  rw [hseats.mem_members h.separate.bound, h.agree]
  change _ ↔ s.Attached k c'
  split
  · exact iff_of_false (OrderedSet.not_mem_empty k) (hattached k c')
  · exact Iff.rfl

theorem MembershipInv.restoreHost (i : ℕ) (alive : List ChannelId) :
    (s.restoreHost i alive).MembershipInv := by
  -- No client is there before the routes are.
  have hall : (s.restoreHost i alive).MembershipInv ∧
      (s.restoreHost i alive).clients = s.clients := by
    refine restoreHost_rule (motive := fun t ↦ t.MembershipInv ∧ t.clients = s.clients) ⟨h, rfl⟩
      fun session _ hrestoring _ ↦ ?_
    have hserving : s.serving = false := by
      rw [restoring, Bool.and_eq_true, Bool.not_eq_true'] at hrestoring
      exact hrestoring.1
    exact ⟨⟨h.of_same ⟨rfl, rfl, rfl, rfl⟩, rfl⟩, fun t c _ ⟨ht, hclients⟩ ↦
      ⟨ht.putOrphan (hclients.trans (h.early hserving)) i _ c, hclients⟩⟩
  exact hall.1

end

theorem sameMembers_hostSpawned (reAttach : Bool) (c : ChannelId) (n : ℕ) :
    SameMembers s (s.hostSpawned reAttach c n) := by
  have htrack : ∀ t : SharedSessionContext, SameMembers t (t.trackChannel c) :=
    fun t ↦ ⟨rfl, rfl, rfl, rfl⟩
  rw [hostSpawned]
  split
  · exact (sameMembers_updateChannelStatus c .live).trans (htrack _)
  · exact htrack s

theorem sameMembers_channelExit (c : ChannelId) : SameMembers s (s.apply (.channelExit c)) := by
  have huntrack : ∀ t : SharedSessionContext, SameMembers t (t.untrackChannel c) :=
    fun t ↦ ⟨rfl, rfl, rfl, rfl⟩
  rw [apply]
  split
  · exact (sameMembers_updateChannelStatus c .dead).trans (huntrack _)
  · exact huntrack s

/-- What goes wrong is excluded: a client that is gone while its SPAWN or its respawn is answered, a
channel that is destroyed while clients are attached to it, and sets that are out of date. -/
def MembershipCareful (s : SharedSessionContext) : ContextAction → Prop
  | .spawned k c _ _ =>
    s.channelRows.get c = none → s.isConnected k = true ∧ ∀ k' ∈ s.members c, k' = k
  | .respawned k c _ => s.isConnected k = true ∧ ∀ k' ∈ s.members c, k' = k
  | .applyRestartState c previous _ clients _ => s.RestartCareful c previous clients
  | .destroyChannel c => (s.members c).isEmpty = true
  | .attachRejected k c n =>
    ∀ c' ch, s.channels.get c' = some ch → ch.clients = n → c' ≠ c → k ∉ s.clientSet n
  | _ => True

instance (s : SharedSessionContext) (a : ContextAction) : Decidable (s.MembershipCareful a) := by
  apply a.casesOn (motive := fun a ↦ Decidable (s.MembershipCareful a)) <;>
    intros <;> dsimp only [MembershipCareful] <;> infer_instance

/-- The action writes to the sets of clients, to the clients, or opens the routes. -/
def MovesClients : ContextAction → Prop
  | .serve | .addClient | .removeClient _ | .detachClient .. | .handleAttach .. | .attachRejected ..
  | .spawned .. | .respawned .. | .applyRestartState .. | .destroyChannel _ | .restoreHost .. =>
    True
  | _ => False

theorem sameMembers_apply (a : ContextAction) (ha : ¬ MovesClients a) :
    SameMembers s (s.apply a) := by
  cases a with
  | beginQuit =>
    rw [apply]
    split
    · exact .refl
    · exact ⟨rfl, rfl, rfl, rfl⟩
  | markRowDead c =>
    rw [apply]
    split
    · exact .refl
    · exact ⟨rfl, rfl, rfl, rfl⟩
  | purgeRow c =>
    rw [apply]
    split
    · exact ⟨rfl, rfl, rfl, rfl⟩
    · exact .refl
  | channelExit c => exact sameMembers_channelExit c
  | hostSpawned reAttach c n => exact sameMembers_hostSpawned reAttach c n
  | hostSpawnFailed c => exact sameMembers_updateChannelStatus c .dead
  | daemonReady i a states => exact sameMembers_daemonReady i a states
  | closeSession i => exact sameMembers_closeSession i
  | bury alive => exact sameMembers_bury alive
  | serve | addClient | removeClient | detachClient | handleAttach | attachRejected | spawned
  | respawned | applyRestartState | destroyChannel | restoreHost => exact absurd trivial ha
  | _ => exact SameChannels.sameMembers (sameChannels_apply _ trivial)

/-- **Careful actions keep the two sides of the relation together.** -/
theorem MembershipInv.apply (h : s.MembershipInv) (a : ContextAction) (ha : s.MembershipCareful a) :
    (s.apply a).MembershipInv := by
  cases a with
  | serve => exact ⟨h.agree, ⟨h.separate.bound, h.separate.inj⟩, nofun⟩
  | addClient =>
    rw [SharedSessionContext.apply]
    split
    · rename_i hserving
      exact h.addClient hserving
    · exact h
  | removeClient k => exact h.removeClient k
  | detachClient k c => exact h.detachClient k c
  | handleAttach k c => exact h.handleAttach k c
  | attachRejected k c n => exact h.attachRejected ha
  | spawned k c i elevated => exact h.spawned i elevated ha
  | respawned k c i => exact h.respawned i ha.1 ha.2
  | applyRestartState c previous i clients elevated => exact h.applyRestartState ha elevated
  | destroyChannel c => exact h.destroyChannel (OrderedSet.isEmpty_iff.mp ha)
  | restoreHost i alive => exact h.restoreHost i alive
  | _ => exact h.of_same (sameMembers_apply _ id)

theorem membershipInv_opened (db : Database) : (opened db).MembershipInv where
  agree k c := by
    constructor
    · intro hk
      exact absurd hk (OrderedSet.not_mem_empty k)
    · rintro ⟨x, hx, -⟩
      cases hx
  separate := ⟨nofun, nofun⟩
  early _ := rfl

/-! ## Runs -/

/-- A client is in the set of a channel if and only if it is registered, and its `attachedChannels`
has the channel. No `attachedChannels` has a channel that is not there. -/
structure Membership (s : SharedSessionContext) : Prop where
  agree : ∀ k c, (s.channels.get c).isSome = true → (k ∈ s.members c ↔ s.Attached k c)
  present : ∀ k c, s.Attached k c → (s.channels.get c).isSome = true

theorem MembershipInv.membership (h : s.MembershipInv) : s.Membership where
  agree k c _ := h.agree k c
  present k c hatt := by
    obtain ⟨n, hn, -⟩ := mem_members_iff.mp ((h.agree k c).mpr hatt)
    rw [channelSet] at hn
    simpa using congrArg Option.isSome hn

end SharedSessionContext

namespace SessionHub

open Runs

/-- **Clients and channels know of each other**, in every state that careful actions lead to. -/
theorem membership_of_careful {db : Database} {es : List Event} :
    ∀ h, run step (start db) es = some h → h.Issued SharedSessionContext.MembershipCareful →
      h.ctx.Membership := by
  intro h _ hcareful
  have hinv : h.ctx.MembershipInv :=
    ctx_invariant _ (fun s a hs ha ↦ hs.apply a ha)
      (SharedSessionContext.membershipInv_opened db) hcareful
  exact hinv.membership

/-- A client gets a channel, and leaves. -/
theorem membership_of_careful_leaves :
    ∃ h, run step (start (.ofHost "desk" .daemon))
        (spawning ++ [.resume 0 (.spawnOk "c"), .disconnect 0]) = some h ∧ h.ctx.Membership := by
  refine ⟨_, rfl, @membership_of_careful _ (spawning ++ [.resume 0 (.spawnOk "c"), .disconnect 0])
    _ rfl ?_⟩
  decide

/-- A client leaves while its SPAWN is on the way, and the answer makes it a member of the
channel. -/
theorem ghost_member :
    ∃ h, run step (start (.ofHost "desk" .daemon))
        (spawning ++ [.disconnect 0, .resume 0 (.spawnOk "c")]) = some h ∧ ¬ h.ctx.Membership := by
  refine ⟨_, rfl, fun h ↦ ?_⟩
  obtain ⟨x, hx, hconnected, -⟩ := (h.agree 0 "c" rfl).mp (by decide)
  cases hx
  cases hconnected

end SessionHub

end Lasterm.Hub
