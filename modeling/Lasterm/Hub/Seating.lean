import Lasterm.Hub.Membership

/-!
# Who is in a channel behind an action

The sets of clients of all channels as one relation between clients and channels, and what each
action makes of it (`MemberAfter`, `seating_apply`). Unlike `MembershipInv` this asks nothing of the
state but that the sets exist, so that what other managers keep about members can be traced through
any run, also where the two sides of the relation have come apart.
-/

namespace Lasterm.Hub

namespace SharedSessionContext

variable {s t u : SharedSessionContext} {k k' n i : ℕ} {c c' : ChannelId} {set : OrderedSet ℕ}
  {R : ℕ → ChannelId → Prop}

/-- The set of every channel exists. -/
def Bound (s : SharedSessionContext) : Prop :=
  ∀ c n, s.channelSet c = some n → n < s.clientSets.length

/-- The same clients are connected, whatever they are attached to. -/
structure SameClients (s t : SharedSessionContext) : Prop where
  connected : ∀ k : ℕ,
    (t.clients[k]?).map WsClient.connected = (s.clients[k]?).map WsClient.connected

/-- From `s` to `t` the same clients are connected, and `R` says who is in which channel. -/
structure Seating (s t : SharedSessionContext) (R : ℕ → ChannelId → Prop) : Prop
    extends SameClients s t where
  members : ∀ k c, k ∈ t.members c ↔ R k c
  bound : t.Bound

theorem SameClients.refl : SameClients s s := ⟨fun _ ↦ rfl⟩

theorem SameClients.trans (h : SameClients s t) (h' : SameClients t u) : SameClients s u :=
  ⟨fun k ↦ (h'.connected k).trans (h.connected k)⟩

theorem SameClients.of_clients (h : t.clients = s.clients) : SameClients s t := ⟨fun k ↦ by rw [h]⟩

theorem SameClients.isConnected (h : SameClients s t) (k : ℕ) :
    t.isConnected k = s.isConnected k := by
  have hmap : ∀ o : Option WsClient,
      o.any WsClient.connected = (o.map WsClient.connected).any id := by
    rintro (_ | x) <;> rfl
  rw [SharedSessionContext.isConnected, SharedSessionContext.isConnected, hmap, hmap, h.connected]

theorem SameClients.length_eq (h : SameClients s t) : t.clients.length = s.clients.length := by
  have hmap : t.clients.map WsClient.connected = s.clients.map WsClient.connected := by
    apply List.ext_getElem?
    intro k
    rw [List.getElem?_map, List.getElem?_map, h.connected]
  simpa using congrArg List.length hmap

theorem isConnected_disconnect :
    (s.modifyClient k fun x ↦ { x with connected := false }).isConnected k' = true ↔
      s.isConnected k' = true ∧ k' ≠ k := by
  rw [isConnected, isConnected, modifyClient, List.getElem?_modify]
  rcases s.clients[k']? with _ | x
  · simp
  · by_cases hk : k = k'
    · simp [hk]
    · simp [hk, Ne.symm hk]

theorem sameClients_modifyClient (k : ℕ) (f : OrderedSet ChannelId → OrderedSet ChannelId) :
    SameClients s (s.modifyClient k fun x ↦
      { x with attachedChannels := f x.attachedChannels }) := by
  refine ⟨fun k' ↦ ?_⟩
  rw [modifyClient, List.getElem?_modify]
  rcases s.clients[k']? with _ | x
  · rfl
  · change some (WsClient.connected (ite _ _ _)) = some x.connected
    split <;> rfl

theorem sameClients_modifyMembers (set : OrderedSet ℕ)
    (f : OrderedSet ChannelId → OrderedSet ChannelId) : SameClients s (s.modifyMembers set f) := by
  refine ⟨fun k ↦ ?_⟩
  rw [modifyMembers]
  simp only [List.getElem?_mapIdx, Option.map_map]
  congr 1
  funext x
  rw [Function.comp_apply]
  split <;> rfl

theorem Bound.shrink (h : s.Bound) (hset : ∀ c n, t.channelSet c = some n → s.channelSet c = some n)
    (hlength : t.clientSets.length = s.clientSets.length) : t.Bound :=
  fun c n hn ↦ (h c n (hset c n hn)).trans_eq hlength.symm

theorem Bound.modifySet (h : s.Bound) (n : ℕ) (f : OrderedSet ℕ → OrderedSet ℕ) :
    (s.modifySet n f).Bound := fun c m hm ↦ (h c m hm).trans_eq (List.length_modify ..).symm

/-- Where the sets are the same, so is the seating. -/
theorem SameMembers.seating (h : SameMembers s t) (hs : s.Bound) :
    Seating s t fun k c ↦ k ∈ s.members c where
  toSameClients := .of_clients h.clients
  members k c := by rw [h.members]
  bound := hs.shrink (fun _ _ hn ↦ h.channelSet ▸ hn) (by rw [h.clientSets])

/-- A state that has the members of another. -/
theorem Seating.congr (h : Seating s t R) (ht : SameMembers t u) :
    Seating s u R where
  toSameClients := h.toSameClients.trans (.of_clients ht.clients)
  members k c := by rw [ht.members, h.members]
  bound := h.bound.shrink (fun _ _ hn ↦ ht.channelSet ▸ hn) (by rw [ht.clientSets])

/-- What clients are attached to is not asked for. -/
theorem Seating.modifyClient (h : Seating s t R) (k : ℕ)
    (f : OrderedSet ChannelId → OrderedSet ChannelId) :
    Seating s (t.modifyClient k fun x ↦ { x with attachedChannels := f x.attachedChannels }) R where
  toSameClients := h.toSameClients.trans (sameClients_modifyClient k f)
  members := h.members
  bound := h.bound

/-! ## Single actions -/

theorem seating_detachClient (hs : s.Bound) (k : ℕ) (c : ChannelId) :
    Seating s (s.detachClient k c) fun k' c' ↦
      k' ∈ s.members c' ∧
      ¬ (k' = k ∧ (s.channelSet c).isSome ∧ s.channelSet c' = s.channelSet c) := by
  have hleft : Seating s ((s.channels.get c).elim s fun ch ↦ s.leaveChannel k c ch) fun k' c' ↦
      k' ∈ s.members c' ∧
        ¬ (k' = k ∧ (s.channelSet c).isSome ∧ s.channelSet c' = s.channelSet c) := by
    rcases hch : s.channels.get c with _ | ch
    · have hnone : s.channelSet c = none := by rw [channelSet, hch]; rfl
      refine ⟨.refl, fun k' c' ↦ ?_, hs⟩
      simp [hnone]
    · have hset := channelSet_of_get hch
      have hdeleted : Seating s (s.modifySet ch.clients fun set ↦ set.delete k) fun k' c' ↦
          k' ∈ s.members c' ∧
            ¬ (k' = k ∧ (s.channelSet c).isSome ∧ s.channelSet c' = s.channelSet c) := by
        refine ⟨⟨fun _ ↦ rfl⟩, fun k' c' ↦ ?_, hs.modifySet ch.clients _⟩
        rw [mem_members_delete, hset]
        simp
      exact hdeleted.congr (s.sameMembers_leaveChannel k c ch)
  rw [detachClient]
  split
  · exact hleft.modifyClient k fun set ↦ set.delete c
  · exact hleft

theorem seating_handleAttach (hs : s.Bound) (k : ℕ) (c : ChannelId) :
    Seating s (s.handleAttach k c) fun k' c' ↦
      k' ∈ s.members c' ∨ (k' = k ∧ s.isConnected k = true ∧ (s.channelSet c).isSome ∧
        s.channelSet c' = s.channelSet c) := by
  rw [handleAttach]
  split
  · rename_i hgone
    exact ⟨.refl, fun k' c' ↦ by simp [hgone], hs⟩
  · rename_i hconnected
    rw [Bool.not_eq_false] at hconnected
    split
    · rename_i hnone
      have hset : s.channelSet c = none := by rw [channelSet, hnone]; rfl
      exact ⟨.refl, fun k' c' ↦ by simp [hset], hs⟩
    · rename_i ch hch
      have hset := channelSet_of_get hch
      -- The set may be that of other channels, too.
      have hadded : Seating s (s.modifySet ch.clients fun set ↦ set.add k) fun k' c' ↦
          k' ∈ s.members c' ∨ (k' = k ∧ s.isConnected k = true ∧ (s.channelSet c).isSome ∧
            s.channelSet c' = s.channelSet c) := by
        refine ⟨⟨fun _ ↦ rfl⟩, fun k' c' ↦ ?_, hs.modifySet _ _⟩
        rw [mem_members_add (hs c _ hset), hset, hconnected]
        simp
      have hclient := hadded.modifyClient k fun set ↦ set.add c
      split
      · exact hclient.congr (sameMembers_updateChannelStatus c .live)
      · exact hclient

theorem seating_destroyChannel (hs : s.Bound) (c : ChannelId) :
    Seating s (s.destroyChannel c) fun k' c' ↦ k' ∈ s.members c' ∧ c' ≠ c := by
  rw [destroyChannel]
  split
  · rename_i hnone
    refine ⟨.refl, fun k' c' ↦ ⟨fun hk ↦ ⟨hk, ?_⟩, And.left⟩, hs⟩
    rintro rfl
    rw [members_of_none (by rw [channelSet, hnone]; rfl)] at hk
    exact OrderedSet.not_mem_empty _ hk
  · have hdead := sameMembers_updateChannelStatus (s := s) c .dead
    refine ⟨⟨fun _ ↦ rfl⟩, fun k' c' ↦ ?_, hs.shrink (fun c' n hn ↦ ?_) rfl⟩
    · rw [mem_members_deleteChannel]
      change k' ∈ (s.updateChannelStatus c .dead).members c' ∧ _ ↔ _
      rw [hdead.members]
    · rw [channelSet_deleteChannel] at hn
      split at hn
      · cases hn
      · exact hdead.channelSet ▸ hn

theorem seating_retireChannel (hs : s.Bound) (c : ChannelId) :
    Seating s (s.retireChannel c) fun k' c' ↦ k' ∈ s.members c' ∧ c' ≠ c where
  toSameClients :=
    ⟨(sameClients_modifyMembers (s.members c) fun set ↦ set.delete c).connected⟩
  members _ _ := mem_members_retireChannel
  bound := hs.shrink (fun _ _ ↦ channelSet_of_retireChannel) rfl

theorem seating_attachRejected (hs : s.Bound) (k : ℕ) (c : ChannelId) (n : ℕ) :
    Seating s (s.attachRejected k c n) fun k' c' ↦
      k' ∈ s.members c' ∧ c' ≠ c ∧ ¬ (k' = k ∧ s.channelSet c' = some n) := by
  have hretire := seating_retireChannel hs c
  have hdeleted : Seating s ((s.retireChannel c).modifySet n fun set ↦ set.delete k) fun k' c' ↦
      k' ∈ s.members c' ∧ c' ≠ c ∧ ¬ (k' = k ∧ s.channelSet c' = some n) := by
    refine ⟨hretire.toSameClients.trans ⟨fun _ ↦ rfl⟩, fun k' c' ↦ ?_,
      hretire.bound.modifySet _ _⟩
    rw [mem_members_delete, hretire.members, channelSet_retireChannel, and_assoc]
    refine and_congr_right fun _ ↦ and_congr_right fun hne ↦ ?_
    rw [if_neg (Ne.symm hne)]
  exact hdeleted.modifyClient k fun set ↦ set.delete c

/-- A channel gets a new set. -/
theorem Seats.seating (ht : Seats s t c set) (hs : s.Bound) (hclients : t.clients = s.clients) :
    Seating s t fun k' c' ↦ if c = c' then k' ∈ set else k' ∈ s.members c' where
  toSameClients := .of_clients hclients
  members k' c' := ht.mem_members hs
  bound c' n hn := by
    rw [ht.clientSets, List.length_append, List.length_singleton]
    rw [ht.channelSet] at hn
    split at hn
    · cases hn
      exact Nat.lt_succ_self _
    · exact Nat.lt_succ_of_lt (hs c' n hn)

theorem seating_spawned (hs : s.Bound) (k : ℕ) (c : ChannelId) (i : ℕ) (elevated : Bool) :
    Seating s (s.spawned k c i elevated) fun k' c' ↦
      if (s.sessionStates[i]?).isSome ∧ s.channelRows.get c = none ∧ c = c' then k' = k
      else k' ∈ s.members c' := by
  rw [spawned]
  split
  · rename_i session hsession hrow
    have hseats : Seats s ((((s.createChannel c ⟨i, .born, elevated⟩).newSet
        (.singleton k)).putChannel c ⟨i, session.hostId, .live, s.clientSets.length⟩).updateRow c
          .live) c (.singleton k) := ⟨fun c' ↦ channelSet_putChannel _, rfl⟩
    have hput := (hseats.seating hs rfl).congr (u := (((((s.createChannel c
      ⟨i, .born, elevated⟩).newSet (.singleton k)).putChannel c
        ⟨i, session.hostId, .live, s.clientSets.length⟩).updateRow c .live).trackChannel c))
          ⟨rfl, rfl, rfl, rfl⟩
    have hclient := hput.modifyClient k fun set ↦ set.add c
    refine ⟨hclient.toSameClients, fun k' c' ↦ ?_, hclient.bound⟩
    rw [hclient.members, hsession, hrow]
    simp
  · rename_i hnot
    refine ⟨.refl, fun k' c' ↦ ?_, hs⟩
    rw [if_neg]
    rintro ⟨hsome, hrow, -⟩
    obtain ⟨session, hsession⟩ := Option.isSome_iff_exists.mp hsome
    exact hnot session hsession hrow

theorem seating_respawned (hs : s.Bound) (k : ℕ) (c : ChannelId) (i : ℕ) :
    Seating s (s.respawned k c i) fun k' c' ↦
      if (s.sessionStates[i]?).isSome ∧ c = c' then k' = k else k' ∈ s.members c' := by
  rw [respawned]
  split
  · rename_i hnone
    exact ⟨.refl, fun k' c' ↦ by simp [hnone], hs⟩
  · rename_i session hsession
    have hseats : Seats s ((((s.updateRow c .live).newSet (.singleton k)).putChannel c
        ⟨i, session.hostId, .live, s.clientSets.length⟩).trackChannel c) c (.singleton k) :=
      ⟨fun c' ↦ channelSet_putChannel _, rfl⟩
    have hclient := (hseats.seating hs rfl).modifyClient k fun set ↦ set.add c
    refine ⟨hclient.toSameClients, fun k' c' ↦ ?_, hclient.bound⟩
    rw [hclient.members, hsession]
    simp

/-! ## Restarts -/

/-- `startup` may restore the session. -/
def restores (s : SharedSessionContext) (i : ℕ) : Bool :=
  s.sessionStates[i]?.any fun session ↦ s.restoring session.hostId && session.row != .closed

theorem seating_newSet (hs : s.Bound) (set : OrderedSet ℕ) :
    Seating s (s.newSet set) fun k c ↦ k ∈ s.members c where
  toSameClients := ⟨fun _ ↦ rfl⟩
  members k c := by
    rw [mem_members_iff, mem_members_iff]
    refine exists_congr fun n ↦ and_congr_right fun hn ↦ ?_
    rw [clientSet_newSet, if_neg (Nat.ne_of_lt (hs c n hn))]
  bound c n hn := by
    rw [newSet, List.length_append]
    exact Nat.lt_add_right _ (hs c n hn)

/-- `setOrNew` gives a set that exists and has the elements of `restartSet`. -/
theorem seating_setOrNew (hs : s.Bound) (clients : Option ℕ) :
    Seating s (s.setOrNew clients).1 (fun k c ↦ k ∈ s.members c) ∧
      (s.setOrNew clients).2 < (s.setOrNew clients).1.clientSets.length ∧
      (s.setOrNew clients).1.clientSet (s.setOrNew clients).2 = s.restartSet clients := by
  have hnew : Seating s (s.newSet .empty) (fun k c ↦ k ∈ s.members c) ∧
      s.clientSets.length < (s.newSet .empty).clientSets.length ∧
      (s.newSet .empty).clientSet s.clientSets.length = .empty :=
    ⟨seating_newSet hs .empty, by simp [newSet], by rw [clientSet_newSet, if_pos rfl]⟩
  rcases clients with _ | n
  · exact hnew
  · rw [setOrNew]
    split
    · rename_i hlt
      exact ⟨⟨.refl, fun _ _ ↦ Iff.rfl, hs⟩, hlt, rfl⟩
    · rename_i hlt
      have hempty : s.restartSet (some n) = .empty := by
        rw [restartSet, Option.elim_some, clientSet, List.getElem?_eq_none (by omega)]
        rfl
      rw [hempty]
      exact hnew

theorem clientSets_moveChannel {previous : ChannelId} {elevated : Bool} :
    (s.moveChannel c previous i n elevated).clientSets = s.clientSets := by
  rw [moveChannel]
  split <;> rfl

theorem seating_moveChannel (hs : s.Bound) (c previous : ChannelId) (i n : ℕ) (elevated : Bool) :
    Seating s (s.moveChannel c previous i n elevated) fun k c' ↦
      k ∈ s.members c' ∧ c' ≠ previous := by
  have hretire := seating_retireChannel hs previous
  have hmoved : Seating s ((s.retireChannel previous).modifyMembers (s.clientSet n) fun set ↦
      (set.delete previous).add c) fun k c' ↦ k ∈ s.members c' ∧ c' ≠ previous :=
    ⟨hretire.toSameClients.trans (sameClients_modifyMembers _ _), hretire.members, hretire.bound⟩
  rw [moveChannel]
  split
  · exact hmoved
  · exact hmoved.congr ⟨rfl, rfl, rfl, rfl⟩

theorem Installs.seating (ht : Installs t u c n) (h : Seating s t R)
    (hn : n < t.clientSets.length) :
    Seating s u fun k' c' ↦ if c = c' then k' ∈ t.clientSet n else R k' c' where
  toSameClients := h.toSameClients.trans (.of_clients ht.clients)
  members k' c' := by
    rw [ht.mem_members]
    split
    · exact Iff.rfl
    · exact h.members k' c'
  bound c' m hm := by
    rw [ht.clientSets]
    rw [ht.channelSet] at hm
    split at hm
    · exact Option.some.inj hm ▸ hn
    · exact h.bound c' m hm

theorem seating_applyRestartState (hs : s.Bound) (c previous : ChannelId) (i : ℕ)
    (clients : Option ℕ) (elevated : Bool) :
    Seating s (s.applyRestartState c previous i clients elevated) fun k' c' ↦
      if (s.sessionStates[i]?).isSome then
        if c = c' then k' ∈ s.restartSet clients
        else k' ∈ s.members c' ∧ (c = previous ∨ c' ≠ previous)
      else k' ∈ s.members c' := by
  rw [applyRestartState]
  split
  · rename_i hnone
    exact ⟨.refl, fun k' c' ↦ by simp [hnone], hs⟩
  · rename_i session hsession
    dsimp only
    obtain ⟨hset, hlt, helems⟩ := seating_setOrNew hs clients
    -- Behind `moveChannel` nobody is in the channel that the restart leaves.
    generalize (s.setOrNew clients).1 = t at hset hlt helems
    generalize (s.setOrNew clients).2 = n at hlt helems
    have hmoved : Seating s (if c = previous then t else t.moveChannel c previous i n elevated)
        (fun k' c' ↦ k' ∈ s.members c' ∧ (c = previous ∨ c' ≠ previous)) ∧
        (if c = previous then t else t.moveChannel c previous i n elevated).clientSets =
          t.clientSets := by
      split
      · rename_i heq
        exact ⟨⟨hset.toSameClients, fun k' c' ↦ by simp [hset.members, heq], hset.bound⟩, rfl⟩
      · rename_i hne
        have hmove := seating_moveChannel hset.bound c previous i n elevated
        refine ⟨⟨hset.toSameClients.trans hmove.toSameClients, fun k' c' ↦ ?_, hmove.bound⟩,
          clientSets_moveChannel⟩
        rw [hmove.members, hset.members]
        simp [hne]
    obtain ⟨hmoved, hsets⟩ := hmoved
    generalize (if c = previous then t else t.moveChannel c previous i n elevated) = u
      at hmoved hsets
    have hclientSet : u.clientSet n = s.restartSet clients := by
      rw [← helems, clientSet, clientSet, hsets]
    have hinstalls : Installs u (((u.updateRow c .live).putChannel c
        ⟨i, session.hostId, .live, n⟩).trackChannel c) c n :=
      ⟨fun c' ↦ channelSet_putChannel _, rfl, rfl, rfl⟩
    have hseating := hinstalls.seating hmoved (by rwa [hsets])
    rw [hclientSet] at hseating
    have hfinal : ∀ v, SameMembers (((u.updateRow c .live).putChannel c
        ⟨i, session.hostId, .live, n⟩).trackChannel c) v → Seating s v fun k' c' ↦
          if (s.sessionStates[i]?).isSome then
            if c = c' then k' ∈ s.restartSet clients
            else k' ∈ s.members c' ∧ (c = previous ∨ c' ≠ previous)
          else k' ∈ s.members c' := by
      intro v hv
      simpa [hsession] using hseating.congr hv
    split
    · exact hfinal _ (sameMembers_updateSessionStatus i .active)
    · exact hfinal _ .refl

/-- `startup` gives each channel of the list a set without clients. -/
theorem seating_restoreHost (hs : s.Bound) (i : ℕ) (alive : List ChannelId) :
    Seating s (s.restoreHost i alive) fun k c ↦
      k ∈ s.members c ∧ ¬ (s.restores i ∧ c ∈ alive) := by
  have hfold : ∀ (session : SessionState) (t : SharedSessionContext) (R : ℕ → ChannelId → Prop),
      Seating s t R → Seating s (alive.foldl (fun t c ↦ ((t.updateRow c .orphan).newSet
        .empty).putChannel c ⟨i, session.hostId, .orphan, t.clientSets.length⟩) t) fun k c ↦
          R k c ∧ c ∉ alive := by
    intro session
    -- The sets that are replaced add up over the list.
    induction alive with
    | nil => exact fun t R ht ↦ ⟨ht.toSameClients, fun k c ↦ by simp [ht.members], ht.bound⟩
    | cons c alive ih =>
      intro t R ht
      have hseats : Seats t (((t.updateRow c .orphan).newSet .empty).putChannel c
          ⟨i, session.hostId, .orphan, t.clientSets.length⟩) c .empty :=
        ⟨fun c' ↦ channelSet_putChannel _, rfl⟩
      have hput := hseats.seating ht.bound rfl
      have hrest := ih _ _ (⟨ht.toSameClients.trans hput.toSameClients, hput.members, hput.bound⟩ :
        Seating s _ _)
      refine ⟨hrest.toSameClients, fun k c' ↦ ?_, hrest.bound⟩
      rw [List.foldl_cons, hrest.members, ht.members, List.mem_cons]
      by_cases hc : c = c'
      · simp [hc]
      · simp [hc, Ne.symm hc]
  rw [restoreHost]
  split
  · rename_i hnone
    exact ⟨.refl, fun k c ↦ by simp [restores, hnone], hs⟩
  · rename_i session hsession
    have hrestores : s.restores i ↔ s.restoring session.hostId ∧ session.row ≠ .closed := by
      simp [restores, hsession]
    split
    · rename_i hcond
      have hseating := hfold session _ _ (SameMembers.seating (s := s) (t := { s with
        sessions := s.sessions.set session.hostId i
        sessionStates := s.sessionStates.modify i fun x ↦ { x with status := .disconnected } })
          ⟨rfl, rfl, rfl, rfl⟩ hs)
      exact ⟨hseating.toSameClients, fun k c ↦ by simp [hseating.members, hrestores.mpr hcond],
        hseating.bound⟩
    · rename_i hcond
      exact ⟨.refl, fun k c ↦ by simp [hrestores, hcond], hs⟩

/-! ## All actions -/

/-- The action takes the client out of the channel. -/
def PutOut (s : SharedSessionContext) (k : ℕ) (c : ChannelId) : ContextAction → Prop
  | .detachClient k' c' => k = k' ∧ (s.channelSet c').isSome ∧ s.channelSet c = s.channelSet c'
  | .destroyChannel c' => c = c'
  | .attachRejected k' c' n => c = c' ∨ (k = k' ∧ s.channelSet c = some n)
  | .spawned k' c' i _ =>
    (s.sessionStates[i]?).isSome ∧ s.channelRows.get c' = none ∧ c = c' ∧ k ≠ k'
  | .respawned k' c' i => (s.sessionStates[i]?).isSome ∧ c = c' ∧ k ≠ k'
  | .applyRestartState c' previous i clients _ =>
    (s.sessionStates[i]?).isSome ∧
      if c = c' then k ∉ s.restartSet clients else c' ≠ previous ∧ c = previous
  | .restoreHost i alive => s.restores i ∧ c ∈ alive
  | _ => False

/-- The action makes the client one of the channel. -/
def PutIn (s : SharedSessionContext) (k : ℕ) (c : ChannelId) : ContextAction → Prop
  | .handleAttach k' c' =>
    k = k' ∧ s.isConnected k' = true ∧ (s.channelSet c').isSome ∧ s.channelSet c = s.channelSet c'
  | .spawned k' c' i _ =>
    (s.sessionStates[i]?).isSome ∧ s.channelRows.get c' = none ∧ c = c' ∧ k = k'
  | .respawned k' c' i => (s.sessionStates[i]?).isSome ∧ c = c' ∧ k = k'
  | .applyRestartState c' _ i clients _ =>
    (s.sessionStates[i]?).isSome ∧ c = c' ∧ k ∈ s.restartSet clients
  | _ => False

/-- What an action makes of the clients of all channels. -/
abbrev Reseats (s t : SharedSessionContext) (a : ContextAction) : Prop :=
  Seating s t fun k c ↦ (k ∈ s.members c ∧ ¬ s.PutOut k c a) ∨ s.PutIn k c a

theorem not_putOut_of_putIn {a : ContextAction} (h : s.PutIn k c a) : ¬ s.PutOut k c a := by
  cases a <;> simp_all [PutIn, PutOut]

theorem Seating.of_iff {R R' : ℕ → ChannelId → Prop} (h : Seating s t R)
    (hiff : ∀ k c, R k c ↔ R' k c) : Seating s t R' :=
  ⟨h.toSameClients, fun k c ↦ (h.members k c).trans (hiff k c), h.bound⟩

/-- **Who is in which channel**, behind every action by which no client comes or goes. -/
theorem seating_apply (hs : s.Bound) (a : ContextAction) (hadd : a ≠ .addClient)
    (hremove : ∀ k, a ≠ .removeClient k) : Reseats s (s.apply a) a := by
  cases a with
  | addClient => exact absurd rfl hadd
  | removeClient k => exact absurd rfl (hremove k)
  | serve =>
    refine ⟨⟨fun _ ↦ rfl⟩, fun k c ↦ ?_, hs⟩
    change k ∈ s.members c ↔ _
    simp [PutOut, PutIn]
  | detachClient k c =>
    exact (seating_detachClient hs k c).of_iff fun k' c' ↦ by simp [PutOut, PutIn]
  | handleAttach k c =>
    exact (seating_handleAttach hs k c).of_iff fun k' c' ↦ by simp [PutOut, PutIn]
  | attachRejected k c n =>
    exact (seating_attachRejected hs k c n).of_iff fun k' c' ↦ by simp [PutOut, PutIn]
  | spawned k c i elevated =>
    refine (seating_spawned hs k c i elevated).of_iff fun k' c' ↦ ?_
    dsimp only [PutOut, PutIn]
    split
    · rename_i hcond
      obtain ⟨hsession, hrow, rfl⟩ := hcond
      simp [hsession, hrow]
    · tauto
  | respawned k c i =>
    refine (seating_respawned hs k c i).of_iff fun k' c' ↦ ?_
    dsimp only [PutOut, PutIn]
    split
    · rename_i hcond
      obtain ⟨hsession, rfl⟩ := hcond
      simp [hsession]
    · tauto
  | applyRestartState c previous i clients elevated =>
    refine (seating_applyRestartState hs c previous i clients elevated).of_iff fun k' c' ↦ ?_
    dsimp only [PutOut, PutIn]
    by_cases hsession : (s.sessionStates[i]?).isSome = true
    · by_cases hc : c = c'
      · subst hc
        simp [hsession]
      · simp [hsession, hc, Ne.symm hc, Decidable.imp_iff_not_or]
    · simp [hsession]
  | destroyChannel c =>
    exact (seating_destroyChannel hs c).of_iff fun k' c' ↦ by simp [PutOut, PutIn]
  | restoreHost i alive =>
    exact (seating_restoreHost hs i alive).of_iff fun k' c' ↦ by simp [PutOut, PutIn]
  | _ => exact ((sameMembers_apply _ id).seating hs).of_iff fun k' c' ↦ by simp [PutOut, PutIn]

/-! ## Clients that come and go -/

theorem bound_addClient (hs : s.Bound) : (s.apply .addClient).Bound := by
  rw [apply]
  split
  · exact hs
  · exact hs

theorem members_addClient : (s.apply .addClient).members = s.members := by
  rw [apply]
  split <;> exact members_congr rfl rfl

theorem length_addClient : s.clients.length ≤ (s.apply .addClient).clients.length := by
  rw [apply]
  split
  · rw [List.length_append]
    exact Nat.le_add_right _ _
  · exact Nat.le_refl _

theorem isConnected_addClient (h : k < s.clients.length) :
    (s.apply .addClient).isConnected k = s.isConnected k := by
  rw [apply]
  split
  · rw [isConnected, isConnected, List.getElem?_append_left h]
  · rfl

/-- What `removeClient` leaves: the other clients, where they are. -/
structure Leaves (s t : SharedSessionContext) (k : ℕ) : Prop where
  connected : ∀ k', t.isConnected k' = true ↔ s.isConnected k' = true ∧ k' ≠ k
  length : t.clients.length = s.clients.length
  members : ∀ k' c, k' ≠ k → (k' ∈ t.members c ↔ k' ∈ s.members c)
  bound : t.Bound

theorem leaves_removeClient (hs : s.Bound) (k : ℕ) : Leaves s (s.removeClient k) k := by
  rw [removeClient]
  split
  · have hfold : ∀ (cs : List ChannelId),
      SameClients s (cs.foldl (fun t c ↦ t.detachClient k c) s) ∧
        (∀ k' c, k' ≠ k → (k' ∈ (cs.foldl (fun t c ↦ t.detachClient k c) s).members c ↔
          k' ∈ s.members c)) ∧ (cs.foldl (fun t c ↦ t.detachClient k c) s).Bound := by
      intro cs
      refine List.foldlRecOn (motive := fun t ↦ SameClients s t ∧ (∀ k' c, k' ≠ k →
        (k' ∈ t.members c ↔ k' ∈ s.members c)) ∧ t.Bound) cs _ ⟨.refl, fun _ _ _ ↦ Iff.rfl, hs⟩ ?_
      rintro t ⟨hclients, hmembers, hbound⟩ c -
      have hdetach := seating_detachClient hbound k c
      refine ⟨hclients.trans hdetach.toSameClients, fun k' c' hne ↦ ?_, hdetach.bound⟩
      rw [hdetach.members, hmembers k' c' hne]
      simp [hne]
    obtain ⟨hclients, hmembers, hbound⟩ := hfold (s.attachedChannels k).elems
    refine ⟨fun k' ↦ ?_, ?_, hmembers, hbound⟩
    · rw [← hclients.isConnected]
      exact isConnected_disconnect
    · rw [modifyClient, List.length_modify, hclients.length_eq]
  · rename_i hgone
    refine ⟨fun k' ↦ ⟨fun h ↦ ⟨h, ?_⟩, And.left⟩, rfl, fun _ _ _ ↦ Iff.rfl, hs⟩
    rintro rfl
    exact hgone h

/-- No client is ever forgotten. -/
theorem length_le_apply (hs : s.Bound) (a : ContextAction) :
    s.clients.length ≤ (s.apply a).clients.length := by
  cases a with
  | addClient => exact length_addClient
  | removeClient k => exact (leaves_removeClient hs k).length.ge
  | _ => exact (seating_apply hs _ (by simp) (by simp)).length_eq.ge

theorem bound_apply (hs : s.Bound) (a : ContextAction) : (s.apply a).Bound := by
  cases a with
  | addClient => exact bound_addClient hs
  | removeClient k => exact (leaves_removeClient hs k).bound
  | _ => exact (seating_apply hs _ (by simp) (by simp)).bound

theorem serving_detachClient (k : ℕ) (c : ChannelId) : (s.detachClient k c).serving = s.serving :=
  detachClient_rule (motive := fun t ↦ t.serving = s.serving) rfl
    (fun ch _ ↦ (s.sameMembers_leaveChannel k c ch).serving) fun _ _ ht ↦ ht

/-- Only `serve` opens the routes, and nothing closes them. -/
theorem serving_apply (a : ContextAction) (ha : a ≠ .serve) : (s.apply a).serving = s.serving := by
  cases a with
  | serve => exact absurd rfl ha
  | addClient =>
    rw [apply]
    split <;> rfl
  | removeClient k =>
    exact removeClient_rule (motive := fun t ↦ t.serving = s.serving) rfl
      (fun t c ht ↦ (serving_detachClient k c).trans ht) fun _ _ ht ↦ ht
  | detachClient k c => exact serving_detachClient k c
  | handleAttach k c =>
    rw [apply, handleAttach]
    split
    · rfl
    · split
      · rfl
      · dsimp only
        split <;> rfl
  | attachRejected k c n => rfl
  | spawned k c i elevated =>
    rw [apply, spawned]
    split <;> rfl
  | respawned k c i =>
    rw [apply, respawned]
    split <;> rfl
  | applyRestartState c previous i clients elevated =>
    rw [apply, applyRestartState]
    split
    · rfl
    · have hstart : (s.setOrNew clients).1.serving = s.serving :=
        setOrNew_rule (motive := fun t ↦ t.serving = s.serving) rfl rfl
      have hmoved : ∀ t : SharedSessionContext, ∀ n,
          (if c = previous then t else t.moveChannel c previous i n elevated).serving =
            t.serving := by
        intro t n
        split
        · rfl
        · exact moveChannel_rule (motive := fun u ↦ u.serving = t.serving) rfl fun _ hu ↦ hu
      dsimp only
      split
      · exact (hmoved _ _).trans hstart
      · exact (hmoved _ _).trans hstart
  | destroyChannel c =>
    rw [apply, destroyChannel]
    split <;> rfl
  | restoreHost i alive =>
    exact restoreHost_rule (motive := fun t ↦ t.serving = s.serving) rfl
      fun _ _ _ _ ↦ ⟨rfl, fun _ _ _ ht ↦ ht⟩
  | _ => exact (sameMembers_apply _ id).serving

/-- No client is there before the routes are open. -/
theorem early_apply (hs : s.Bound) (hearly : s.serving = false → s.clients = []) (a : ContextAction)
    (hserving : (s.apply a).serving = false) : (s.apply a).clients = [] := by
  have hlength : s.serving = false → s.clients.length = 0 := fun h ↦ by rw [hearly h]; rfl
  cases a with
  | serve => cases hserving
  | addClient =>
    rw [serving_apply _ (by simp)] at hserving
    rw [apply, hserving]
    exact hearly hserving
  | removeClient k =>
    rw [serving_apply _ (by simp)] at hserving
    exact List.length_eq_zero_iff.mp ((leaves_removeClient hs k).length.trans (hlength hserving))
  | _ =>
    rw [serving_apply _ (by simp)] at hserving
    exact List.length_eq_zero_iff.mp
      ((seating_apply hs _ (by simp) (by simp)).length_eq.trans (hlength hserving))

theorem lt_length_of_isConnected (h : s.isConnected k = true) : k < s.clients.length := by
  obtain ⟨x, hx, -⟩ := isConnected_iff.mp h
  exact (List.getElem?_eq_some_iff.mp hx).1

end SharedSessionContext

end Lasterm.Hub
