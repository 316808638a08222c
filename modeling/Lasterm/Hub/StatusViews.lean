import Lasterm.Hub.Seating
import Lasterm.Hub.SessionStatus

/-!
# What clients are told of statuses

`StateBroadcaster`, and the messages that the actions of `Hub.SharedContext` send: STATE_SYNC to a
new client, SESSION_STATE, CHANNEL_STATE and CHANNEL_CREATED. Of a message its statuses are kept. A
client folds what it gets into a view. As in STATE_SYNC, what is not there is dead or closed.

## Who is told

A message goes to all clients or to those of a channel. `updateChannelStatus` chooses: the clients
of the channel if it has any, and otherwise all. So a client beside a channel that has clients is
not told (`Misleads`), and a new session is not announced before its first change of status. Apart
from that the views are exact (`viewsExact_iff_careful`).

## The invariant

The view of a client that is connected is exact: of every channel it has the status of the hub, and
of every current session that of the session object (`ViewInv`). What one action does to the view of
one client is said for channels and for sessions apart.

* `Follows s t k bs W`: if the view had the statuses of `s`, then behind the broadcasts `bs` client
  `k` has those of `t`, except of the channels in `W`. There a client that stands apart has a status
  that is not the hub's. An action in parts is put together with `Follows.trans`, `Follows.append`
  and `Follows.put`, and `follows_apply` has `Misleads` for `W`.
* `Keeps s t k bs`: a view that knows the sessions of `s` knows those of `t`. A new session and a
  restored one are not announced, and `keeps_apply` is about the other actions.

Messages of the one kind leave the other half of a view as it is (`OnlySessions`, `OnlyChannels`). A
new client gets the snapshot, which is exact (`channels_getStateSnapshot`,
`knowsSessions_getStateSnapshot`).
-/

namespace Lasterm.Hub

inductive StateMessage
  | stateSync (sessions : List (ℕ × SessionStatus)) (channels : List (ChannelId × ChannelStatus))
  | sessionState (sessionId : ℕ) (status : SessionStatus)
  | channelState (channelId : ChannelId) (status : ChannelStatus)
  | channelCreated (channelId : ChannelId) (status : ChannelStatus)

/-- A message on its way to all clients, or to those of a set. -/
structure Broadcast where
  audience : Option (OrderedSet ℕ)
  msg : StateMessage

/-- What a client has made of its messages. -/
structure ClientView where
  sessions : ℕ → SessionStatus
  channels : ChannelId → ChannelStatus

/-- Looking up a key in a list that leaves out a default. -/
theorem getD_find? {κ ν : Type*} [DecidableEq κ] {l : List (κ × ν)} {key : κ} {value default : ν}
    (h : ∀ x ∈ l, x.1 = key → x.2 = value) (hmem : value = default ∨ (key, value) ∈ l) :
    ((l.find? fun x ↦ x.1 = key).map Prod.snd).getD default = value := by
  cases hfind : l.find? fun x ↦ x.1 = key with
  | none =>
    rcases hmem with rfl | hmem
    · rfl
    · exact absurd (decide_eq_true rfl) (List.find?_eq_none.mp hfind _ hmem)
  | some x =>
    have hkey := List.find?_some hfind
    exact h x (List.mem_of_find?_eq_some hfind) (of_decide_eq_true hkey)

namespace ClientView

variable (v : ClientView)

def empty : ClientView := ⟨fun _ ↦ .closed, fun _ ↦ .dead⟩

def receive : StateMessage → ClientView
  | .stateSync sessions channels =>
    ⟨fun i ↦ ((sessions.find? fun e ↦ e.1 = i).map Prod.snd).getD .closed,
      fun c ↦ ((channels.find? fun e ↦ e.1 = c).map Prod.snd).getD .dead⟩
  | .sessionState i status => { v with sessions := Function.update v.sessions i status }
  | .channelState c status => { v with channels := Function.update v.channels c status }
  | .channelCreated c status => { v with channels := Function.update v.channels c status }

/-- The client `k` gets the message, if it is for it. -/
def hear (k : ℕ) (b : Broadcast) : ClientView :=
  if b.audience.all fun set ↦ k ∈ set then v.receive b.msg else v

def hears (k : ℕ) (bs : List Broadcast) : ClientView := bs.foldl (fun v b ↦ v.hear k b) v

theorem hears_append (k : ℕ) (bs bs' : List Broadcast) :
    v.hears k (bs ++ bs') = (v.hears k bs).hears k bs' := List.foldl_append

end ClientView

def toAll (msg : StateMessage) : Broadcast := ⟨none, msg⟩

namespace SharedSessionContext

variable (s : SharedSessionContext)

/-! ## StateBroadcaster -/

/-- The sessions of `getStateSnapshot`. -/
def snapshotSessions : List (ℕ × SessionStatus) :=
  s.sessions.entries.filterMap fun e ↦
    (s.sessionStatus e.2).bind fun status ↦ if status ≠ .closed then some (e.2, status) else none

def snapshotChannels : List (ChannelId × ChannelStatus) :=
  s.channels.entries.filterMap fun e ↦
    if e.2.status ≠ .dead then some (e.1, e.2.status) else none

def getStateSnapshot : StateMessage := .stateSync s.snapshotSessions s.snapshotChannels

def sessionBroadcast (i : ℕ) (status : SessionStatus) : Broadcast :=
  toAll (.sessionState i status)

/-- The message of `updateChannelStatus`. -/
def channelBroadcast (c : ChannelId) (status : ChannelStatus) : Broadcast :=
  ⟨if (s.members c).isEmpty then none else some (s.members c), .channelState c status⟩

/-- Those of `setStatuses`. -/
def statusBroadcasts (f : ChannelId → ChannelState → ChannelStatus) : List Broadcast :=
  (s.channels.entries.filter fun e ↦ f e.1 e.2 ≠ e.2.status).map fun e ↦
    s.channelBroadcast e.1 (f e.1 e.2)

def checkBroadcasts (hostId : String) : List Broadcast :=
  match s.sessions.get hostId with
  | none => []
  | some i =>
    if s.sessionStatus i ≠ some .active then []
    else if s.channels.anyValue fun ch ↦ ch.hostId = hostId ∧ ch.status = ChannelStatus.live then []
    else [sessionBroadcast i .detached]

def leaveBroadcasts (k : ℕ) (c : ChannelId) (ch : ChannelState) : List Broadcast :=
  let t := s.modifySet ch.clients fun set ↦ set.delete k
  if (t.clientSet ch.clients).isEmpty = true ∧ ch.status = ChannelStatus.live then
    t.channelBroadcast c .orphan :: (t.updateChannelStatus c .orphan).checkBroadcasts ch.hostId
  else []

def detachBroadcasts (k : ℕ) (c : ChannelId) : List Broadcast :=
  (s.channels.get c).elim [] fun ch ↦ s.leaveBroadcasts k c ch

/-- The loop of `removeClient`. -/
def removeBroadcasts (k : ℕ) : SharedSessionContext → List ChannelId → List Broadcast
  | _, [] => []
  | t, c :: cs => t.detachBroadcasts k c ++ removeBroadcasts k (t.detachClient k c) cs

/-! ## The other managers -/

def createdBroadcasts (c : ChannelId) : List Broadcast :=
  [toAll (.channelState c .live), toAll (.channelCreated c .live)]

def restartBroadcasts (c previous : ChannelId) (i : ℕ) : List Broadcast :=
  match s.sessionStates[i]? with
  | none => []
  | some session =>
    (if c = previous then []
      else [s.channelBroadcast previous .dead, toAll (.channelCreated c .live)]) ++
    toAll (.channelState c .live) ::
    if session.status = .detached then [sessionBroadcast i .active] else []

def attachBroadcasts (k : ℕ) (c : ChannelId) : List Broadcast :=
  if s.isConnected k = false then []
  else
    match s.channels.get c with
    | none => []
    | some ch =>
      if ch.status = .orphan then
        [(s.modifySet ch.clients fun set ↦ set.add k).channelBroadcast c .live]
      else []

def reconcileBroadcasts (hostId : String) (states : List (ChannelId × Bool)) : List Broadcast :=
  match s.sessions.get hostId with
  | none => []
  | some i => s.statusBroadcasts (reconciled hostId i ((states.filter Prod.snd).map Prod.fst))

/-- The messages of an action, in their order. -/
def broadcasts : ContextAction → List Broadcast
  | .addClient =>
    if s.serving then [⟨some (.singleton s.clients.length), s.getStateSnapshot⟩] else []
  | .removeClient k =>
    if s.isConnected k then removeBroadcasts k s (s.attachedChannels k).elems else []
  | .detachClient k c => s.detachBroadcasts k c
  | .handleAttach k c => s.attachBroadcasts k c
  | .attachRejected _ c _ => [s.channelBroadcast c .dead]
  | .spawned _ c i _ =>
    if (s.sessionStates[i]?).isSome ∧ s.channelRows.get c = none then createdBroadcasts c else []
  | .respawned _ c i =>
    if (s.sessionStates[i]?).isSome then [toAll (.channelState c .live)] else []
  | .applyRestartState c previous i _ _ => s.restartBroadcasts c previous i
  | .destroyChannel c | .channelExit c =>
    if (s.channels.get c).isSome then [s.channelBroadcast c .dead] else []
  | .hostSpawned reAttach c clients =>
    if reAttach ∧ (s.clientSet clients).isEmpty = false then [s.channelBroadcast c .live] else []
  | .hostSpawnFailed c => [s.channelBroadcast c .dead]
  | .activateSession i =>
    if (s.sessionHost i).bind s.sessions.get = some i then [sessionBroadcast i .active] else []
  | .daemonReady i _ states =>
    match s.sessionStates[i]? with
    | none => []
    | some session =>
      s.reconcileBroadcasts session.hostId states ++ [sessionBroadcast i .active]
  | .agentClosed hostId disconnects =>
    match s.sessions.get hostId with
    | none => []
    | some i => if disconnects then [sessionBroadcast i .disconnected] else []
  | .closeSession i =>
    match s.sessionStates[i]? with
    | none => []
    | some session =>
      (s.statusBroadcasts fun _ ch ↦
        if ch.hostId = session.hostId ∧ ch.status ≠ .dead then .dead else ch.status) ++
      [sessionBroadcast i .closed]
  | .connectFailed i =>
    if s.sessionStatus i = some .starting then [sessionBroadcast i .closed] else []
  | .abandonSession i =>
    match s.sessionHost i with
    | none => []
    | some hostId =>
      if s.sessionHasChannels i = false ∧ s.sessions.get hostId = some i then
        [sessionBroadcast i .closed]
      else []
  | _ => []

/-! ## What misleads a client -/

/-- The status of a channel. A channel that was removed is dead. -/
def channelStatus (c : ChannelId) : ChannelStatus :=
  (s.channels.get c).elim .dead ChannelState.status

/-- The channel has clients, and the client is not one of them. -/
def Apart (k : ℕ) (c : ChannelId) : Prop := (s.members c).isEmpty = false ∧ k ∉ s.members c

instance (k : ℕ) (c : ChannelId) : Decidable (s.Apart k c) :=
  inferInstanceAs (Decidable (_ ∧ _))

/-- The channel is alive, and the client is beside its clients. -/
def ApartAlive (k : ℕ) (c : ChannelId) : Prop := s.Apart k c ∧ s.channelStatus c ≠ .dead

/-- The action gives the channel another status and does not tell the client, or tells it the status
of a channel that is not there. -/
def Misleads (k : ℕ) (c : ChannelId) : ContextAction → Prop
  | .handleAttach k' c' =>
    c = c' ∧ s.isConnected k' = true ∧ s.channelStatus c = .orphan ∧ k ≠ k' ∧ k ∉ s.members c
  | .attachRejected _ c' _ | .destroyChannel c' | .channelExit c' | .hostSpawnFailed c' =>
    c = c' ∧ s.ApartAlive k c
  | .applyRestartState c' previous i _ _ =>
    c = previous ∧ c' ≠ previous ∧ (s.sessionStates[i]?).isSome ∧ s.ApartAlive k c
  | .hostSpawned reAttach c' clients =>
    c = c' ∧ reAttach = true ∧ (s.clientSet clients).isEmpty = false ∧
      if (s.channels.get c).isSome then s.Apart k c ∧ s.channelStatus c ≠ .live else True
  | .daemonReady i _ states =>
    s.Apart k c ∧ ∃ session ∈ s.sessionStates[i]?, ∃ ch ∈ s.channels.get c,
      s.reconciledStatus session.hostId states c ch ≠ ch.status
  | .closeSession i =>
    s.ApartAlive k c ∧ ∃ session ∈ s.sessionStates[i]?, ∃ ch ∈ s.channels.get c,
      ch.hostId = session.hostId
  -- `startup` tells nobody.
  | .bury alive => c ∈ alive ∧ s.channelStatus c ≠ .dead
  | _ => False

/-! ## Views of channels -/

variable {s} {t u : SharedSessionContext} {k i n : ℕ} {c c' : ChannelId} {status : ChannelStatus}
  {v : ClientView} {bs bs' : List Broadcast} {W : ChannelId → Prop} (k' : ℕ) (hostId : String)
  (alive : List ChannelId)

/-- A client whose view of the channels is that of `s` has that of `t` behind the messages, except
for `W`. -/
def Follows (s t : SharedSessionContext) (k : ℕ) (bs : List Broadcast) (W : ChannelId → Prop) :
    Prop :=
  ∀ v : ClientView, v.channels = s.channelStatus → ∀ c,
    (v.hears k bs).channels c = t.channelStatus c ↔ ¬ W c

attribute [local simp] broadcasts

/-- The messages are about sessions. -/
def OnlySessions (bs : List Broadcast) : Prop := ∀ b ∈ bs, ∃ i status, b = sessionBroadcast i status

/-! ### Messages on sessions -/

theorem onlySessions_nil : OnlySessions [] := nofun

theorem onlySessions_singleton (i : ℕ) (status : SessionStatus) :
    OnlySessions [sessionBroadcast i status] := fun _ hb ↦ ⟨i, status, List.mem_singleton.mp hb⟩

theorem onlySessions_ite (p : Prop) [Decidable p] (i : ℕ) (status : SessionStatus) :
    OnlySessions (if p then [sessionBroadcast i status] else []) := by
  split
  · exact onlySessions_singleton i status
  · exact onlySessions_nil

theorem onlySessions_broadcasts (a : ContextAction) (ha : OnSessions a) :
    OnlySessions (s.broadcasts a) := by
  cases a with
  | activateSession i => exact onlySessions_ite (_ = some i) i .active
  | connectFailed i => exact onlySessions_ite (_ = some SessionStatus.starting) i .closed
  | agentClosed hostId disconnects =>
    rw [broadcasts]
    split
    · exact onlySessions_nil
    · exact onlySessions_ite _ _ _
  | abandonSession i =>
    rw [broadcasts]
    split
    · exact onlySessions_nil
    · exact onlySessions_ite _ _ _
  | _ => first | exact onlySessions_nil | cases ha

theorem OnlySessions.channels (h : OnlySessions bs) (v : ClientView) (k : ℕ) :
    (v.hears k bs).channels = v.channels := by
  induction bs generalizing v with
  | nil => rfl
  | cons b bs ih =>
    obtain ⟨i, status, rfl⟩ := h b List.mem_cons_self
    exact ih (fun b' hb' ↦ h b' (List.mem_cons_of_mem _ hb')) _

/-! ### Actions in parts -/

theorem follows_of_eq (h : t.channelStatus = s.channelStatus) (hbs : OnlySessions bs) :
    Follows s t k bs fun _ ↦ False := by
  intro v hv c
  rw [hbs.channels, hv, h]
  exact iff_of_true rfl not_false

theorem Follows.trans (h : Follows s t k bs fun _ ↦ False) (h' : Follows t u k bs' W) :
    Follows s u k (bs ++ bs') W := by
  intro v hv c
  rw [ClientView.hears_append]
  exact h' _ (funext fun c ↦ (h v hv c).mpr not_false) c

/-- Messages about sessions follow, and nothing changes for channels. -/
theorem Follows.append (h : Follows s t k bs W) (ht : u.channelStatus = t.channelStatus)
    (hbs : OnlySessions bs') : Follows s u k (bs ++ bs') W := by
  intro v hv c
  rw [ClientView.hears_append, hbs.channels, ht]
  exact h v hv c

theorem Follows.congr (h : Follows s t k bs W) (ht : u.channelStatus = t.channelStatus)
    {W' : ChannelId → Prop} (hW : ∀ c, W' c ↔ W c) : Follows s u k bs W' := by
  intro v hv c
  rw [ht, hW]
  exact h v hv c

/-- Nothing happens to a channel, and nothing is told of one. -/
theorem follows_quiet (h : t.channelStatus = s.channelStatus) (hbs : OnlySessions bs)
    (hnot : ∀ c, ¬ W c) : Follows s t k bs W :=
  (follows_of_eq h hbs).congr rfl fun c ↦ iff_of_false (hnot c) not_false

theorem follows_idle (hnot : ∀ c, ¬ W c) : Follows s s k [] W :=
  follows_quiet rfl onlySessions_nil hnot

/-- All are told that a channel is live. -/
theorem Follows.put (h : Follows s t k bs W) (bs' : List Broadcast)
    (ht : u.channelStatus = Function.update t.channelStatus c .live)
    (hbs : ∀ v : ClientView, (v.hears k bs').channels = Function.update v.channels c .live) :
    Follows s u k (bs ++ bs') fun c' ↦ c' ≠ c ∧ W c' := by
  intro v hv c'
  rw [ClientView.hears_append, hbs, ht, Function.update_apply, Function.update_apply]
  by_cases hc : c' = c
  · simp [hc]
  · rw [if_neg hc, if_neg hc]
    refine (h v hv c').trans (not_congr ?_)
    exact (and_iff_right hc).symm

/-! ### The status of a channel -/

theorem channelStatus_of_channels (h : t.channels = s.channels) :
    t.channelStatus = s.channelStatus := by
  funext c
  rw [channelStatus, channelStatus, h]

theorem channelStatus_of_get {ch : ChannelState} (h : s.channels.get c = some ch) :
    s.channelStatus c = ch.status := by
  rw [channelStatus, h]
  rfl

theorem channelStatus_updateChannelStatus :
    (s.updateChannelStatus c status).channelStatus c' =
      if c = c' ∧ (s.channels.get c').isSome then status else s.channelStatus c' := by
  rw [channelStatus, get_updateChannelStatus, channelStatus]
  by_cases hc : c = c'
  · rw [if_pos hc]
    rcases s.channels.get c' with _ | ch
    · simp
    · simp [hc]
  · rw [if_neg hc, if_neg fun h ↦ hc h.1]

theorem channelStatus_deleteChannel :
    (s.deleteChannel c).channelStatus c' = if c = c' then .dead else s.channelStatus c' := by
  rw [channelStatus, deleteChannel, OrderedMap.get_delete]
  split <;> rfl

theorem channelStatus_put (ch : ChannelState) (ht : t.channels = s.channels.set c ch)
    (hlive : ch.status = .live) : t.channelStatus = Function.update s.channelStatus c .live := by
  funext c'
  rw [channelStatus, ht, OrderedMap.get_set, Function.update_apply]
  by_cases hc : c = c'
  · rw [if_pos hc, if_pos hc.symm]
    exact hlive
  · rw [if_neg hc, if_neg (Ne.symm hc)]
    rfl

theorem members_isEmpty_of_none (h : s.channels.get c = none) : (s.members c).isEmpty = true := by
  rw [members, channelSet, h]
  rfl

/-! ### One change of status -/

/-- Whoever is not apart hears of the channel. -/
theorem channels_hear_channelBroadcast (v : ClientView) (k : ℕ) (c : ChannelId)
    (status : ChannelStatus) :
    (v.hear k (s.channelBroadcast c status)).channels c' =
      if c = c' ∧ ¬ s.Apart k c then status else v.channels c' := by
  have hupdate : (v.receive (.channelState c status)).channels c' =
      if c = c' then status else v.channels c' := by
    change Function.update v.channels c status c' = _
    rw [Function.update_apply]
    simp only [eq_comm]
  rw [ClientView.hear, channelBroadcast]
  by_cases hempty : (s.members c).isEmpty = true
  · have hapart : ¬ s.Apart k c := fun h ↦ Bool.false_ne_true (h.1.symm.trans hempty)
    rw [if_pos hempty, Option.all_none, if_pos rfl, hupdate]
    simp [hapart]
  · rw [if_neg hempty, Option.all_some]
    by_cases hk : k ∈ s.members c
    · have hapart : ¬ s.Apart k c := fun h ↦ h.2 hk
      rw [if_pos (by simpa using hk), hupdate]
      simp [hapart]
    · have hapart : s.Apart k c := ⟨Bool.eq_false_iff.mpr hempty, hk⟩
      rw [if_neg (by simpa using hk)]
      simp [hapart]

theorem not_apart_of_none (h : s.channels.get c = none) : ¬ s.Apart k c := by
  rw [Apart, members_isEmpty_of_none h]
  simp

theorem follows_updateChannelStatus (c : ChannelId) (status : ChannelStatus) :
    Follows s (s.updateChannelStatus c status) k [s.channelBroadcast c status] fun c' ↦
      c' = c ∧ if (s.channels.get c).isSome then s.Apart k c ∧ s.channelStatus c ≠ status
        else status ≠ .dead := by
  intro v hv c'
  change (v.hear k _).channels c' = _ ↔ _
  rw [channels_hear_channelBroadcast, channelStatus_updateChannelStatus, hv]
  by_cases hc : c = c'
  · subst hc
    rcases hget : s.channels.get c with _ | ch
    · have hdead : s.channelStatus c = .dead := by rw [channelStatus, hget]; rfl
      simp [not_apart_of_none hget, hdead]
    · by_cases hapart : s.Apart k c
      · simp [hapart]
      · simp [hapart]
  · simp [hc, Ne.symm hc]

/-! ### Several changes of status -/

/-- Messages about other channels, or from which the client is apart. -/
theorem channels_hears_of_apart {es : List (ChannelId × ChannelStatus)} (v : ClientView)
    (hes : ∀ e ∈ es, e.1 = c → s.Apart k c) :
    (v.hears k (es.map fun e ↦ s.channelBroadcast e.1 e.2)).channels c = v.channels c := by
  induction es generalizing v with
  | nil => rfl
  | cons e es ih =>
    refine (ih _ fun e' he' ↦ hes e' (List.mem_cons_of_mem _ he')).trans ?_
    rw [channels_hear_channelBroadcast, if_neg]
    rintro ⟨rfl, hnot⟩
    exact hnot (hes e List.mem_cons_self rfl)

/-- Messages of which those about the channel agree. -/
theorem channels_hears_of_mem {es : List (ChannelId × ChannelStatus)} (v : ClientView)
    (hmem : (c, status) ∈ es) (hes : ∀ e ∈ es, e.1 = c → e.2 = status) (hapart : ¬ s.Apart k c) :
    (v.hears k (es.map fun e ↦ s.channelBroadcast e.1 e.2)).channels c = status := by
  induction es generalizing v with
  | nil => cases hmem
  | cons e es ih =>
    have hrest : ∀ e' ∈ es, e'.1 = c → e'.2 = status :=
      fun e' he' ↦ hes e' (List.mem_cons_of_mem _ he')
    by_cases hlater : ∃ e' ∈ es, e'.1 = c
    · obtain ⟨e', he', rfl⟩ := hlater
      exact ih _ (hrest e' he' rfl ▸ he') hrest
    · have he : e = (c, status) := by
        rcases List.mem_cons.mp hmem with heq | htail
        · exact heq.symm
        · exact absurd ⟨_, htail, rfl⟩ hlater
      have hothers : ∀ e' ∈ es, e'.1 = c → s.Apart k c :=
        fun e' he' heq ↦ absurd ⟨e', he', heq⟩ hlater
      refine (channels_hears_of_apart _ hothers).trans ?_
      rw [channels_hear_channelBroadcast, he, if_pos ⟨rfl, hapart⟩]

theorem follows_setStatuses (f : ChannelId → ChannelState → ChannelStatus) :
    Follows s (s.setStatuses f) k (s.statusBroadcasts f) fun c ↦
      s.Apart k c ∧ ∃ ch ∈ s.channels.get c, f c ch ≠ ch.status := by
  intro v hv c
  have hmap : s.statusBroadcasts f =
      ((s.channels.entries.filter fun e ↦ f e.1 e.2 ≠ e.2.status).map fun e ↦
        (e.1, f e.1 e.2)).map fun e ↦ s.channelBroadcast e.1 e.2 := by
    rw [List.map_map]
    rfl
  have hmem : ∀ e ∈ (s.channels.entries.filter fun e ↦ f e.1 e.2 ≠ e.2.status).map fun e ↦
      (e.1, f e.1 e.2), e.1 = c →
        ∃ ch, s.channels.get c = some ch ∧ f c ch ≠ ch.status ∧ e.2 = f c ch := by
    rintro e he rfl
    obtain ⟨x, hx, rfl⟩ := List.mem_map.mp he
    obtain ⟨hentry, hne⟩ := List.mem_filter.mp hx
    exact ⟨x.2, OrderedMap.get_eq_some_iff.mpr hentry, of_decide_eq_true hne, rfl⟩
  have hstatus : (s.setStatuses f).channelStatus c =
      (s.channels.get c).elim .dead fun ch ↦ f c ch := by
    rw [channelStatus, get_setStatuses]
    rcases s.channels.get c with _ | ch <;> rfl
  rw [hmap, hstatus]
  -- A channel of which nothing is sent has not changed.
  by_cases hchanged : ∃ ch ∈ s.channels.get c, f c ch ≠ ch.status
  · obtain ⟨ch, hch, hne⟩ := hchanged
    have hget : s.channels.get c = some ch := hch
    rw [hget, Option.elim_some]
    by_cases hapart : s.Apart k c
    · rw [channels_hears_of_apart v fun e he _ ↦ hapart, hv, channelStatus_of_get hget]
      exact iff_of_false (Ne.symm hne) fun hnot ↦ hnot ⟨hapart, ch, hch, hne⟩
    · refine iff_of_true (channels_hears_of_mem v ?_ (fun e he heq ↦ ?_) hapart) fun h ↦ hapart h.1
      · refine List.mem_map.mpr ⟨(c, ch), List.mem_filter.mpr ⟨?_, ?_⟩, rfl⟩
        · exact OrderedMap.get_eq_some_iff.mp hget
        · exact decide_eq_true hne
      · obtain ⟨ch', hch', -, heq'⟩ := hmem e he heq
        cases hget.symm.trans hch'
        exact heq'
  · rw [channels_hears_of_apart v fun e he heq ↦ ?_, hv]
    · refine iff_of_true ?_ fun h ↦ hchanged h.2
      rcases hget : s.channels.get c with _ | ch
      · rw [channelStatus, hget]
        rfl
      · rw [channelStatus_of_get hget, Option.elim_some]
        by_contra hne
        exact hchanged ⟨ch, hget, Ne.symm hne⟩
    · obtain ⟨ch, hch, hne, -⟩ := hmem e he heq
      exact absurd ⟨ch, hch, hne⟩ hchanged

/-! ### Single actions -/

theorem onlySessions_checkBroadcasts :
    OnlySessions (s.checkBroadcasts hostId) := by
  rw [checkBroadcasts]
  split
  · exact onlySessions_nil
  · split
    · exact onlySessions_nil
    · split
      · exact onlySessions_nil
      · exact onlySessions_singleton _ _

/-- All are told that a channel is an orphan, as it has no clients then. -/
theorem follows_leaveChannel {ch : ChannelState} (hch : s.channels.get c = some ch) :
    Follows s (s.leaveChannel k' c ch) k (s.leaveBroadcasts k' c ch) fun _ ↦ False := by
  rw [leaveChannel, leaveBroadcasts]
  split
  · rename_i hcond
    have hstart : (s.modifySet ch.clients fun set ↦ set.delete k').channels.get c = some ch := hch
    have hapart : ¬ (s.modifySet ch.clients fun set ↦ set.delete k').Apart k c := fun h ↦ by
      rw [Apart, members_of_channelSet (channelSet_of_get hstart), hcond.1] at h
      exact Bool.noConfusion h.1
    have hupdate := (s.modifySet ch.clients fun set ↦ set.delete k').follows_updateChannelStatus
      c .orphan (k := k)
    have horphan : Follows s ((s.modifySet ch.clients fun set ↦ set.delete k').updateChannelStatus c
        .orphan) k [(s.modifySet ch.clients fun set ↦ set.delete k').channelBroadcast c .orphan]
        fun _ ↦ False := by
      refine hupdate.congr rfl fun c' ↦ ?_
      rw [hstart]
      simp [hapart]
    exact horphan.append (channelStatus_of_channels (sameChannels_checkSessionDetached _).channels)
      (onlySessions_checkBroadcasts _)
  · exact follows_of_eq rfl onlySessions_nil

/-! ### Clients that leave and attach -/

theorem follows_detachClient (c : ChannelId) :
    Follows s (s.detachClient k' c) k (s.detachBroadcasts k' c) fun _ ↦ False := by
  have hleft : Follows s ((s.channels.get c).elim s fun ch ↦ s.leaveChannel k' c ch) k
      (s.detachBroadcasts k' c) fun _ ↦ False := by
    rw [detachBroadcasts]
    rcases hch : s.channels.get c with _ | ch
    · exact follows_of_eq rfl onlySessions_nil
    · exact follows_leaveChannel k' hch
  rw [detachClient]
  split
  · exact hleft.congr rfl fun _ ↦ Iff.rfl
  · exact hleft

theorem follows_removeClient :
    Follows s (s.removeClient k') k (s.broadcasts (.removeClient k')) fun _ ↦ False := by
  have hloop : ∀ (cs : List ChannelId) (t : SharedSessionContext),
      Follows t (cs.foldl (fun t c ↦ t.detachClient k' c) t) k (removeBroadcasts k' t cs)
        fun _ ↦ False := by
    intro cs
    induction cs with
    | nil => exact fun t ↦ follows_of_eq rfl onlySessions_nil
    | cons c cs ih => exact fun t ↦ (follows_detachClient k' c).trans (ih _)
  rw [removeClient, broadcasts]
  split
  · exact (hloop _ s).congr rfl fun _ ↦ Iff.rfl
  · exact follows_of_eq rfl onlySessions_nil

theorem follows_handleAttach (hs : s.Bound) (k' : ℕ) (c : ChannelId) :
    Follows s (s.handleAttach k' c) k (s.attachBroadcasts k' c) fun c' ↦
      s.Misleads k c' (.handleAttach k' c) := by
  rw [handleAttach, attachBroadcasts]
  by_cases hgone : s.isConnected k' = false
  · rw [if_pos hgone, if_pos hgone]
    refine follows_idle fun c' ↦ ?_
    exact fun h ↦ Bool.false_ne_true (hgone.symm.trans h.2.1)
  · rw [if_neg hgone, if_neg hgone]
    rcases hch : s.channels.get c with _ | ch
    · refine follows_idle fun c' ↦ ?_
      rintro ⟨rfl, -, horphan, -⟩
      rw [channelStatus, hch] at horphan
      cases horphan
    · have hset := channelSet_of_get hch
      dsimp only
      by_cases horphan : ch.status = .orphan
      · rw [if_pos horphan, if_pos horphan]
        -- The client is in the set when `updateChannelStatus` chooses whom to tell.
        have hjoined : ∀ k₁, k₁ ∈ (s.modifySet ch.clients fun set ↦ set.add k').members c ↔
            k₁ ∈ s.members c ∨ k₁ = k' := fun k₁ ↦ by
          rw [mem_members_add (hs c _ hset), hset]
          simp
        have hempty :
            ((s.modifySet ch.clients fun set ↦ set.add k').members c).isEmpty = false := by
          rw [Bool.eq_false_iff]
          intro hempty
          exact OrderedSet.isEmpty_iff.mp hempty k' ((hjoined k').mpr (.inr rfl))
        have hupdate := (s.modifySet ch.clients fun set ↦ set.add k').follows_updateChannelStatus
          c .live (k := k)
        refine hupdate.congr rfl fun c' ↦ ?_
        have hget : (s.modifySet ch.clients fun set ↦ set.add k').channels.get c = some ch := hch
        have hstatus : s.channelStatus c = .orphan := (channelStatus_of_get hch).trans horphan
        have hstatus' : (s.modifySet ch.clients fun set ↦ set.add k').channelStatus c = .orphan :=
          hstatus
        rw [hget, hstatus', Apart, hempty, hjoined]
        constructor
        · rintro ⟨rfl, -, -, hne, hk⟩
          simp [hne, hk]
        · rintro ⟨rfl, ⟨-, hnot⟩, -⟩
          exact ⟨rfl, (Bool.not_eq_false _).mp hgone, hstatus, fun h ↦ hnot (.inr h),
            fun h ↦ hnot (.inl h)⟩
      · rw [if_neg horphan, if_neg horphan]
        refine follows_idle fun c' ↦ ?_
        rintro ⟨rfl, -, hstatus, -⟩
        exact horphan ((channelStatus_of_get hch).symm.trans hstatus)

/-! ### Channels that die -/

/-- A channel dies, and may be removed then. -/
theorem follows_die (c : ChannelId)
    (ht : t.channelStatus = (s.updateChannelStatus c .dead).channelStatus) :
    Follows s t k [s.channelBroadcast c .dead] fun c' ↦ c' = c ∧ s.ApartAlive k c' := by
  refine (follows_updateChannelStatus c .dead).congr ht fun c' ↦ and_congr_right ?_
  rintro rfl
  split
  · exact Iff.rfl
  · rename_i hnone
    rw [Bool.not_eq_true, Option.isSome_eq_false_iff, Option.isNone_iff_eq_none] at hnone
    exact iff_of_false (fun h ↦ not_apart_of_none hnone h.1) (by simp)

theorem channelStatus_deleted (c : ChannelId)
    (ht : t.channels = (s.updateChannelStatus c .dead).channels.delete c) :
    t.channelStatus = (s.updateChannelStatus c .dead).channelStatus := by
  have hdeleted : t.channelStatus =
      ((s.updateChannelStatus c .dead).deleteChannel c).channelStatus :=
    channelStatus_of_channels ht
  rw [hdeleted]
  funext c'
  rw [channelStatus_deleteChannel, channelStatus_updateChannelStatus]
  split
  · rename_i heq
    subst heq
    rw [channelStatus]
    rcases s.channels.get c with _ | ch <;> simp
  · rfl

/-! ### Channels that are created -/

theorem follows_createdBroadcasts (ht : t.channelStatus = Function.update s.channelStatus c .live) :
    Follows s t k (createdBroadcasts c) fun _ ↦ False := by
  have hsame : Follows s s k [] fun _ ↦ False := follows_of_eq rfl onlySessions_nil
  have hput := hsame.put (createdBroadcasts c) ht fun v ↦ Function.update_idem ..
  exact hput.congr rfl fun c' ↦ (and_false _).to_iff.symm

theorem channels_setOrNew (clients : Option ℕ) : (s.setOrNew clients).1.channels = s.channels :=
  setOrNew_rule (motive := fun t ↦ t.channels = s.channels) rfl rfl

theorem channelStatus_moveChannel (previous : ChannelId) (elevated : Bool) :
    (s.moveChannel c previous i n elevated).channelStatus =
      (s.updateChannelStatus previous .dead).channelStatus := by
  refine channelStatus_deleted previous ?_
  exact moveChannel_rule
    (motive := fun t ↦ t.channels = (s.updateChannelStatus previous .dead).channels.delete previous)
    rfl fun _ ht ↦ ht

theorem follows_applyRestartState (c previous : ChannelId) (i : ℕ) (clients : Option ℕ)
    (elevated : Bool) :
    Follows s (s.applyRestartState c previous i clients elevated) k
      (s.restartBroadcasts c previous i)
      fun c' ↦ s.Misleads k c' (.applyRestartState c previous i clients elevated) := by
  rw [applyRestartState, restartBroadcasts]
  rcases hsession : s.sessionStates[i]? with _ | session
  · refine follows_idle fun c' ↦ ?_
    rintro ⟨-, -, hsome, -⟩
    rw [hsession] at hsome
    cases hsome
  · have hstart := s.channels_setOrNew clients
    generalize s.setOrNew clients = r at hstart ⊢
    obtain ⟨t, n⟩ := r
    dsimp only at hstart ⊢
    -- The channel that the restart leaves dies before the other is live.
    have hlive : ∀ u : SharedSessionContext,
        (((u.updateRow c .live).putChannel c ⟨i, session.hostId, .live, n⟩).trackChannel
          c).channelStatus = Function.update u.channelStatus c .live :=
      fun u ↦ channelStatus_put ⟨i, session.hostId, .live, n⟩ rfl rfl
    have hput : Follows s ((((if c = previous then t
          else t.moveChannel c previous i n elevated).updateRow c .live).putChannel c
          ⟨i, session.hostId, .live, n⟩).trackChannel c) k
        ((if c = previous then [] else [s.channelBroadcast previous .dead,
          toAll (.channelCreated c .live)]) ++ [toAll (.channelState c .live)])
        fun c' ↦ s.Misleads k c' (.applyRestartState c previous i clients elevated) := by
      by_cases hc : c = previous
      · -- The shell has kept its channel, which is live again, and all are told.
        rw [if_pos hc, if_pos hc]
        have hsame : Follows s t k [] fun _ ↦ False :=
          follows_of_eq (channelStatus_of_channels hstart) onlySessions_nil
        refine (hsame.put [toAll (.channelState c .live)] (hlive t) fun _ ↦ rfl).congr rfl
          fun c' ↦ iff_of_false (fun h ↦ h.2.1 hc) And.right
      · rw [if_neg hc, if_neg hc]
        have hdead : (t.moveChannel c previous i n elevated).channelStatus =
            (s.updateChannelStatus previous .dead).channelStatus := by
          rw [channelStatus_moveChannel]
          funext c'
          rw [channelStatus_updateChannelStatus, channelStatus_updateChannelStatus, hstart,
            channelStatus_of_channels hstart]
        refine ((follows_die previous hdead).put [toAll (.channelCreated c .live),
          toAll (.channelState c .live)] (hlive _) fun _ ↦ Function.update_idem ..).congr rfl
          fun c' ↦ ?_
        change c' = previous ∧ c ≠ previous ∧ (s.sessionStates[i]?).isSome ∧ _ ↔ _
        rw [hsession]
        constructor
        · rintro ⟨rfl, -, -, hapart⟩
          exact ⟨Ne.symm hc, rfl, hapart⟩
        · rintro ⟨-, rfl, hapart⟩
          exact ⟨rfl, hc, rfl, hapart⟩
    rw [List.append_cons]
    by_cases hdetached : session.status = .detached
    · rw [if_pos hdetached, if_pos hdetached]
      exact hput.append rfl (onlySessions_singleton _ _)
    · rw [if_neg hdetached, if_neg hdetached]
      exact hput.append rfl onlySessions_nil

/-! ### Sessions that open and close -/

theorem follows_daemonReady (i a : ℕ) (states : List (ChannelId × Bool)) :
    Follows s (s.daemonReady i a states) k (s.broadcasts (.daemonReady i a states)) fun c ↦
      s.Misleads k c (.daemonReady i a states) := by
  rw [daemonReady, broadcasts]
  rcases hsession : s.sessionStates[i]? with _ | session
  · refine follows_idle fun c ↦ ?_
    rintro ⟨-, session, hmem, -⟩
    rw [hsession] at hmem
    cases hmem
  · dsimp only
    have hreconcile : Follows s (s.reconcileChannelState session.hostId states) k
        (s.reconcileBroadcasts session.hostId states) fun c ↦
          s.Misleads k c (.daemonReady i a states) := by
      have hmisleads : ∀ c, s.Misleads k c (.daemonReady i a states) ↔
          s.Apart k c ∧ ∃ ch ∈ s.channels.get c,
            s.reconciledStatus session.hostId states c ch ≠ ch.status := fun c ↦ by
        rw [Misleads, hsession]
        simp
      rw [reconcileChannelState, reconcileBroadcasts]
      rcases hcurrent : s.sessions.get session.hostId with _ | j
      · refine follows_idle fun c ↦ ?_
        rw [hmisleads]
        rintro ⟨-, ch, -, hne⟩
        rw [reconciledStatus, hcurrent] at hne
        exact hne rfl
      · refine (follows_setStatuses _).congr rfl fun c ↦ ?_
        rw [hmisleads]
        simp only [reconciledStatus, hcurrent, Option.elim_some]
    exact hreconcile.append rfl (onlySessions_singleton _ _)

theorem follows_closeSession (i : ℕ) :
    Follows s (s.closeSession i) k (s.broadcasts (.closeSession i)) fun c ↦
      s.Misleads k c (.closeSession i) := by
  rw [closeSession, broadcasts]
  rcases hsession : s.sessionStates[i]? with _ | session
  · refine follows_idle fun c ↦ ?_
    rintro ⟨-, session, hmem, -⟩
    rw [hsession] at hmem
    cases hmem
  · dsimp only
    have hkill : Follows s (s.killChannels session.hostId) k
        (s.statusBroadcasts fun _ ch ↦
          if ch.hostId = session.hostId ∧ ch.status ≠ .dead then .dead else ch.status)
        fun c ↦ s.Misleads k c (.closeSession i) := by
      refine (follows_setStatuses _).congr ?_ fun c ↦ ?_
      · funext c
        rw [channelStatus, channelStatus, get_killChannels, get_setStatuses]
      · change (s.ApartAlive k c ∧ ∃ session ∈ s.sessionStates[i]?, _) ↔ _
        rw [hsession]
        constructor
        · rintro ⟨⟨hapart, halive⟩, session', hmem, ch, hch, hhost⟩
          cases hmem
          rw [channelStatus_of_get hch] at halive
          refine ⟨hapart, ch, hch, ?_⟩
          rw [if_pos ⟨hhost, halive⟩]
          exact Ne.symm halive
        · rintro ⟨hapart, ch, hch, hne⟩
          by_cases hcond : ch.hostId = session.hostId ∧ ch.status ≠ .dead
          · refine ⟨⟨hapart, ?_⟩, session, rfl, ch, hch, hcond.1⟩
            rw [channelStatus_of_get hch]
            exact hcond.2
          · exact absurd (if_neg hcond) hne
    exact hkill.append rfl (onlySessions_singleton _ _)

theorem channelStatus_bury :
    (s.bury alive).channelStatus c = if c ∈ alive then .dead else s.channelStatus c := by
  rw [bury]
  induction alive generalizing s with
  | nil => rfl
  | cons c' alive ih =>
    rw [List.foldl_cons, ih, channelStatus_updateChannelStatus]
    by_cases hc : c' = c
    · subst hc
      rw [channelStatus]
      rcases s.channels.get c' with _ | ch <;> simp
    · simp [hc, Ne.symm hc]

theorem follows_bury :
    Follows s (s.bury alive) k [] fun c ↦ s.Misleads k c (.bury alive) := by
  intro v hv c
  change v.channels c = _ ↔ ¬ (c ∈ alive ∧ s.channelStatus c ≠ .dead)
  rw [hv, channelStatus_bury]
  split
  · rename_i hmem
    simp [hmem]
  · rename_i hmem
    simp [hmem]

/-- The snapshot is for the new client only. -/
theorem hears_addClient (hk : k < s.clients.length) : v.hears k (s.broadcasts .addClient) = v := by
  rw [broadcasts]
  split
  · refine if_neg ?_
    simpa using Nat.ne_of_lt hk
  · rfl

/-- No client is there before the routes are. -/
theorem restoreHost_of_isConnected (hearly : s.serving = false → s.clients = [])
    (hk : s.isConnected k = true) (i : ℕ) (alive : List ChannelId) : s.restoreHost i alive = s := by
  have hserving : s.serving = true := by
    rw [← Bool.not_eq_false]
    intro hserving
    have hlt := lt_length_of_isConnected hk
    rw [hearly hserving] at hlt
    exact Nat.not_lt_zero _ hlt
  rw [restoreHost]
  split
  · rfl
  · rw [if_neg]
    rintro ⟨hrestoring, -⟩
    rw [restoring, hserving] at hrestoring
    exact Bool.false_ne_true hrestoring

theorem follows_spawned (c : ChannelId) (i : ℕ) (elevated : Bool) :
    Follows s (s.spawned k' c i elevated) k (s.broadcasts (.spawned k' c i elevated))
      fun _ ↦ False := by
  rw [spawned, broadcasts]
  rcases hsession : s.sessionStates[i]? with _ | session
  · exact follows_of_eq rfl onlySessions_nil
  · rcases hrow : s.channelRows.get c with _ | row
    · exact follows_createdBroadcasts
        (channelStatus_put ⟨i, session.hostId, .live, s.clientSets.length⟩ rfl rfl)
    · exact follows_of_eq rfl onlySessions_nil

theorem follows_respawned (c : ChannelId) (i : ℕ) :
    Follows s (s.respawned k' c i) k (s.broadcasts (.respawned k' c i)) fun _ ↦ False := by
  rw [respawned, broadcasts]
  rcases hsession : s.sessionStates[i]? with _ | session
  · exact follows_of_eq rfl onlySessions_nil
  · have hput := (follows_of_eq (k := k) (rfl : s.channelStatus = s.channelStatus)
      onlySessions_nil).put [toAll (.channelState c .live)]
        (channelStatus_put ⟨i, session.hostId, .live, s.clientSets.length⟩
          (rfl : (((s.updateRow c .live).newSet (.singleton k')).putChannel c
            ⟨i, session.hostId, .live, s.clientSets.length⟩).channels = _) rfl) fun _ ↦ rfl
    exact hput.congr rfl fun c' ↦ (and_false _).to_iff.symm

theorem follows_hostSpawned (reAttach : Bool) (c : ChannelId) (n : ℕ) :
    Follows s (s.hostSpawned reAttach c n) k (s.broadcasts (.hostSpawned reAttach c n))
      fun c' ↦ s.Misleads k c' (.hostSpawned reAttach c n) := by
  rw [hostSpawned, broadcasts]
  by_cases hcond : reAttach ∧ (s.clientSet n).isEmpty = false
  · rw [if_pos hcond, if_pos hcond]
    refine (follows_updateChannelStatus c .live).congr rfl fun c' ↦ ?_
    constructor
    · rintro ⟨rfl, -, -, hmisled⟩
      refine ⟨rfl, ?_⟩
      split
      · rename_i hsome
        rwa [if_pos hsome] at hmisled
      · decide
    · rintro ⟨rfl, hmisled⟩
      refine ⟨rfl, hcond.1, hcond.2, ?_⟩
      split
      · rename_i hsome
        rwa [if_pos hsome] at hmisled
      · trivial
  · rw [if_neg hcond, if_neg hcond]
    refine follows_idle fun c' ↦ ?_
    exact fun h ↦ hcond ⟨h.2.1, h.2.2.1⟩

/-! ### All actions on channels -/

/-- **One action**: a client that is connected follows the channels, except where it is misled. -/
theorem follows_apply (hs : s.Bound) (hearly : s.serving = false → s.clients = [])
    (hk : s.isConnected k = true) (a : ContextAction) :
    Follows s (s.apply a) k (s.broadcasts a) fun c ↦ s.Misleads k c a := by
  have hsame : ∀ a, OnSessions a → (∀ c, ¬ s.Misleads k c a) →
      Follows s (s.apply a) k (s.broadcasts a) fun c ↦ s.Misleads k c a := fun a ha ↦
    follows_quiet (channelStatus_of_channels (sameChannels_apply a ha).channels)
      (onlySessions_broadcasts a ha)
  have hlt := lt_length_of_isConnected hk
  cases a with
  | beginQuit =>
    refine follows_quiet ?_ onlySessions_nil fun _ ↦ id
    rw [SharedSessionContext.apply]
    split <;> rfl
  | addClient =>
    intro v hv c
    rw [hears_addClient hlt, hv, SharedSessionContext.apply]
    split <;> exact iff_of_true rfl id
  | removeClient k' => exact follows_removeClient k'
  | detachClient k' c => exact follows_detachClient k' c
  | handleAttach k' c => exact follows_handleAttach hs k' c
  | attachRejected k' c n =>
    refine (follows_die c ?_).congr rfl fun c' ↦ and_congr_left fun _ ↦ Iff.rfl
    exact channelStatus_deleted c rfl
  | spawned k' c i elevated => exact follows_spawned k' c i elevated
  | respawned k' c i => exact follows_respawned k' c i
  | applyRestartState c previous i clients elevated =>
    exact follows_applyRestartState c previous i clients elevated
  | destroyChannel c =>
    rw [SharedSessionContext.apply, destroyChannel, broadcasts]
    rcases hget : s.channels.get c with _ | ch
    · refine follows_idle fun c' ↦ ?_
      rintro ⟨rfl, hapart, -⟩
      exact not_apart_of_none hget hapart
    · exact (follows_die c (channelStatus_deleted c rfl)).congr rfl fun c' ↦ Iff.rfl
  | channelExit c =>
    rw [SharedSessionContext.apply, broadcasts]
    rcases hget : s.channels.get c with _ | ch
    · refine follows_idle fun c' ↦ ?_
      rintro ⟨rfl, hapart, -⟩
      exact not_apart_of_none hget hapart
    · exact (follows_die c rfl).congr rfl fun c' ↦ Iff.rfl
  | hostSpawned reAttach c n => exact follows_hostSpawned reAttach c n
  | hostSpawnFailed c => exact follows_die c rfl
  | daemonReady i a states => exact follows_daemonReady i a states
  | closeSession i => exact follows_closeSession i
  | restoreHost i alive =>
    refine follows_quiet ?_ onlySessions_nil fun _ ↦ id
    rw [SharedSessionContext.apply, restoreHost_of_isConnected hearly hk]
  | bury alive => exact follows_bury alive
  | serve => exact follows_quiet rfl onlySessions_nil fun _ ↦ id
  | markRowDead c =>
    refine follows_quiet ?_ onlySessions_nil fun _ ↦ id
    rw [SharedSessionContext.apply]
    split <;> rfl
  | purgeRow c =>
    refine follows_quiet ?_ onlySessions_nil fun _ ↦ id
    rw [SharedSessionContext.apply]
    split <;> rfl
  | _ => exact hsame _ trivial fun _ ↦ id

/-! ## Views of sessions -/

/-- The view has the sessions of the hub, and none that is still to come. -/
structure KnowsSessions (s : SharedSessionContext) (v : ClientView) : Prop where
  current : ∀ hostId i, s.sessions.get hostId = some i → s.sessionStatus i = some (v.sessions i)
  unknown : ∀ i, s.sessionStates.length ≤ i → v.sessions i = .closed

/-- Whoever knows the sessions of `s` knows those of `t` behind the messages. -/
def Keeps (s t : SharedSessionContext) (k : ℕ) (bs : List Broadcast) : Prop :=
  s.Hosted → t.Hosted ∧ ∀ v, s.KnowsSessions v → t.KnowsSessions (v.hears k bs)

/-- The messages are about channels. -/
def OnlyChannels (bs : List Broadcast) : Prop :=
  ∀ b ∈ bs, ∃ c status, b.msg = .channelState c status ∨ b.msg = .channelCreated c status

/-! ### Messages on channels -/

theorem OnlyChannels.sessions (h : OnlyChannels bs) (v : ClientView) (k : ℕ) :
    (v.hears k bs).sessions = v.sessions := by
  induction bs generalizing v with
  | nil => rfl
  | cons b bs ih =>
    refine (ih (fun b' hb' ↦ h b' (List.mem_cons_of_mem _ hb')) _).trans ?_
    obtain ⟨c, status, hmsg⟩ := h b List.mem_cons_self
    change (v.hear k b).sessions = v.sessions
    rw [ClientView.hear]
    split
    · rcases hmsg with hmsg | hmsg
      · rw [hmsg]
        rfl
      · rw [hmsg]
        rfl
    · rfl

theorem onlyChannels_nil : OnlyChannels [] := nofun

theorem onlyChannels_singleton (c : ChannelId) (status : ChannelStatus) :
    OnlyChannels [s.channelBroadcast c status] := fun b hb ↦ by
  obtain rfl := List.mem_singleton.mp hb
  exact ⟨c, status, .inl rfl⟩

theorem OnlyChannels.append (h : OnlyChannels bs) (h' : OnlyChannels bs') :
    OnlyChannels (bs ++ bs') := fun b hb ↦ (List.mem_append.mp hb).elim (h b) (h' b)

theorem onlyChannels_statusBroadcasts (f : ChannelId → ChannelState → ChannelStatus) :
    OnlyChannels (s.statusBroadcasts f) := fun b hb ↦ by
  obtain ⟨e, -, rfl⟩ := List.mem_map.mp hb
  exact ⟨_, _, .inl rfl⟩

/-! ### Sessions that stay -/

/-- Sessions go, and the statuses of the others stay. -/
theorem keeps_of_shrink (hsessions : ∀ hostId i, t.sessions.get hostId = some i →
    s.sessions.get hostId = some i) (hstates : t.sessionStates = s.sessionStates)
    (hbs : OnlyChannels bs) : Keeps s t k bs := by
  refine fun hhosted ↦ ⟨fun hostId i hi ↦ ?_, fun v hv ↦ ⟨fun hostId i hi ↦ ?_, fun i hi ↦ ?_⟩⟩
  · rw [sessionHost, hstates]
    exact hhosted hostId i (hsessions hostId i hi)
  · rw [sessionStatus, hstates, hbs.sessions]
    exact hv.current hostId i (hsessions hostId i hi)
  · rw [hbs.sessions]
    exact hv.unknown i (hstates ▸ hi)

theorem keeps_of_eq (hsessions : t.sessions = s.sessions)
    (hstates : t.sessionStates = s.sessionStates)
    (hbs : OnlyChannels bs) : Keeps s t k bs :=
  keeps_of_shrink (fun _ _ hi ↦ hsessions ▸ hi) hstates hbs

theorem keeps_silent (hsessions : t.sessions = s.sessions)
    (hstates : t.sessionStates = s.sessionStates) : Keeps s t k [] :=
  keeps_of_eq hsessions hstates onlyChannels_nil

theorem keeps_deleteSession : Keeps s (s.deleteSession hostId) k [] := by
  refine keeps_of_shrink (fun hostId' i hi ↦ ?_) rfl onlyChannels_nil
  rw [deleteSession, OrderedMap.get_delete] at hi
  split at hi
  · cases hi
  · exact hi

theorem Keeps.trans (h : Keeps s t k bs) (h' : Keeps t u k bs') : Keeps s u k (bs ++ bs') := by
  intro hhosted
  obtain ⟨ht, hv⟩ := h hhosted
  obtain ⟨hu, hv'⟩ := h' ht
  refine ⟨hu, fun v hknows ↦ ?_⟩
  rw [ClientView.hears_append]
  exact hv' _ (hv v hknows)

/-- Something follows that no client is told. -/
theorem Keeps.silent (h : Keeps s t k bs) (h' : Keeps t u k []) : Keeps s u k bs := by
  have htrans := h.trans h'
  rwa [List.append_nil] at htrans

theorem keeps_updateSessionStatus (hi : i < s.sessionStates.length) (st : SessionStatus) :
    Keeps s (s.updateSessionStatus i st) k [sessionBroadcast i st] := by
  refine fun hhosted ↦ ⟨fun hostId j hj ↦ ?_, fun v hv ↦ ⟨fun hostId j hj ↦ ?_, fun j hj ↦ ?_⟩⟩
  · rw [sessionHost_updateSessionStatus]
    exact hhosted hostId j hj
  · change s.sessions.get hostId = some j at hj
    change _ = some (Function.update v.sessions i st j)
    obtain ⟨x, hx, hhost⟩ := Option.map_eq_some_iff.mp (hhosted hostId j hj)
    -- The object is written, as the session is the one of its host.
    have hstatus := hv.current hostId j hj
    rw [sessionStatus, getElem?_updateSessionStatus, hx, Function.update_apply]
    rw [sessionStatus, hx] at hstatus
    by_cases hij : i = j
    · subst hij
      rw [if_pos rfl, Option.map_some, if_pos rfl, Option.map_some, hhost, if_pos hj]
    · rw [if_neg (Ne.symm hij), Option.map_some, if_neg hij]
      exact hstatus
  · have hlength : (s.updateSessionStatus i st).sessionStates.length = s.sessionStates.length :=
      List.length_modify ..
    rw [hlength] at hj
    change Function.update v.sessions i st j = .closed
    rw [Function.update_apply, if_neg (by omega)]
    exact hv.unknown j hj

theorem lt_length_of_state {session : SessionState} (h : s.sessionStates[i]? = some session) :
    i < s.sessionStates.length := (List.getElem?_eq_some_iff.mp h).1

/-! ### Single actions -/

theorem keeps_checkSessionDetached :
    Keeps s (s.checkSessionDetached hostId) k (s.checkBroadcasts hostId) := by
  intro hhosted
  rw [checkSessionDetached, checkBroadcasts]
  rcases hi : s.sessions.get hostId with _ | i
  · exact keeps_silent rfl rfl hhosted
  · dsimp only
    split
    · exact keeps_silent rfl rfl hhosted
    · split
      · exact keeps_silent rfl rfl hhosted
      · exact keeps_updateSessionStatus (lt_length_of_sessionHost (hhosted hostId i hi)) _ hhosted

theorem keeps_detachClient (c : ChannelId) :
    Keeps s (s.detachClient k' c) k (s.detachBroadcasts k' c) := by
  have hleave : ∀ ch, Keeps s (s.leaveChannel k' c ch) k (s.leaveBroadcasts k' c ch) := fun ch ↦ by
    rw [leaveChannel, leaveBroadcasts]
    split
    · have horphan : Keeps s
          ((s.modifySet ch.clients fun set ↦ set.delete k').updateChannelStatus c .orphan) k
          [(s.modifySet ch.clients fun set ↦ set.delete k').channelBroadcast c .orphan] :=
        keeps_of_eq rfl rfl (onlyChannels_singleton c .orphan)
      exact horphan.trans (keeps_checkSessionDetached ch.hostId)
    · exact keeps_silent rfl rfl
  have hleft : Keeps s ((s.channels.get c).elim s fun ch ↦ s.leaveChannel k' c ch) k
      (s.detachBroadcasts k' c) := by
    rw [detachBroadcasts]
    rcases s.channels.get c with _ | ch
    · exact keeps_silent rfl rfl
    · exact hleave ch
  rw [detachClient]
  split
  · exact hleft.silent (keeps_silent rfl rfl)
  · exact hleft

theorem keeps_removeClient :
    Keeps s (s.removeClient k') k (s.broadcasts (.removeClient k')) := by
  have hloop : ∀ (cs : List ChannelId) (t : SharedSessionContext),
      Keeps t (cs.foldl (fun t c ↦ t.detachClient k' c) t) k (removeBroadcasts k' t cs) := by
    intro cs
    induction cs with
    | nil => exact fun t ↦ keeps_silent rfl rfl
    | cons c cs ih => exact fun t ↦ (keeps_detachClient k' c).trans (ih _)
  rw [removeClient, broadcasts]
  split
  · exact (hloop _ s).silent (keeps_silent rfl rfl)
  · exact keeps_silent rfl rfl

theorem keeps_applyRestartState (c previous : ChannelId) (i : ℕ) (clients : Option ℕ)
    (elevated : Bool) :
    Keeps s (s.applyRestartState c previous i clients elevated) k
      (s.restartBroadcasts c previous i) := by
  rw [applyRestartState, restartBroadcasts]
  rcases hsession : s.sessionStates[i]? with _ | session
  · exact keeps_silent rfl rfl
  · have hstart : (s.setOrNew clients).1.sessions = s.sessions ∧
        (s.setOrNew clients).1.sessionStates = s.sessionStates :=
      setOrNew_rule (motive := fun t ↦ t.sessions = s.sessions ∧ t.sessionStates = s.sessionStates)
        ⟨rfl, rfl⟩ ⟨rfl, rfl⟩
    generalize s.setOrNew clients = r at hstart ⊢
    obtain ⟨t, n⟩ := r
    obtain ⟨hsessions, hstates⟩ := hstart
    dsimp only at hsessions hstates ⊢
    have hmoved : (if c = previous then t
          else t.moveChannel c previous i n elevated).sessions = s.sessions ∧
        (if c = previous then t else t.moveChannel c previous i n elevated).sessionStates =
          s.sessionStates := by
      split
      · exact ⟨hsessions, hstates⟩
      · exact moveChannel_rule
          (motive := fun t ↦ t.sessions = s.sessions ∧ t.sessionStates = s.sessionStates)
          ⟨hsessions, hstates⟩ fun _ ht ↦ ht
    generalize (if c = previous then t else t.moveChannel c previous i n elevated) = u at hmoved ⊢
    have hput : Keeps s (((u.updateRow c .live).putChannel c
        ⟨i, session.hostId, .live, n⟩).trackChannel c) k
        ((if c = previous then [] else [s.channelBroadcast previous .dead,
          toAll (.channelCreated c .live)]) ++ [toAll (.channelState c .live)]) := by
      refine keeps_of_eq hmoved.1 hmoved.2 (OnlyChannels.append ?_ fun b hb ↦ ?_)
      · split
        · exact onlyChannels_nil
        · intro b hb
          rcases List.mem_cons.mp hb with rfl | hb
          · exact ⟨_, _, .inl rfl⟩
          · obtain rfl := List.mem_singleton.mp hb
            exact ⟨_, _, .inr rfl⟩
      · obtain rfl := List.mem_singleton.mp hb
        exact ⟨_, _, .inl rfl⟩
    rw [List.append_cons]
    by_cases hdetached : session.status = .detached
    · rw [if_pos hdetached, if_pos hdetached]
      refine hput.trans (keeps_updateSessionStatus ?_ .active)
      exact (lt_length_of_state hsession).trans_eq (congrArg List.length hmoved.2).symm
    · rw [if_neg hdetached, if_neg hdetached, List.append_nil]
      exact hput

/-! ### Rows -/

/-- Rows of sessions are written. -/
theorem keeps_rows (hsessions : t.sessions = s.sessions)
    (hstates : ∀ i : ℕ, (t.sessionStates[i]?).map (fun x ↦ (x.hostId, x.status)) =
      (s.sessionStates[i]?).map fun x ↦ (x.hostId, x.status)) : Keeps s t k [] := by
  have hhost : ∀ i, t.sessionHost i = s.sessionHost i := fun i ↦ by
    have hi := congrArg (Option.map Prod.fst) (hstates i)
    rwa [Option.map_map, Option.map_map] at hi
  have hstatus : ∀ i, t.sessionStatus i = s.sessionStatus i := fun i ↦ by
    have hi := congrArg (Option.map Prod.snd) (hstates i)
    rwa [Option.map_map, Option.map_map] at hi
  refine fun hhosted ↦ ⟨fun hostId i hi ↦ ?_, fun v hv ↦ ⟨fun hostId i hi ↦ ?_, fun i hi ↦ ?_⟩⟩
  · rw [hhost]
    exact hhosted hostId i (hsessions ▸ hi)
  · rw [hstatus]
    exact hv.current hostId i (hsessions ▸ hi)
  · refine hv.unknown i ?_
    have hnone := hstates i
    rw [List.getElem?_eq_none hi, Option.map_none] at hnone
    exact List.getElem?_eq_none_iff.mp (Option.map_eq_none_iff.mp hnone.symm)

theorem sessions_bury :
    (s.bury alive).sessions = s.sessions ∧ (s.bury alive).sessionStates = s.sessionStates :=
  bury_rule (motive := fun t ↦ t.sessions = s.sessions ∧ t.sessionStates = s.sessionStates)
    ⟨rfl, rfl⟩ fun _ _ ht ↦ ht

theorem sessions_killChannels : (s.killChannels hostId).sessions = s.sessions ∧
      (s.killChannels hostId).sessionStates = s.sessionStates :=
  killChannels_rule
    (motive := fun t ↦ t.sessions = s.sessions ∧ t.sessionStates = s.sessionStates)
    ⟨rfl, rfl⟩ fun _ _ ht ↦ ht

theorem keeps_handleAttach (c : ChannelId) :
    Keeps s (s.handleAttach k' c) k (s.broadcasts (.handleAttach k' c)) := by
  rw [handleAttach, broadcasts, attachBroadcasts]
  split
  · exact keeps_silent rfl rfl
  · rcases s.channels.get c with _ | ch
    · exact keeps_silent rfl rfl
    · dsimp only
      split
      · exact keeps_of_eq rfl rfl (onlyChannels_singleton c .live)
      · exact keeps_silent rfl rfl

theorem keeps_spawned (c : ChannelId) (i : ℕ) (elevated : Bool) :
    Keeps s (s.spawned k' c i elevated) k (s.broadcasts (.spawned k' c i elevated)) := by
  rw [spawned, broadcasts]
  rcases s.sessionStates[i]? with _ | session
  · exact keeps_silent rfl rfl
  · rcases s.channelRows.get c with _ | row
    · refine keeps_of_eq rfl rfl fun b hb ↦ ?_
      rcases List.mem_cons.mp hb with rfl | hb
      · exact ⟨_, _, .inl rfl⟩
      · obtain rfl := List.mem_singleton.mp hb
        exact ⟨_, _, .inr rfl⟩
    · exact keeps_silent rfl rfl

theorem keeps_respawned (c : ChannelId) (i : ℕ) :
    Keeps s (s.respawned k' c i) k (s.broadcasts (.respawned k' c i)) := by
  rw [respawned, broadcasts]
  rcases s.sessionStates[i]? with _ | session
  · exact keeps_silent rfl rfl
  · refine keeps_of_eq rfl rfl fun b hb ↦ ?_
    obtain rfl := List.mem_singleton.mp hb
    exact ⟨_, _, .inl rfl⟩

theorem keeps_daemonReady (i a : ℕ) (states : List (ChannelId × Bool)) :
    Keeps s (s.daemonReady i a states) k (s.broadcasts (.daemonReady i a states)) := by
  rw [daemonReady, broadcasts]
  rcases hsession : s.sessionStates[i]? with _ | session
  · exact keeps_silent rfl rfl
  · have hreconcile : Keeps s ((s.reconcileChannelState session.hostId states).adoptAgent
        session.hostId a) k (s.reconcileBroadcasts session.hostId states) := by
      rw [reconcileChannelState, reconcileBroadcasts]
      rcases s.sessions.get session.hostId with _ | j
      · exact keeps_silent rfl rfl
      · exact keeps_of_eq rfl rfl (onlyChannels_statusBroadcasts _)
    refine hreconcile.trans (keeps_updateSessionStatus ?_ .active)
    have hstates : (s.reconcileChannelState session.hostId states).sessionStates =
        s.sessionStates :=
      reconcileChannelState_rule (motive := fun t ↦ t.sessionStates = s.sessionStates) rfl
        fun _ ↦ rfl
    exact (lt_length_of_state hsession).trans_eq (congrArg List.length hstates).symm

theorem keeps_agentClosed (disconnects : Bool) :
    Keeps s (s.agentClosed hostId disconnects) k
      (s.broadcasts (.agentClosed hostId disconnects)) := by
  rw [agentClosed, broadcasts]
  intro hhosted
  have hsessions : (s.deleteAgent hostId).sessions = s.sessions := rfl
  rw [hsessions]
  rcases hi : s.sessions.get hostId with _ | i
  · exact keeps_silent rfl rfl hhosted
  · dsimp only
    split
    · have hdelete : Keeps s (s.deleteAgent hostId) k [] := keeps_silent rfl rfl
      have hlt : i < (s.deleteAgent hostId).sessionStates.length :=
        lt_length_of_sessionHost (hhosted hostId i hi)
      exact hdelete.trans (keeps_updateSessionStatus hlt .disconnected) hhosted
    · exact keeps_silent rfl rfl hhosted

theorem keeps_closeSession (i : ℕ) :
    Keeps s (s.closeSession i) k (s.broadcasts (.closeSession i)) := by
  rw [closeSession, broadcasts]
  rcases hsession : s.sessionStates[i]? with _ | session
  · exact keeps_silent rfl rfl
  · obtain ⟨hsessions, hstates⟩ := s.sessions_killChannels session.hostId
    have hkill : Keeps s (s.killChannels session.hostId) k (s.statusBroadcasts fun _ ch ↦
        if ch.hostId = session.hostId ∧ ch.status ≠ .dead then .dead else ch.status) :=
      keeps_of_eq hsessions hstates (onlyChannels_statusBroadcasts _)
    refine (hkill.trans (keeps_updateSessionStatus ?_ .closed)).silent (keeps_deleteSession _)
    exact (lt_length_of_state hsession).trans_eq (congrArg List.length hstates).symm

theorem keeps_connectFailed (i : ℕ) :
    Keeps s (s.connectFailed i) k (s.broadcasts (.connectFailed i)) := by
  rw [connectFailed, broadcasts, sessionStatus]
  rcases hsession : s.sessionStates[i]? with _ | session
  · exact keeps_silent rfl rfl
  · by_cases hstarting : session.status = .starting
    · rw [Option.map_some, if_pos (congrArg some hstarting)]
      dsimp only
      rw [if_pos hstarting]
      exact (keeps_updateSessionStatus (lt_length_of_state hsession) .closed).silent
        (keeps_deleteSession _)
    · rw [Option.map_some, if_neg fun heq ↦ hstarting (Option.some.inj heq)]
      dsimp only
      rw [if_neg hstarting]
      exact keeps_silent rfl rfl

theorem keeps_abandonSession (i : ℕ) :
    Keeps s (s.abandonSession i) k (s.broadcasts (.abandonSession i)) := by
  rw [abandonSession, broadcasts]
  rcases hhost : s.sessionHost i with _ | hostId
  · exact keeps_silent rfl rfl
  · dsimp only
    split
    · have hstart : Keeps s (match s.agents.get hostId with
          | none => s
          | some a => (s.closeAgent a).deleteAgent hostId) k [] := by
        split <;> exact keeps_silent rfl rfl
      refine (hstart.trans (keeps_updateSessionStatus ?_ .closed)).silent (keeps_deleteSession _)
      have hlt := lt_length_of_sessionHost hhost
      split <;> exact hlt
    · exact keeps_silent rfl rfl

theorem keeps_closeRow (i : ℕ) : Keeps s (s.closeRow i) k [] := by
  rw [closeRow]
  split
  · exact keeps_silent rfl rfl
  · refine keeps_rows rfl fun j ↦ ?_
    rw [List.getElem?_modify]
    rcases s.sessionStates[j]? with _ | x
    · rfl
    · change some (Prod.mk (SessionState.hostId (ite _ _ _)) _) = _
      split <;> rfl

theorem keeps_markDisconnected : Keeps s (s.markDisconnected hostId) k [] := by
  rw [markDisconnected]
  split
  · refine keeps_rows rfl fun j ↦ ?_
    rw [List.getElem?_map, Option.map_map]
    refine congrArg₂ _ (funext fun x ↦ ?_) rfl
    rw [Function.comp_apply]
    split <;> rfl
  · exact keeps_silent rfl rfl

/-! ### All actions on sessions -/

/-- **One action** that creates no session. A new client gets its messages apart. -/
theorem keeps_apply (a : ContextAction) (hcreate : ∀ hostId, a ≠ .createSession hostId)
    (hadd : a ≠ .addClient) (hrestore : ∀ i alive, a ≠ .restoreHost i alive) :
    Keeps s (s.apply a) k (s.broadcasts a) := by
  cases a with
  | beginQuit =>
    rw [SharedSessionContext.apply]
    split <;> exact keeps_silent rfl rfl
  | addClient => exact absurd rfl hadd
  | removeClient k' => exact keeps_removeClient k'
  | detachClient k' c => exact keeps_detachClient k' c
  | handleAttach k' c => exact keeps_handleAttach k' c
  | attachRejected k' c n => exact keeps_of_eq rfl rfl (onlyChannels_singleton c .dead)
  | spawned k' c i elevated => exact keeps_spawned k' c i elevated
  | respawned k' c i => exact keeps_respawned k' c i
  | applyRestartState c previous i clients elevated =>
    exact keeps_applyRestartState c previous i clients elevated
  | destroyChannel c =>
    rw [SharedSessionContext.apply, destroyChannel, broadcasts]
    rcases s.channels.get c with _ | ch
    · exact keeps_silent rfl rfl
    · exact keeps_of_eq rfl rfl (onlyChannels_singleton c .dead)
  | markRowDead c =>
    rw [SharedSessionContext.apply]
    split <;> exact keeps_silent rfl rfl
  | purgeRow c =>
    rw [SharedSessionContext.apply]
    split <;> exact keeps_silent rfl rfl
  | channelExit c =>
    rw [SharedSessionContext.apply, broadcasts]
    split
    · exact keeps_of_eq rfl rfl (onlyChannels_singleton c .dead)
    · exact keeps_silent rfl rfl
  | hostSpawned reAttach c n =>
    rw [SharedSessionContext.apply, hostSpawned, broadcasts]
    split
    · exact keeps_of_eq rfl rfl (onlyChannels_singleton c .live)
    · exact keeps_silent rfl rfl
  | hostSpawnFailed c => exact keeps_of_eq rfl rfl (onlyChannels_singleton c .dead)
  | createSession hostId => exact absurd rfl (hcreate hostId)
  | activateSession i =>
    rw [SharedSessionContext.apply, activateSession, broadcasts]
    split
    · rename_i hcurrent
      obtain ⟨hostId, hhost, -⟩ := Option.bind_eq_some_iff.mp hcurrent
      exact keeps_updateSessionStatus (lt_length_of_sessionHost hhost) .active
    · exact keeps_silent rfl rfl
  | daemonReady i a states => exact keeps_daemonReady i a states
  | agentClosed hostId disconnects => exact keeps_agentClosed hostId disconnects
  | closeSession i => exact keeps_closeSession i
  | connectFailed i => exact keeps_connectFailed i
  | dropSession i =>
    rw [SharedSessionContext.apply, dropSession]
    split
    · exact keeps_silent rfl rfl
    · split
      · exact keeps_deleteSession _
      · exact keeps_silent rfl rfl
  | abandonSession i => exact keeps_abandonSession i
  | closeRow i => exact keeps_closeRow i
  | markDisconnected hostId => exact keeps_markDisconnected hostId
  | restoreHost i alive => exact absurd rfl (hrestore i alive)
  | bury alive =>
    obtain ⟨hsessions, hstates⟩ := s.sessions_bury alive
    exact keeps_silent hsessions hstates
  | _ => exact keeps_silent rfl rfl

theorem Hosted.restoreHost (h : s.Hosted) (i : ℕ) (alive : List ChannelId) :
    (s.restoreHost i alive).Hosted := by
  exact restoreHost_rule h fun session hsession _ _ ↦
    ⟨Reopens.hosted ⟨rfl⟩ h hsession rfl, fun t c _ ht ↦ ht⟩

theorem Hosted.apply (h : s.Hosted) (a : ContextAction) : (s.apply a).Hosted := by
  cases a with
  | addClient =>
    rw [SharedSessionContext.apply]
    split <;> exact h
  | createSession hostId => exact h.createSession hostId
  | restoreHost i alive => exact h.restoreHost i alive
  | _ => exact (keeps_apply (k := 0) _ (by simp) (by simp) (by simp) h).1

/-! ## STATE_SYNC -/

theorem mem_snapshotChannels {x : ChannelId × ChannelStatus} :
    x ∈ s.snapshotChannels ↔ s.channelStatus x.1 = x.2 ∧ x.2 ≠ .dead := by
  rw [snapshotChannels, List.mem_filterMap]
  constructor
  · rintro ⟨e, he, heq⟩
    split at heq
    · rename_i halive
      cases heq
      exact ⟨channelStatus_of_get (OrderedMap.get_eq_some_iff.mpr he), halive⟩
    · cases heq
  · rintro ⟨hstatus, halive⟩
    rcases hget : s.channels.get x.1 with _ | ch
    · rw [channelStatus, hget] at hstatus
      exact absurd hstatus.symm halive
    · rw [channelStatus_of_get hget] at hstatus
      refine ⟨(x.1, ch), OrderedMap.get_eq_some_iff.mp hget, ?_⟩
      rw [if_pos (hstatus ▸ halive), hstatus]

theorem mem_snapshotSessions {x : ℕ × SessionStatus} :
    x ∈ s.snapshotSessions ↔
      (∃ hostId, s.sessions.get hostId = some x.1) ∧ s.sessionStatus x.1 = some x.2 ∧
        x.2 ≠ .closed := by
  rw [snapshotSessions, List.mem_filterMap]
  constructor
  · rintro ⟨e, he, heq⟩
    obtain ⟨status, hstatus, heq⟩ := Option.bind_eq_some_iff.mp heq
    split at heq
    · rename_i hopen
      cases heq
      exact ⟨⟨e.1, OrderedMap.get_eq_some_iff.mpr he⟩, hstatus, hopen⟩
    · cases heq
  · rintro ⟨⟨hostId, hi⟩, hstatus, hopen⟩
    refine ⟨(hostId, x.1), OrderedMap.get_eq_some_iff.mp hi, ?_⟩
    rw [hstatus, Option.bind_some, if_pos hopen]

/-- What a new client makes of its first message. -/
theorem channels_getStateSnapshot (v : ClientView) :
    (v.receive s.getStateSnapshot).channels = s.channelStatus := by
  funext c
  refine getD_find? (fun x hx hc ↦ ?_) ?_
  · obtain ⟨hstatus, -⟩ := mem_snapshotChannels.mp hx
    rw [← hc, hstatus]
  · rw [mem_snapshotChannels, and_iff_right rfl]
    exact Classical.em _

theorem knowsSessions_getStateSnapshot (h : s.Hosted) (v : ClientView) :
    s.KnowsSessions (v.receive s.getStateSnapshot) where
  current hostId i hi := by
    obtain ⟨x, hx, -⟩ := Option.map_eq_some_iff.mp (h hostId i hi)
    have hstatus : s.sessionStatus i = some x.status := by rw [sessionStatus, hx, Option.map_some]
    rw [hstatus]
    refine congrArg some (getD_find? (fun y hy hyi ↦ ?_) ?_).symm
    · obtain ⟨-, hlisted, -⟩ := mem_snapshotSessions.mp hy
      rw [hyi, hstatus] at hlisted
      exact (Option.some.inj hlisted).symm
    · rw [mem_snapshotSessions, and_iff_right ⟨hostId, hi⟩, and_iff_right hstatus]
      exact Classical.em _
  unknown i hi := by
    refine getD_find? (fun y hy hyi ↦ ?_) (.inl rfl)
    obtain ⟨-, hlisted, -⟩ := mem_snapshotSessions.mp hy
    rw [hyi, sessionStatus, List.getElem?_eq_none hi] at hlisted
    cases hlisted

/-! ## Clients that stay -/

/-- No client is told of a session that is created, and what a client is told of channels does not
mislead it. -/
def Announces (s : SharedSessionContext) (a : ContextAction) : Prop :=
  ∀ k, s.isConnected k = true → (∀ hostId, a ≠ .createSession hostId) ∧ ∀ c, ¬ s.Misleads k c a

theorem isConnected_apply (hs : s.Bound) (hk : s.isConnected k = true) {a : ContextAction}
    (ha : a ≠ .removeClient k) : (s.apply a).isConnected k = true := by
  cases a with
  | addClient => exact (isConnected_addClient (lt_length_of_isConnected hk)).trans hk
  | removeClient k' =>
    refine ((leaves_removeClient hs k').connected k).mpr ⟨hk, ?_⟩
    rintro rfl
    exact ha rfl
  | _ => exact ((seating_apply hs _ (by simp) (by simp)).isConnected k).trans hk

/-- Whoever is connected now was so before, or is the new client. -/
theorem eq_addClient_of_isConnected (hs : s.Bound) {a : ContextAction}
    (hk : (s.apply a).isConnected k = true) (hnot : s.isConnected k = false) :
    a = .addClient ∧ s.serving = true ∧ k = s.clients.length := by
  cases a with
  | addClient =>
    refine ⟨rfl, ?_⟩
    rw [SharedSessionContext.apply] at hk
    split at hk
    · rename_i hserving
      refine ⟨hserving, ?_⟩
      obtain ⟨x, hx, -⟩ := isConnected_iff.mp hk
      have hlt := (List.getElem?_eq_some_iff.mp hx).1
      rw [List.length_append, List.length_singleton] at hlt
      by_contra hne
      rw [isConnected, List.getElem?_append_left (by omega)] at hk
      exact Bool.false_ne_true (hnot.symm.trans hk)
    · exact absurd hk (by simp [hnot])
  | removeClient k' =>
    have hbefore := (((leaves_removeClient hs k').connected k).mp hk).1
    exact absurd hbefore (by simp [hnot])
  | _ =>
    rw [(seating_apply hs _ (by simp) (by simp)).isConnected] at hk
    exact absurd hk (by simp [hnot])

/-- A client that stays still knows the sessions. -/
theorem KnowsSessions.apply (h : s.KnowsSessions v) (hosted : s.Hosted)
    (hearly : s.serving = false → s.clients = []) (hk : s.isConnected k = true) (a : ContextAction)
    (hcreate : ∀ hostId, a ≠ .createSession hostId) :
    (s.apply a).KnowsSessions (v.hears k (s.broadcasts a)) := by
  cases a with
  | addClient =>
    rw [hears_addClient (lt_length_of_isConnected hk), SharedSessionContext.apply]
    split
    · exact ⟨h.current, h.unknown⟩
    · exact h
  | restoreHost i alive =>
    rw [SharedSessionContext.apply, restoreHost_of_isConnected hearly hk]
    exact h
  | _ => exact (keeps_apply _ hcreate (by simp) (by simp) hosted).2 v h

end SharedSessionContext

/-! ## A hub and its clients -/

/-- The context, and the views of the clients. -/
structure ViewHub where
  ctx : SharedSessionContext
  views : ℕ → ClientView

namespace ViewHub

open Runs

def start (db : Database) : ViewHub := ⟨.opened db, fun _ ↦ .empty⟩

variable (h : ViewHub)

/-- The clients that are connected behind the action have heard its messages. -/
def act (a : ContextAction) : ViewHub where
  ctx := h.ctx.apply a
  views k :=
    if (h.ctx.apply a).isConnected k then (h.views k).hears k (h.ctx.broadcasts a) else h.views k

def step (a : ContextAction) : Option ViewHub := some (h.act a)

/-! ### Exact views -/

/-- The view of a client is the hub. -/
structure Exact (k : ℕ) : Prop where
  channels : ∀ c, (h.views k).channels c = h.ctx.channelStatus c
  sessions : ∀ hostId i, h.ctx.sessions.get hostId = some i →
    h.ctx.sessionStatus i = some ((h.views k).sessions i)

def AllExact : Prop := ∀ k, h.ctx.isConnected k = true → h.Exact k

/-- The invariant of careful actions. -/
structure ViewInv : Prop where
  bound : h.ctx.Bound
  early : h.ctx.serving = false → h.ctx.clients = []
  hosted : h.ctx.Hosted
  channels : ∀ k, h.ctx.isConnected k = true → (h.views k).channels = h.ctx.channelStatus
  sessions : ∀ k, h.ctx.isConnected k = true → h.ctx.KnowsSessions (h.views k)

variable {h} {k : ℕ} {a : ContextAction}

/-! ### Every action -/

theorem viewInv_start (db : Database) : (start db).ViewInv where
  bound _ _ h := nomatch h
  early _ := rfl
  hosted _ _ h := nomatch h
  channels _ h := nomatch h
  sessions _ h := nomatch h

theorem ViewInv.allExact (hi : h.ViewInv) : h.AllExact := fun k hk ↦
  ⟨congrFun (hi.channels k hk), (hi.sessions k hk).current⟩

theorem views_act (hk : (h.ctx.apply a).isConnected k = true) :
    (h.act a).views k = (h.views k).hears k (h.ctx.broadcasts a) := if_pos hk

/-- A new client has the snapshot. -/
theorem views_addClient (hserving : h.ctx.serving = true) :
    (h.views h.ctx.clients.length).hears h.ctx.clients.length (h.ctx.broadcasts .addClient) =
      (h.views h.ctx.clients.length).receive h.ctx.getStateSnapshot := by
  rw [SharedSessionContext.broadcasts, if_pos hserving]
  exact if_pos (decide_eq_true (OrderedSet.mem_singleton.mpr rfl))

/-- **One careful action** keeps the views. -/
theorem ViewInv.act (hi : h.ViewInv) (ha : h.ctx.Announces a) : (h.act a).ViewInv := by
  have hviews : ∀ k, (h.ctx.apply a).isConnected k = true →
      ((h.act a).views k).channels = (h.ctx.apply a).channelStatus ∧
        (h.ctx.apply a).KnowsSessions ((h.act a).views k) := by
    intro k hk
    rw [views_act hk]
    by_cases hbefore : h.ctx.isConnected k = true
    · obtain ⟨hcreate, hmisleads⟩ := ha k hbefore
      have hfollows := SharedSessionContext.follows_apply hi.bound hi.early hbefore a (h.views k)
        (hi.channels k hbefore)
      exact ⟨funext fun c ↦ (hfollows c).mpr (hmisleads c),
        (hi.sessions k hbefore).apply hi.hosted hi.early hbefore a hcreate⟩
    · rw [Bool.not_eq_true] at hbefore
      obtain ⟨rfl, hserving, rfl⟩ :=
        SharedSessionContext.eq_addClient_of_isConnected hi.bound hk hbefore
      have hknows := SharedSessionContext.knowsSessions_getStateSnapshot hi.hosted
        (h.views h.ctx.clients.length)
      rw [views_addClient hserving, SharedSessionContext.channels_getStateSnapshot,
        SharedSessionContext.apply, if_pos hserving]
      exact ⟨rfl, hknows.current, hknows.unknown⟩
  exact ⟨SharedSessionContext.bound_apply hi.bound a,
    SharedSessionContext.early_apply hi.bound hi.early a, hi.hosted.apply a,
    fun k hk ↦ (hviews k hk).1, fun k hk ↦ (hviews k hk).2⟩

/-- **Whatever is not careful shows**, in the view of a client. -/
theorem ViewInv.announces (hi : h.ViewInv) (hexact : (h.act a).AllExact) : h.ctx.Announces a := by
  intro k hk
  refine ⟨?_, fun c hmisleads ↦ ?_⟩
  · rintro hostId rfl
    have hstays : (h.ctx.apply (.createSession hostId)).isConnected k = true := hk
    have hview := (hexact k hstays).sessions hostId h.ctx.sessionStates.length (by
      change (h.ctx.sessions.set _ _).get _ = _
      rw [OrderedMap.get_set, if_pos rfl])
    have hstarting : (h.act (.createSession hostId)).ctx.sessionStatus h.ctx.sessionStates.length =
        some .starting := by
      change ((h.ctx.sessionStates ++ [_])[h.ctx.sessionStates.length]?).map _ = _
      rw [List.getElem?_concat_length]
      rfl
    rw [hstarting, views_act hstays] at hview
    -- A session that is still to come is closed in the view.
    have hclosed := (hi.sessions k hk).unknown _ (Nat.le_refl _)
    exact nomatch (Option.some.inj hview).trans hclosed
  · by_cases ha : a = .removeClient k
    · subst ha
      exact hmisleads
    · have hstays := SharedSessionContext.isConnected_apply hi.bound hk ha
      have hview := (hexact k hstays).channels c
      rw [views_act hstays] at hview
      exact (SharedSessionContext.follows_apply hi.bound hi.early hk a (h.views k)
        (hi.channels k hk) c).mp hview hmisleads

end ViewHub

namespace SessionHub

open Runs

/-- **The views of the clients are exact** behind every action of a run, whether they are in a
channel or not, if and only if every action is careful. -/
theorem viewsExact_iff_careful {db : Database} {es : List Event} :
    ∀ h, run step (start db) es = some h →
      (Along ViewHub.step (fun _ _ t ↦ t.AllExact) (.start db) h.journal.entries ↔
        h.Issued SharedSessionContext.Announces) := by
  intro h _
  have hctx : Along ViewHub.step (fun v a _ ↦ v.ctx.Announces a) (.start db) h.journal.entries ↔
      Along (fun s a ↦ some (SharedSessionContext.apply s a)) (fun s a _ ↦ s.Announces a)
        (.opened db) h.journal.entries :=
    along_comap ViewHub.ctx (P := fun s a _ ↦ s.Announces a) fun _ _ ↦ rfl
  refine Iff.trans ?_ hctx
  refine along_congr_of_keeps ViewHub.ViewInv (fun v a t hv hstep ↦ ?_) (ViewHub.viewInv_start db)
  cases hstep
  exact ⟨⟨hv.announces, fun ha ↦ (hv.act ha).allExact⟩, hv.act⟩

theorem viewsExact_iff_careful_spawning :
    ∃ h, run step (start (.ofHost "desk" .daemon)) spawning = some h ∧
      (Along ViewHub.step (fun _ _ t ↦ t.AllExact) (.start (.ofHost "desk" .daemon))
          h.journal.entries ↔
        h.Issued SharedSessionContext.Announces) :=
  ⟨_, rfl, @viewsExact_iff_careful _ spawning _ rfl⟩

/-- Two clients, of which one has a channel. -/
def watching : List Event :=
  [.startup, .connect, .connect, .spawn 0 "desk" false false, .resume 0 .settled,
    .resume 0 .settled, .resume 1 (.connected false), .resume 1 (.channelStates []),
    .resume 0 .settled, .resume 0 (.spawnOk "c")]

/-- The other client is not told that the shell has exited. -/
theorem watcher_misled :
    ∃ h t, run step (start (.ofHost "desk" .daemon)) (watching ++ [.channelExit 0 "c"]) = some h ∧
      run ViewHub.step (.start (.ofHost "desk" .daemon)) h.journal.entries = some t ∧
      h.ctx.isConnected 1 = true ∧ h.ctx.channelStatus "c" = .dead ∧
      (t.views 1).channels "c" = .live ∧
      ¬ Along ViewHub.step (fun _ _ t ↦ t.AllExact) (.start (.ofHost "desk" .daemon))
        h.journal.entries := by
  refine ⟨_, _, rfl, rfl, rfl, rfl, by decide, fun hexact ↦ ?_⟩
  have hlast := run_invariant_along ViewHub.AllExact (fun _ _ _ _ ht _ ↦ ht)
    (ViewHub.viewInv_start _).allExact hexact rfl
  have hview := (hlast 1 rfl).channels "c"
  exact absurd hview (by decide)

end SessionHub

end Lasterm.Hub
