import Lasterm.Hub.Dispatch
import Mathlib.Algebra.Order.Monoid.Unbundled.WithTop
import Mathlib.Order.Lattice.Nat

/-!
# The channels of a page

Model of `stores/channels.ts`: the list of channels that a page shows for a host, which comes from
REST snapshots and from the messages STATE_SYNC, CHANNEL_STATE and CHANNEL_CREATED. The two arrive
in different orders, and three buffers are to reconcile them: `pendingStatuses` for statuses of
channels that are not in the list, `lastSyncIds` for the channels that the hub knew at the last
STATE_SYNC, and `wsAddedDuringFetch` for channels that are younger than a snapshot.

The hub is a state for each moment. Every message and every snapshot tells the page about channels
at a moment, and the status that the list should show is the one at the latest of these moments.
`converges_of_careful` says when it does. It does not when a snapshot comes behind a newer message
about a channel of the list, or when the ids of a STATE_SYNC that the list has already been compared
with are kept for the next snapshot.

## The buffers while a fetch is under way

The invariant is about all times, not only about those at which no fetch is under way (`Inv`). The
list shows what is *due*: all that was told before the latest fetch was called, and all that the
store has taken in since. What it passes over meanwhile, as a superseded snapshot, is made good by
the answer to the latest fetch, or is missing when that fetch fails. And of each channel that is not
in the list, the buffer holds the latest message, unless that came before the call or the last
STATE_SYNC lacks the channel (`Buffers`). So an answer may be older than such a message.

Of a channel its status and exit code are kept. Groups and titles are left out.
-/

namespace Lasterm.Web

open Runs
open Hub (ChannelStatus)

/-! ## The hub -/

structure Channel where
  id : String
  status : ChannelStatus
  exitCode : Option ℤ
  deriving DecidableEq

/-- A channel that is not tracked is in the database only. -/
structure HubChannel extends Channel where
  hostId : String
  tracked : Bool

structure HubState where
  channels : List HubChannel
  nodup : (channels.map fun c ↦ c.id).Nodup
  dead_of_untracked : ∀ c ∈ channels, c.tracked = false → c.status = .dead

namespace HubState

variable (h : HubState)

def find (id : String) : Option HubChannel := h.channels.find? fun c ↦ c.id = id

def status (id : String) : Option ChannelStatus := (h.find id).map fun c ↦ c.status

/-- `GET /api/channels`. -/
def rows (hostId : String) : List Channel :=
  (h.channels.filter fun c ↦ c.hostId = hostId).map HubChannel.toChannel

/-- The channels of STATE_SYNC. -/
def stateSync : List Channel := (h.channels.filter HubChannel.tracked).map HubChannel.toChannel

variable {h} {hostId : String}

theorem mem_of_find {c : HubChannel} {id : String} (hc : h.find id = some c) :
    c ∈ h.channels ∧ c.id = id := by
  have hfind : h.channels.find? (fun c' : HubChannel ↦ c'.id = id) = some c := hc
  exact ⟨List.mem_of_find?_eq_some hfind, by simpa using List.find?_some hfind⟩

theorem find_of_mem {c : HubChannel} (hc : c ∈ h.channels) : h.find c.id = some c := by
  have hsome : (h.find c.id).isSome := List.find?_isSome.mpr ⟨c, hc, decide_eq_true rfl⟩
  obtain ⟨d, hd⟩ := Option.isSome_iff_exists.mp hsome
  obtain ⟨hmem, hid⟩ := mem_of_find hd
  rw [hd, List.inj_on_of_nodup_map h.nodup hmem hc hid]

theorem nodup_rows : ((h.rows hostId).map Channel.id).Nodup := by
  rw [rows, List.map_map]
  exact h.nodup.sublist (List.filter_sublist.map _)

end HubState

/-! ## The store -/

structure PendingStatus where
  status : ChannelStatus
  exitCode : Option ℤ

def Channel.pending (c : Channel) : PendingStatus := ⟨c.status, c.exitCode⟩

/-- An exit code is only overwritten by another one. -/
def Channel.withStatus (c : Channel) (p : PendingStatus) : Channel :=
  { c with status := p.status, exitCode := p.exitCode <|> c.exitCode }

structure ChannelStore where
  channels : List Channel
  activeHostId : Option String
  selectedChannelId : Option String
  loading : Bool
  error : Option String
  lastSyncIds : Option (List String)
  pendingStatuses : OrderedMap String PendingStatus
  fetchGeneration : ℕ
  wsAddedDuringFetch : OrderedMap ℕ (List String)

namespace ChannelStore

def new : ChannelStore := ⟨[], none, none, false, none, none, .empty, 0, .empty⟩

variable (s : ChannelStore)

/-- `fetchChannels`, up to its requests. -/
def startFetch (hostId : String) : ChannelStore :=
  let next : ChannelStore :=
    { s with
      fetchGeneration := s.fetchGeneration + 1
      loading := true
      error := none
      activeHostId := some hostId
      wsAddedDuringFetch := s.wsAddedDuringFetch.set (s.fetchGeneration + 1) [] }
  if s.activeHostId ≠ some hostId ∨ s.channels = [] then
    { next with channels := [], pendingStatuses := .empty, lastSyncIds := none }
  else next

/-- The channels that were added while the fetch was under way, and are not in its snapshot. -/
def wsChannelsToKeep (generation : ℕ) (data : List Channel) : List Channel :=
  s.channels.filter fun c ↦
    c.id ∈ (s.wsAddedDuringFetch.get generation).getD [] && c.id ∉ data.map Channel.id

def applyPending (c : Channel) : Channel :=
  match s.pendingStatuses.get c.id with
  | some p => c.withStatus p
  | none => c

def isAbsent (id : String) : Bool := s.lastSyncIds.any fun ids ↦ id ∉ ids

def markAbsent (c : Channel) : Channel :=
  if c.status ≠ .dead ∧ s.isAbsent c.id = true then { c with status := .dead } else c

def merged (generation : ℕ) (data : List Channel) : List Channel :=
  (data ++ s.wsChannelsToKeep generation data).map fun c ↦ s.markAbsent (s.applyPending c)

/-- The rest of `fetchChannels`, when the answers are there. -/
def finishFetch (generation : ℕ) (data : List Channel) : ChannelStore :=
  let next := { s with wsAddedDuringFetch := s.wsAddedDuringFetch.delete generation }
  if s.fetchGeneration ≠ generation then next
  else
    { next with
      channels := s.merged generation data
      pendingStatuses := .empty
      lastSyncIds := none
      selectedChannelId := s.selectedChannelId.filter fun id ↦
        (s.merged generation data).any fun c ↦ c.id = id
      loading := false }

def failFetch (generation : ℕ) (message : String) : ChannelStore :=
  let next := { s with wsAddedDuringFetch := s.wsAddedDuringFetch.delete generation }
  if s.fetchGeneration ≠ generation then next
  else { next with error := some message, loading := false }

def updateChannelStatus (id : String) (p : PendingStatus) : ChannelStore :=
  if s.channels.any fun c ↦ c.id = id then
    { s with
      channels := s.channels.modify (s.channels.findIdx fun c ↦ c.id = id) (·.withStatus p) }
  else { s with pendingStatuses := s.pendingStatuses.set id p }

/-- A channel of the list, after a STATE_SYNC. -/
def syncChannel (sync : List Channel) (c : Channel) : Channel :=
  match sync.find? fun sc ↦ sc.id = c.id with
  | some sc => if c.status ≠ sc.status then c.withStatus sc.pending else c
  | none => if c.status ≠ .dead then { c with status := .dead } else c

def bufferStatuses (sync : List Channel) : OrderedMap String PendingStatus :=
  sync.foldl (fun pending sc ↦ pending.set sc.id sc.pending) s.pendingStatuses

def applyStateSync (sync : List Channel) : ChannelStore :=
  { s with
    lastSyncIds := some (sync.map Channel.id)
    channels := s.channels.map (syncChannel sync)
    pendingStatuses := s.bufferStatuses
      (sync.filter fun sc ↦ sc.id ∉ s.channels.map Channel.id) }

def handleChannelCreated (msg : HubChannel) : ChannelStore :=
  if s.activeHostId ≠ some msg.hostId then s
  else
    let next := { s with pendingStatuses := s.pendingStatuses.delete msg.id }
    if s.channels.any fun c ↦ c.id = msg.id then next
    else
      { next with
        channels := s.channels ++ [⟨msg.id, msg.status, none⟩]
        wsAddedDuringFetch := s.wsAddedDuringFetch.mapValues fun _ added ↦ added ++ [msg.id] }

/-- The channel of a CHANNEL_CREATED is added. -/
def Adds (msg : HubChannel) : Prop :=
  s.activeHostId = some msg.hostId ∧ ∀ c ∈ s.channels, c.id ≠ msg.id

instance (msg : HubChannel) : Decidable (s.Adds msg) := inferInstanceAs (Decidable (_ ∧ _))

end ChannelStore

/-! ## The page -/

/-- `inFlight` has the generations of the fetches under way, each with the moment of the last
message before its requests. -/
structure ChannelPage where
  store : ChannelStore
  inFlight : List (ℕ × ℕ)
  /-- When the store last took in a message about a channel. -/
  heard : String → WithBot ℕ
  /-- When the page was last told of a channel otherwise: by a snapshot, or by a CHANNEL_CREATED
  that adds no channel. -/
  seen : String → WithBot ℕ
  /-- What the list has to show: what was told before the latest fetch, and what the store took in
  since. -/
  due : String → WithBot ℕ
  lastMessage : ℕ

/-- `moment` is when the hub sent the message or took the snapshot. -/
inductive ChannelEvent where
  | fetchChannels
  | respond (generation moment : ℕ)
  | failFetch (generation : ℕ) (message : String)
  | stateSync (moment : ℕ)
  | channelState (moment : ℕ) (id : String)
  | channelCreated (moment : ℕ) (id : String)

/-- A page is told of channels at a moment. -/
def tell (moment : ℕ) (about : String → Bool) (told : String → WithBot ℕ) (id : String) :
    WithBot ℕ :=
  if about id then max moment (told id) else told id

namespace ChannelPage

def start : ChannelPage := ⟨.new, [], ⊥, ⊥, ⊥, 0⟩

variable (hub : ℕ → HubState) (hostId : String) (s : ChannelPage)

/-- When the page was last told of a channel. -/
def told (id : String) : WithBot ℕ := max (s.heard id) (s.seen id)

def LatestInFlight : Prop := ∃ f ∈ s.inFlight, f.1 = s.store.fetchGeneration

instance : Decidable s.LatestInFlight :=
  inferInstanceAs (Decidable (∃ f ∈ s.inFlight, f.1 = s.store.fetchGeneration))

/-- While the latest fetch is under way, what the store passes over is left to its snapshot. -/
def settle : ChannelPage := if s.LatestInFlight then s else { s with due := s.told }

/-- Messages come in the order of the hub. A snapshot is of a moment after the request. A STATE_SYNC
tells of every channel: what it lacks is dead. -/
def receive : ChannelEvent → Option ChannelPage
  | .fetchChannels =>
    some { s with
      store := s.store.startFetch hostId
      inFlight := s.inFlight ++ [(s.store.fetchGeneration + 1, s.lastMessage)] }
  | .respond generation moment =>
    if s.inFlight.any fun f ↦ f.1 = generation && f.2 ≤ moment then
      some { s with
        store := s.store.finishFetch generation ((hub moment).rows hostId)
        inFlight := s.inFlight.filter fun f ↦ f.1 ≠ generation
        seen := tell moment (· ∈ ((hub moment).rows hostId).map Channel.id) s.seen }
    else none
  | .failFetch generation message =>
    if s.inFlight.any fun f ↦ f.1 = generation then
      some { s with
        store := s.store.failFetch generation message
        inFlight := s.inFlight.filter fun f ↦ f.1 ≠ generation }
    else none
  | .stateSync moment =>
    if s.lastMessage < moment then
      some { s with
        store := s.store.applyStateSync (hub moment).stateSync
        heard := tell moment (fun _ ↦ true) s.heard
        due := tell moment (fun _ ↦ true) s.due
        lastMessage := moment }
    else none
  | .channelState moment id =>
    if s.lastMessage < moment then
      ((hub moment).find id).map fun c ↦
        { s with
          store := s.store.updateChannelStatus id c.pending
          heard := tell moment (· = id) s.heard
          due := tell moment (· = id) s.due
          lastMessage := moment }
    else none
  | .channelCreated moment id =>
    if s.lastMessage < moment then
      ((hub moment).find id).map fun c ↦
        let next := { s with store := s.store.handleChannelCreated c, lastMessage := moment }
        if s.store.Adds c then
          { next with heard := tell moment (· = id) s.heard, due := tell moment (· = id) s.due }
        else { next with seen := tell moment (· = id) s.seen }
    else none

def step (e : ChannelEvent) : Option ChannelPage := (s.receive hub hostId e).map settle

/-- The status of a channel when the page was told of it. -/
def newest (told : WithBot ℕ) (id : String) : Option ChannelStatus :=
  told.recBotCoe none fun moment ↦ some (((hub moment).status id).getD .dead)

def IsCurrent (told : String → WithBot ℕ) (channels : List Channel) : Prop :=
  ∀ c ∈ channels, newest hub (told c.id) c.id = some c.status

/-- While no fetch is under way, the list shows the latest statuses. -/
def Converged : Prop := s.inFlight = [] → IsCurrent hub s.told s.store.channels

/-! ## When it does -/

/-- What is told at a later moment, if it is later, is nothing new. -/
def NoNews (earlier later : WithBot ℕ) (id : String) : Prop :=
  earlier < later → newest hub later id = newest hub earlier id

instance (earlier later : WithBot ℕ) (id : String) : Decidable (NoNews hub earlier later id) :=
  inferInstanceAs (Decidable (_ → _))

/-- What `merged` makes of a row of a snapshot is the latest: of a channel that the last STATE_SYNC
lacks, that it is dead; of one with a buffered status, this one; and otherwise what the snapshot
says. Of a channel that is not in the list no message can be later then. -/
def RowIsNewest (moment : ℕ) (id : String) : Prop :=
  if s.store.isAbsent id then newest hub (max moment (s.told id)) id = some .dead
  else if (s.store.pendingStatuses.get id).isSome then
    NoNews hub (s.heard id) (max moment (s.seen id)) id
  else if id ∈ s.store.channels.map Channel.id then NoNews hub moment (s.told id) id
  else NoNews hub moment (s.seen id) id

/-- The same for a channel that was added meanwhile and is not in the snapshot. -/
def KeptIsNewest (id : String) : Prop :=
  if s.store.isAbsent id then newest hub (s.told id) id = some .dead
  else NoNews hub (s.due id) (s.told id) id

/-- Under `Careful` nothing is news that comes late or is passed over. -/
def Careful : ChannelEvent → Prop
  | .fetchChannels => True
  | .respond generation moment =>
    let data := (hub moment).rows hostId
    if s.store.fetchGeneration = generation then
      (∀ row ∈ data, s.RowIsNewest hub moment row.id) ∧
      ∀ c ∈ s.store.wsChannelsToKeep generation data, s.KeptIsNewest hub c.id
    else
      ¬s.LatestInFlight → ∀ row ∈ data, row.id ∈ s.store.channels.map Channel.id →
        NoNews hub (s.told row.id) moment row.id
  | .failFetch generation _ =>
    s.store.fetchGeneration = generation →
      ∀ c ∈ s.store.channels, NoNews hub (s.due c.id) (s.told c.id) c.id
  | .stateSync moment => ∀ c ∈ s.store.channels, NoNews hub moment (s.due c.id) c.id
  | .channelState moment id =>
    id ∈ s.store.channels.map Channel.id → NoNews hub moment (s.due id) id
  | .channelCreated moment id =>
    ∀ known ∈ (hub moment).find id,
      if s.store.Adds known then NoNews hub moment (s.due id) id
      else ¬s.LatestInFlight → id ∈ s.store.channels.map Channel.id →
        NoNews hub (s.told id) moment id

variable {hub hostId} {s} {s' : ChannelPage} {earlier later : WithBot ℕ} {moment : ℕ} {id : String}
  {about : String → Bool} {f : String → WithBot ℕ}

/-! ### Moments -/

theorem tell_of_false (h : about id = false) : tell moment about f id = f id :=
  if_neg (Bool.eq_false_iff.mp h)

theorem tell_of_true (h : about id = true) :
    tell moment about f id = max (moment : WithBot ℕ) (f id) := if_pos h

theorem le_tell (moment : ℕ) (about : String → Bool) (f : String → WithBot ℕ) (id : String) :
    f id ≤ tell moment about f id := by
  rw [tell]
  split
  · exact le_max_right _ _
  · exact le_refl _

theorem tell_le (h : f id ≤ moment) : tell moment about f id ≤ moment := by
  rw [tell]
  split
  · exact max_le (le_refl _) h
  · exact h

theorem tell_mono {g : String → WithBot ℕ} (h : f id ≤ g id) :
    tell moment about f id ≤ tell moment about g id := by
  rw [tell, tell]
  split
  · exact max_le_max (le_refl _) h
  · exact h

/-- What comes late and is no news changes nothing. -/
theorem newest_max (h : NoNews hub earlier later id) :
    newest hub (max earlier later) id = newest hub earlier id := by
  rcases le_or_gt later earlier with hle | hlt
  · rw [max_eq_left hle]
  · rw [max_eq_right hlt.le, h hlt]

/-- What was told before a moment is nothing to what is told then. -/
theorem newest_tell (habout : about id = true) (hnews : NoNews hub moment (f id) id) :
    newest hub (tell moment about f id) id = some (((hub moment).status id).getD .dead) := by
  rw [tell_of_true habout, newest_max hnews]
  rfl

theorem noNews_of_le (h : later ≤ earlier) : NoNews hub earlier later id := fun hlt ↦
  absurd hlt (not_lt_of_ge h)

/-! ### Single messages -/

theorem modify_findIdx {l : List Channel} (f : Channel → Channel) (hl : (l.map Channel.id).Nodup) :
    (l.modify (l.findIdx fun c ↦ c.id = id) f) = l.map fun c ↦ if c.id = id then f c else c := by
  induction l with
  | nil => rfl
  | cons c l ih =>
    rw [List.map_cons, List.nodup_cons] at hl
    rw [List.findIdx_cons, List.map_cons]
    by_cases hc : c.id = id
    · have hrest : (l.map fun d ↦ if d.id = id then f d else d) = l := by
        refine (List.map_congr_left fun d hd ↦ if_neg fun hid ↦ ?_).trans (List.map_id l)
        exact hl.1 (hc.trans hid.symm ▸ List.mem_map_of_mem hd)
      rw [if_pos hc, hrest, decide_eq_true hc]
      rfl
    · rw [if_neg hc, decide_eq_false hc, ← ih hl.2]
      rfl

theorem map_id_of_forall {l : List Channel} {f : Channel → Channel} (h : ∀ c, (f c).id = c.id) :
    (l.map f).map Channel.id = l.map Channel.id := by
  rw [List.map_map]
  exact List.map_congr_left fun c _ ↦ h c

theorem id_syncChannel (sync : List Channel) (c : Channel) :
    (ChannelStore.syncChannel sync c).id = c.id := by
  rw [ChannelStore.syncChannel]
  split
  · split <;> rfl
  · split <;> rfl

theorem status_of_find?_eq_some {h : HubState} {sc : Channel}
    (hsc : (h.stateSync.find? fun sc ↦ sc.id = id) = some sc) : h.status id = some sc.status := by
  have hid : sc.id = id := by simpa using List.find?_some hsc
  obtain ⟨known, hknown, rfl⟩ := List.mem_map.mp (List.mem_of_find?_eq_some hsc)
  rw [HubState.status, ← hid, HubState.find_of_mem (List.mem_filter.mp hknown).1]
  rfl

theorem status_of_find?_eq_none {h : HubState}
    (hnone : (h.stateSync.find? fun sc ↦ sc.id = id) = none) :
    (h.status id).getD .dead = .dead := by
  rw [HubState.status]
  cases hfind : h.find id with
  | none => rfl
  | some known =>
    obtain ⟨hmem, hid⟩ := HubState.mem_of_find hfind
    refine h.dead_of_untracked known hmem (Bool.eq_false_iff.mpr fun htracked ↦ ?_)
    have hsync : known.toChannel ∈ h.stateSync :=
      List.mem_map_of_mem (List.mem_filter.mpr ⟨hmem, htracked⟩)
    exact List.find?_eq_none.mp hnone _ hsync (decide_eq_true hid)

/-- What is not in a STATE_SYNC is dead. -/
theorem status_syncChannel (h : HubState) (c : Channel) :
    (ChannelStore.syncChannel h.stateSync c).status = (h.status c.id).getD .dead := by
  rw [ChannelStore.syncChannel]
  cases hfind : h.stateSync.find? fun sc ↦ sc.id = c.id with
  | some sc =>
    rw [status_of_find?_eq_some hfind]
    dsimp only [Option.getD_some]
    split
    · rfl
    · rename_i hsame
      exact not_not.mp hsame
  | none =>
    rw [status_of_find?_eq_none hfind]
    dsimp only
    split
    · rfl
    · rename_i hdead
      exact not_not.mp hdead

/-! ### Snapshots -/

section Buffers

variable {t : ChannelStore} {c : Channel}

theorem applyPending_of_eq_some {p : PendingStatus} (h : t.pendingStatuses.get c.id = some p) :
    t.applyPending c = c.withStatus p := by
  rw [ChannelStore.applyPending, h]

theorem applyPending_of_eq_none (h : t.pendingStatuses.get c.id = none) : t.applyPending c = c := by
  rw [ChannelStore.applyPending, h]

theorem id_applyPending (t : ChannelStore) (c : Channel) : (t.applyPending c).id = c.id := by
  cases hpending : t.pendingStatuses.get c.id with
  | some p =>
    rw [applyPending_of_eq_some hpending]
    rfl
  | none => rw [applyPending_of_eq_none hpending]

theorem id_markAbsent (t : ChannelStore) (c : Channel) : (t.markAbsent c).id = c.id := by
  rw [ChannelStore.markAbsent]
  split <;> rfl

theorem status_markAbsent_of_absent (h : t.isAbsent c.id = true) :
    (t.markAbsent c).status = .dead := by
  rw [ChannelStore.markAbsent]
  split
  · rfl
  · rename_i hnot
    exact not_not.mp fun hne ↦ hnot ⟨hne, h⟩

theorem markAbsent_of_not_absent (h : t.isAbsent c.id = false) : t.markAbsent c = c :=
  if_neg fun habsent ↦ Bool.false_ne_true (h.symm.trans habsent.2)

theorem id_reconciled (t : ChannelStore) (c : Channel) :
    (t.markAbsent (t.applyPending c)).id = c.id :=
  (id_markAbsent t _).trans (id_applyPending t c)

end Buffers

theorem nodup_merged {t : ChannelStore} {generation : ℕ} {data : List Channel}
    (ht : (t.channels.map Channel.id).Nodup) (hdata : (data.map Channel.id).Nodup) :
    ((t.merged generation data).map Channel.id).Nodup := by
  rw [ChannelStore.merged, map_id_of_forall (id_reconciled t), List.map_append]
  refine List.nodup_append.mpr ⟨hdata, ht.sublist (List.filter_sublist.map _), ?_⟩
  rintro id hid id' hid' rfl
  obtain ⟨c, hc, rfl⟩ := List.mem_map.mp hid'
  have hkeep := (Bool.and_eq_true_iff.mp (List.mem_filter.mp hc).2).2
  exact of_decide_eq_true hkeep hid

/-! ### The operations of the store -/

section Store

variable {t : ChannelStore} {p : PendingStatus} {known : HubChannel}

theorem any_id_iff {channels : List Channel} :
    (channels.any fun c ↦ c.id = id) = true ↔ id ∈ channels.map Channel.id := by
  simp only [List.any_eq_true, decide_eq_true_eq, List.mem_map]

theorem startFetch_cases (t : ChannelStore) (hostId : String) :
    (t.startFetch hostId).fetchGeneration = t.fetchGeneration + 1 ∧
      (((t.startFetch hostId).channels = [] ∧ (t.startFetch hostId).pendingStatuses = .empty) ∨
        ((t.startFetch hostId).channels = t.channels ∧
          (t.startFetch hostId).pendingStatuses = t.pendingStatuses ∧
          (t.startFetch hostId).isAbsent = t.isAbsent)) := by
  rw [ChannelStore.startFetch]
  dsimp only
  split
  · exact ⟨rfl, .inl ⟨rfl, rfl⟩⟩
  · exact ⟨rfl, .inr ⟨rfl, rfl, rfl⟩⟩

theorem updateChannelStatus_of_mem (hnodup : (t.channels.map Channel.id).Nodup)
    (h : id ∈ t.channels.map Channel.id) : t.updateChannelStatus id p =
      { t with channels := t.channels.map fun c ↦ if c.id = id then c.withStatus p else c } := by
  rw [ChannelStore.updateChannelStatus, if_pos (any_id_iff.mpr h), modify_findIdx _ hnodup]

theorem updateChannelStatus_of_not_mem (h : id ∉ t.channels.map Channel.id) :
    t.updateChannelStatus id p = { t with pendingStatuses := t.pendingStatuses.set id p } := by
  rw [ChannelStore.updateChannelStatus, if_neg (mt any_id_iff.mp h)]

theorem handleChannelCreated_of_adds (h : t.Adds known) : t.handleChannelCreated known =
    { t with
      pendingStatuses := t.pendingStatuses.delete known.id
      channels := t.channels ++ [⟨known.id, known.status, none⟩]
      wsAddedDuringFetch := t.wsAddedDuringFetch.mapValues fun _ added ↦ added ++ [known.id] } := by
  have hnot : ¬(t.channels.any fun c ↦ c.id = known.id) = true := by simpa using h.2
  rw [ChannelStore.handleChannelCreated, if_neg (not_not.mpr h.1)]
  exact if_neg hnot

theorem handleChannelCreated_of_not_adds (h : ¬t.Adds known) :
    t.handleChannelCreated known = t ∨ known.id ∈ t.channels.map Channel.id ∧
      t.handleChannelCreated known =
        { t with pendingStatuses := t.pendingStatuses.delete known.id } := by
  rw [ChannelStore.handleChannelCreated]
  by_cases hhost : t.activeHostId = some known.hostId
  · have hlisted : (t.channels.any fun c ↦ c.id = known.id) = true := by
      by_contra hnot
      exact h ⟨hhost, by simpa using hnot⟩
    rw [if_neg (not_not.mpr hhost)]
    exact .inr ⟨any_id_iff.mp hlisted, if_pos hlisted⟩
  · exact .inl (if_pos hhost)

/-- What a STATE_SYNC does to the buffer. -/
theorem get_foldl_set (sync : List Channel) (pending : OrderedMap String PendingStatus)
    (id : String) :
    (∃ sc ∈ sync, sc.id = id ∧ (sync.foldl (fun pending sc ↦ pending.set sc.id sc.pending)
        pending).get id = some sc.pending) ∨
      (∀ sc ∈ sync, sc.id ≠ id) ∧ (sync.foldl (fun pending sc ↦ pending.set sc.id sc.pending)
        pending).get id = pending.get id := by
  induction sync generalizing pending with
  | nil => exact .inr ⟨fun _ h ↦ absurd h List.not_mem_nil, rfl⟩
  | cons sc sync ih =>
    rw [List.foldl_cons]
    rcases ih (pending.set sc.id sc.pending) with ⟨later, hmem, hid, hget⟩ | ⟨hne, hget⟩
    · exact .inl ⟨later, List.mem_cons_of_mem _ hmem, hid, hget⟩
    · by_cases hid : sc.id = id
      · refine .inl ⟨sc, List.mem_cons_self, hid, ?_⟩
        rw [hget, ← hid, OrderedMap.get_set_self]
      · refine .inr ⟨List.forall_mem_cons.mpr ⟨hid, hne⟩, ?_⟩
        rw [hget, OrderedMap.get_set_of_ne _ _ hid]

end Store

/-! ## The invariant -/

/-- The buffers know the latest message about a channel that is not in the list and that the last
STATE_SYNC has: it is buffered if it came since the latest fetch was called. -/
structure Buffers (hub : ℕ → HubState) (s : ChannelPage) : Prop where
  nodup : (s.store.channels.map Channel.id).Nodup
  unlisted : ∀ id p, s.store.pendingStatuses.get id = some p →
    id ∉ s.store.channels.map Channel.id
  latest : ∀ id p, s.store.pendingStatuses.get id = some p → s.store.isAbsent id = false →
    newest hub (s.heard id) id = some p.status
  since : ∀ f ∈ s.inFlight, f.1 = s.store.fetchGeneration →
    ∀ id ∉ s.store.channels.map Channel.id, s.store.isAbsent id = false →
      s.store.pendingStatuses.get id = none → s.heard id ≤ f.2
  heard_le : ∀ id, s.heard id ≤ s.lastMessage
  generations : ∀ f ∈ s.inFlight, f.1 ≤ s.store.fetchGeneration
  due_le : ∀ id, s.due id ≤ s.told id

structure Inv (hub : ℕ → HubState) (s : ChannelPage) : Prop extends Buffers hub s where
  current : IsCurrent hub s.due s.store.channels
  settled : ¬s.LatestInFlight → s.due = s.told

theorem Inv.start : Inv hub start where
  nodup := List.nodup_nil
  unlisted _ _ h := by cases h
  latest _ _ h := by cases h
  since _ h := by cases h
  heard_le _ := bot_le
  generations _ h := by cases h
  due_le _ := bot_le
  current _ h := by cases h
  settled _ := rfl

theorem Inv.converged (h : Inv hub s) : s.Converged hub := by
  intro hquiet
  have hover : ¬s.LatestInFlight := by
    rintro ⟨f, hf, -⟩
    rw [hquiet] at hf
    cases hf
  exact h.settled hover ▸ h.current

theorem Inv.settle (h : Buffers hub s)
    (hflight : s.LatestInFlight → IsCurrent hub s.due s.store.channels)
    (hquiet : ¬s.LatestInFlight → IsCurrent hub s.told s.store.channels) : Inv hub s.settle := by
  rw [ChannelPage.settle]
  split
  · rename_i hlatest
    exact ⟨h, hflight hlatest, fun hnot ↦ absurd hlatest hnot⟩
  · rename_i hnot
    exact ⟨{ h with due_le := fun _ ↦ le_refl _ }, hquiet hnot, fun _ ↦ rfl⟩

/-- An event that leaves the buffers and the list alone. -/
theorem Buffers.quiet (h : Buffers hub s) (hchannels : s'.store.channels = s.store.channels)
    (hget : ∀ id, s'.store.pendingStatuses.get id = s.store.pendingStatuses.get id)
    (hsync : s'.store.lastSyncIds = s.store.lastSyncIds)
    (hgeneration : s'.store.fetchGeneration = s.store.fetchGeneration)
    (hinFlight : ∀ f ∈ s'.inFlight, f ∈ s.inFlight) (hheard : s'.heard = s.heard)
    (hseen : ∀ id, s.seen id ≤ s'.seen id) (hdue : s'.due = s.due)
    (hlast : s.lastMessage ≤ s'.lastMessage) : Buffers hub s' := by
  have habsent : s'.store.isAbsent = s.store.isAbsent := by
    funext id
    rw [ChannelStore.isAbsent, ChannelStore.isAbsent, hsync]
  constructor
  · exact hchannels ▸ h.nodup
  · intro id p hp
    exact hchannels ▸ h.unlisted id p (hget id ▸ hp)
  · intro id p hp
    rw [habsent, hheard]
    exact h.latest id p (hget id ▸ hp)
  · intro f hf
    rw [hgeneration, hchannels, habsent, hheard]
    intro heq id hid hpresent hnone
    exact h.since f (hinFlight f hf) heq id hid hpresent (hget id ▸ hnone)
  · intro id
    rw [hheard]
    exact (h.heard_le id).trans (WithBot.coe_le_coe.mpr hlast)
  · intro f hf
    rw [hgeneration]
    exact h.generations f (hinFlight f hf)
  · intro id
    rw [hdue, ChannelPage.told, hheard]
    exact (h.due_le id).trans (max_le_max (le_refl _) (hseen id))

theorem buffers_fetch (h : Buffers hub s) : Buffers hub { s with
    store := s.store.startFetch hostId
    inFlight := s.inFlight ++ [(s.store.fetchGeneration + 1, s.lastMessage)] } := by
  obtain ⟨hgeneration, hcases⟩ := startFetch_cases s.store hostId
  refine ⟨?_, ?_, ?_, ?_, h.heard_le, ?_, h.due_le⟩
  · rcases hcases with ⟨hchannels, -⟩ | ⟨hchannels, -⟩
    · exact hchannels ▸ List.nodup_nil
    · exact hchannels ▸ h.nodup
  · intro id p hp
    rcases hcases with ⟨-, hpending⟩ | ⟨hchannels, hpending, -⟩
    · cases hpending ▸ hp
    · exact hchannels ▸ h.unlisted id p (hpending ▸ hp)
  · intro id p hp habsent
    rcases hcases with ⟨-, hpending⟩ | ⟨-, hpending, hsync⟩
    · cases hpending ▸ hp
    · exact h.latest id p (hpending ▸ hp) (hsync ▸ habsent)
  · intro f hf hlatest id _ _ _
    rcases List.mem_append.mp hf with hmem | hmem
    · have hle := h.generations f hmem
      rw [hgeneration] at hlatest
      omega
    · rw [List.mem_singleton.mp hmem]
      exact h.heard_le id
  · refine List.forall_mem_append.mpr ⟨fun f hf ↦ ?_, List.forall_mem_singleton.mpr hgeneration.ge⟩
    exact (Nat.le_succ_of_le (h.generations f hf)).trans_eq hgeneration.symm

section Messages

theorem told_hear (store : ChannelStore) (last : ℕ) (about : String → Bool) :
    told { s with
      store := store
      heard := tell moment about s.heard
      due := tell moment about s.due
      lastMessage := last } = tell moment about s.told := by
  funext id
  rw [ChannelPage.told]
  dsimp only
  cases habout : about id with
  | true => rw [tell_of_true habout, tell_of_true habout, max_assoc, ChannelPage.told]
  | false => rw [tell_of_false habout, tell_of_false habout, ChannelPage.told]

/-- A message that the store takes in. -/
theorem Inv.hear (h : Inv hub s) {store : ChannelStore} (hlast : s.lastMessage < moment)
    (hgeneration : store.fetchGeneration = s.store.fetchGeneration)
    (hnodup : (store.channels.map Channel.id).Nodup)
    (hunlisted : ∀ id p, store.pendingStatuses.get id = some p → id ∉ store.channels.map Channel.id)
    (hlatest : ∀ id p, store.pendingStatuses.get id = some p → store.isAbsent id = false →
      newest hub (tell moment about s.heard id) id = some p.status)
    (hsince : ∀ id ∉ store.channels.map Channel.id, store.isAbsent id = false →
      store.pendingStatuses.get id = none → about id = false ∧
        id ∉ s.store.channels.map Channel.id ∧ s.store.isAbsent id = false ∧
        s.store.pendingStatuses.get id = none)
    (hcurrent : IsCurrent hub (tell moment about s.due) store.channels) :
    Inv hub (ChannelPage.settle { s with
      store := store
      heard := tell moment about s.heard
      due := tell moment about s.due
      lastMessage := moment }) := by
  refine Inv.settle ⟨hnodup, hunlisted, hlatest, ?_, ?_, ?_, ?_⟩ (fun _ ↦ hcurrent) fun hnot ↦ ?_
  · intro f hf hlatest id hid habsent hnone
    obtain ⟨hmem, hid', habsent', hnone'⟩ := hsince id hid habsent hnone
    exact (tell_of_false hmem).trans_le
      (h.since f hf (hlatest.trans hgeneration) id hid' habsent' hnone')
  · intro id
    exact tell_le ((h.heard_le id).trans (WithBot.coe_le_coe.mpr hlast.le))
  · intro f hf
    exact hgeneration ▸ h.generations f hf
  · intro id
    rw [told_hear]
    exact tell_mono (h.due_le id)
  · have hover : ¬s.LatestInFlight := fun ⟨f, hf, heq⟩ ↦ hnot ⟨f, hf, heq.trans hgeneration.symm⟩
    rw [told_hear, ← h.settled hover]
    exact hcurrent

/-- A message is newer than the messages before it. -/
theorem newest_tell_heard (h : Buffers hub s) (hlast : s.lastMessage < moment)
    (habout : about id = true) : newest hub (tell moment about s.heard id) id =
      some (((hub moment).status id).getD .dead) :=
  newest_tell habout (noNews_of_le ((h.heard_le id).trans (WithBot.coe_le_coe.mpr hlast.le)))

theorem inv_stateSync (h : Inv hub s) (hlast : s.lastMessage < moment)
    (hcareful : s.Careful hub hostId (.stateSync moment)) :
    Inv hub (ChannelPage.settle { s with
      store := s.store.applyStateSync (hub moment).stateSync
      heard := tell moment (fun _ ↦ true) s.heard
      due := tell moment (fun _ ↦ true) s.due
      lastMessage := moment }) := by
  have hids : ((s.store.applyStateSync (hub moment).stateSync).channels.map Channel.id) =
      s.store.channels.map Channel.id := map_id_of_forall (id_syncChannel _)
  have hpresent : ∀ id, (s.store.applyStateSync (hub moment).stateSync).isAbsent id = false →
      ∃ sc ∈ (hub moment).stateSync, sc.id = id := by
    intro id habsent
    simpa [ChannelStore.isAbsent, ChannelStore.applyStateSync] using habsent
  have hget := get_foldl_set ((hub moment).stateSync.filter fun sc ↦
    sc.id ∉ s.store.channels.map Channel.id) s.store.pendingStatuses
  refine h.hear hlast rfl (hids.symm ▸ h.nodup) ?_ ?_ ?_ ?_
  · intro id p hp
    rw [hids]
    rcases hget id with ⟨sc, hsc, rfl, -⟩ | ⟨-, hsame⟩
    · exact of_decide_eq_true (List.mem_filter.mp hsc).2
    · exact h.unlisted id p (hsame.symm.trans hp)
  · intro id p hp habsent
    rcases hget id with ⟨sc, hsc, rfl, hbuffered⟩ | ⟨hne, hsame⟩
    · obtain ⟨known, hknown, rfl⟩ := List.mem_map.mp (List.mem_filter.mp hsc).1
      cases hbuffered.symm.trans hp
      rw [newest_tell_heard h.toBuffers hlast rfl, HubState.status,
        HubState.find_of_mem (List.mem_filter.mp hknown).1]
      rfl
    · obtain ⟨sc, hsc, rfl⟩ := hpresent id habsent
      have hunlisted := h.unlisted sc.id p (hsame.symm.trans hp)
      exact absurd rfl (hne sc (List.mem_filter.mpr ⟨hsc, decide_eq_true hunlisted⟩))
  · intro id hid habsent hnone
    rw [hids] at hid
    obtain ⟨sc, hsc, rfl⟩ := hpresent id habsent
    rcases hget sc.id with ⟨sc', -, -, hbuffered⟩ | ⟨hne, -⟩
    · cases hbuffered.symm.trans hnone
    · exact absurd rfl (hne sc (List.mem_filter.mpr ⟨hsc, decide_eq_true hid⟩))
  · refine List.forall_mem_map.mpr fun c hc ↦ ?_
    rw [id_syncChannel, status_syncChannel, newest_tell rfl (hcareful c hc)]

theorem inv_channelState (h : Inv hub s) (hlast : s.lastMessage < moment) {known : HubChannel}
    (hfind : (hub moment).find id = some known)
    (hcareful : s.Careful hub hostId (.channelState moment id)) :
    Inv hub (ChannelPage.settle { s with
      store := s.store.updateChannelStatus id known.pending
      heard := tell moment (· = id) s.heard
      due := tell moment (· = id) s.due
      lastMessage := moment }) := by
  have hstatus : (hub moment).status id = some known.status := by
    rw [HubState.status, hfind, Option.map_some]
  have hother : ∀ {f : String → WithBot ℕ} {id'}, id' ≠ id → tell moment (· = id) f id' = f id' :=
    fun hne ↦ tell_of_false (decide_eq_false hne)
  by_cases hlisted : id ∈ s.store.channels.map Channel.id
  · rw [updateChannelStatus_of_mem h.nodup hlisted]
    have hids : (s.store.channels.map fun c ↦
        if c.id = id then c.withStatus known.pending else c).map Channel.id =
          s.store.channels.map Channel.id := map_id_of_forall fun c ↦ by split <;> rfl
    refine h.hear hlast rfl (hids.symm ▸ h.nodup) ?_ ?_ ?_ ?_
    · intro id' p hp
      exact hids.symm ▸ h.unlisted id' p hp
    · intro id' p hp habsent
      rw [hother (ne_of_mem_of_not_mem hlisted (h.unlisted id' p hp)).symm]
      exact h.latest id' p hp habsent
    · intro id' hid habsent hnone
      rw [hids] at hid
      have hne := (ne_of_mem_of_not_mem hlisted hid).symm
      exact ⟨decide_eq_false hne, hid, habsent, hnone⟩
    · refine List.forall_mem_map.mpr fun c hc ↦ ?_
      by_cases hid : c.id = id
      · rw [if_pos hid]
        change newest hub (tell moment (· = id) s.due c.id) c.id = _
        rw [hid, newest_tell (decide_eq_true rfl) (hcareful hlisted), hstatus]
        rfl
      · rw [if_neg hid, hother hid]
        exact h.current c hc
  · rw [updateChannelStatus_of_not_mem hlisted]
    refine h.hear hlast rfl h.nodup ?_ ?_ ?_ ?_
    · intro id' p hp
      by_cases hid : id' = id
      · exact hid ▸ hlisted
      · rw [OrderedMap.get_set_of_ne _ _ (Ne.symm hid)] at hp
        exact h.unlisted id' p hp
    · intro id' p hp habsent
      by_cases hid : id' = id
      · subst hid
        rw [OrderedMap.get_set_self] at hp
        cases hp
        rw [newest_tell_heard h.toBuffers hlast (decide_eq_true rfl), hstatus]
        rfl
      · rw [OrderedMap.get_set_of_ne _ _ (Ne.symm hid)] at hp
        rw [hother hid]
        exact h.latest id' p hp habsent
    · intro id' hid habsent hnone
      have hne : id' ≠ id := by
        rintro rfl
        rw [OrderedMap.get_set_self] at hnone
        cases hnone
      rw [OrderedMap.get_set_of_ne _ _ hne.symm] at hnone
      exact ⟨decide_eq_false hne, hid, habsent, hnone⟩
    · intro c hc
      rw [hother fun hid ↦ hlisted (hid ▸ List.mem_map_of_mem hc)]
      exact h.current c hc

theorem inv_channelCreated (h : Inv hub s) (hlast : s.lastMessage < moment) {known : HubChannel}
    (hfind : (hub moment).find id = some known)
    (hcareful : s.Careful hub hostId (.channelCreated moment id)) (hadds : s.store.Adds known) :
    Inv hub (ChannelPage.settle { s with
      store := s.store.handleChannelCreated known
      heard := tell moment (· = id) s.heard
      due := tell moment (· = id) s.due
      lastMessage := moment }) := by
  obtain ⟨-, rfl⟩ := HubState.mem_of_find hfind
  have hnews := hcareful known hfind
  rw [if_pos hadds] at hnews
  have hunlisted : known.id ∉ s.store.channels.map Channel.id := by
    intro hmem
    obtain ⟨c, hc, hid⟩ := List.mem_map.mp hmem
    exact hadds.2 c hc hid
  have hids : ((s.store.channels ++ [Channel.mk known.id known.status none]).map Channel.id) =
      s.store.channels.map Channel.id ++ [known.id] := List.map_append
  have hother : ∀ {id p}, (s.store.pendingStatuses.delete known.id).get id = some p →
      id ≠ known.id ∧ s.store.pendingStatuses.get id = some p := by
    intro id p hp
    have hne : id ≠ known.id := by
      rintro rfl
      rw [OrderedMap.get_delete_self] at hp
      cases hp
    exact ⟨hne, by rwa [OrderedMap.get_delete_of_ne _ hne.symm] at hp⟩
  rw [handleChannelCreated_of_adds hadds]
  refine h.hear hlast rfl ?_ ?_ ?_ ?_ ?_
  · rw [hids]
    refine List.nodup_append.mpr ⟨h.nodup, List.nodup_singleton _, ?_⟩
    rintro id hid id' hid' rfl
    exact hunlisted (List.mem_singleton.mp hid' ▸ hid)
  · intro id p hp
    obtain ⟨hne, hp⟩ := hother hp
    rw [hids, List.mem_append, List.mem_singleton, not_or]
    exact ⟨h.unlisted id p hp, hne⟩
  · intro id p hp habsent
    obtain ⟨hne, hp⟩ := hother hp
    rw [tell_of_false (decide_eq_false hne)]
    exact h.latest id p hp habsent
  · intro id hid habsent hnone
    rw [hids, List.mem_append, List.mem_singleton, not_or] at hid
    rw [OrderedMap.get_delete_of_ne _ (Ne.symm hid.2)] at hnone
    exact ⟨decide_eq_false hid.2, hid.1, habsent, hnone⟩
  · refine List.forall_mem_append.mpr ⟨fun c hc ↦ ?_, List.forall_mem_singleton.mpr ?_⟩
    · rw [tell_of_false (decide_eq_false (hadds.2 c hc))]
      exact h.current c hc
    · rw [newest_tell (decide_eq_true rfl) hnews, HubState.status, hfind]
      rfl

end Messages

/-- What the store passes over is no news, unless the latest fetch is under way. -/
theorem Inv.pass (h : Inv hub s) (hbuffers : Buffers hub s')
    (hchannels : s'.store.channels = s.store.channels) (hheard : s'.heard = s.heard)
    (hseen : s'.seen = tell moment about s.seen) (hdue : s'.due = s.due)
    (hflight : s'.LatestInFlight ↔ s.LatestInFlight)
    (hnews : ¬s.LatestInFlight → ∀ id, about id = true → id ∈ s.store.channels.map Channel.id →
      NoNews hub (s.told id) moment id) : Inv hub s'.settle := by
  refine Inv.settle hbuffers (fun _ ↦ ?_) fun hnot ↦ ?_
  · rw [hdue, hchannels]
    exact h.current
  · have hover := mt hflight.mpr hnot
    have hcurrent := h.current
    rw [h.settled hover] at hcurrent
    rw [hchannels]
    intro c hc
    rw [ChannelPage.told, hheard, hseen]
    cases habout : about c.id with
    | true =>
      rw [tell_of_true habout, max_left_comm, ← ChannelPage.told, max_comm,
        newest_max (hnews hover c.id habout (List.mem_map_of_mem hc))]
      exact hcurrent c hc
    | false =>
      rw [tell_of_false habout]
      exact hcurrent c hc

theorem inv_channelPassed (h : Inv hub s) (hlast : s.lastMessage < moment) {known : HubChannel}
    (hfind : (hub moment).find id = some known)
    (hcareful : s.Careful hub hostId (.channelCreated moment id)) (hadds : ¬s.store.Adds known) :
    Inv hub (ChannelPage.settle { s with
      store := s.store.handleChannelCreated known
      seen := tell moment (· = id) s.seen
      lastMessage := moment }) := by
  have hnews := hcareful known hfind
  rw [if_neg hadds] at hnews
  have hnews' : ¬s.LatestInFlight → ∀ id', decide (id' = id) = true →
      id' ∈ s.store.channels.map Channel.id → NoNews hub (s.told id') moment id' := by
    rintro hover id' hid hlisted
    obtain rfl := of_decide_eq_true hid
    exact hnews hover hlisted
  rcases handleChannelCreated_of_not_adds hadds with hsame | ⟨hlisted, hsame⟩
  · rw [hsame]
    exact h.pass (h.quiet rfl (fun _ ↦ rfl) rfl rfl (fun _ hf ↦ hf) rfl (le_tell moment _ s.seen)
      rfl hlast.le) rfl rfl rfl rfl Iff.rfl hnews'
  · rw [hsame]
    refine h.pass (h.quiet rfl (fun id' ↦ ?_) rfl rfl (fun _ hf ↦ hf) rfl (le_tell moment _ s.seen)
      rfl hlast.le) rfl rfl rfl rfl Iff.rfl hnews'
    dsimp only
    by_cases hid : known.id = id'
    · subst hid
      rw [OrderedMap.get_delete_self]
      cases hget : s.store.pendingStatuses.get known.id with
      | none => rfl
      | some p => exact absurd hlisted (h.unlisted known.id p hget)
    · exact OrderedMap.get_delete_of_ne _ hid

/-! ### Responses -/

/-- A row as the buffers leave it. -/
theorem newest_row (h : Buffers hub s) {row : Channel} (hrow : row ∈ (hub moment).rows hostId)
    (hheard : row.id ∉ s.store.channels.map Channel.id → s.store.isAbsent row.id = false →
      s.store.pendingStatuses.get row.id = none → s.heard row.id ≤ moment)
    (hnewest : s.RowIsNewest hub moment row.id) :
    newest hub (max moment (s.told row.id)) row.id =
      some (s.store.markAbsent (s.store.applyPending row)).status := by
  have hid := id_applyPending s.store row
  have hstatus : newest hub (moment : WithBot ℕ) row.id = some row.status := by
    obtain ⟨known, hknown, rfl⟩ := List.mem_map.mp hrow
    change some (((hub moment).status known.id).getD .dead) = _
    rw [HubState.status, HubState.find_of_mem (List.mem_filter.mp hknown).1]
    rfl
  rw [RowIsNewest] at hnewest
  cases habsent : s.store.isAbsent row.id with
  | true =>
    rw [if_pos habsent] at hnewest
    rw [status_markAbsent_of_absent (hid.symm ▸ habsent), hnewest]
  | false =>
    rw [if_neg (Bool.eq_false_iff.mp habsent)] at hnewest
    rw [markAbsent_of_not_absent (hid.symm ▸ habsent)]
    cases hpending : s.store.pendingStatuses.get row.id with
    | some p =>
      rw [hpending] at hnewest
      rw [applyPending_of_eq_some hpending, ChannelPage.told, max_left_comm,
        newest_max hnewest, h.latest row.id p hpending habsent]
      rfl
    | none =>
      rw [hpending, if_neg (by simp)] at hnewest
      rw [applyPending_of_eq_none hpending]
      by_cases hlisted : row.id ∈ s.store.channels.map Channel.id
      · rw [if_pos hlisted] at hnewest
        rw [newest_max hnewest, hstatus]
      · rw [if_neg hlisted] at hnewest
        have hle := hheard hlisted habsent hpending
        rw [ChannelPage.told, max_left_comm, max_eq_right (hle.trans (le_max_left _ _)),
          newest_max hnewest, hstatus]

/-- A kept channel. -/
theorem newest_kept (h : Inv hub s) {c : Channel} (hc : c ∈ s.store.channels)
    (hnewest : s.KeptIsNewest hub c.id) : newest hub (s.told c.id) c.id =
      some (s.store.markAbsent (s.store.applyPending c)).status := by
  have hid := id_applyPending s.store c
  rw [KeptIsNewest] at hnewest
  cases habsent : s.store.isAbsent c.id with
  | true =>
    rw [if_pos habsent] at hnewest
    rw [status_markAbsent_of_absent (hid.symm ▸ habsent), hnewest]
  | false =>
    rw [if_neg (Bool.eq_false_iff.mp habsent)] at hnewest
    have hpending : s.store.pendingStatuses.get c.id = none := by
      by_contra hsome
      obtain ⟨p, hp⟩ := Option.ne_none_iff_exists'.mp hsome
      exact h.unlisted c.id p hp (List.mem_map_of_mem hc)
    rw [markAbsent_of_not_absent (hid.symm ▸ habsent), applyPending_of_eq_none hpending,
      ← max_eq_right (h.due_le c.id), newest_max hnewest, h.current c hc]

variable {generation : ℕ}

theorem mem_filter_generation {f : ℕ × ℕ} (h : f ∈ s.inFlight.filter fun f ↦ f.1 ≠ generation) :
    f ∈ s.inFlight ∧ f.1 ≠ generation :=
  ⟨(List.mem_filter.mp h).1, of_decide_eq_true (List.mem_filter.mp h).2⟩

theorem inv_respond (h : Inv hub s)
    (hrequest : ∃ f ∈ s.inFlight, f.1 = generation ∧ f.2 ≤ moment)
    (hcareful : s.Careful hub hostId (.respond generation moment)) :
    Inv hub (ChannelPage.settle { s with
      store := s.store.finishFetch generation ((hub moment).rows hostId)
      inFlight := s.inFlight.filter fun f ↦ f.1 ≠ generation
      seen := tell moment (· ∈ ((hub moment).rows hostId).map Channel.id) s.seen }) := by
  have hseen := le_tell moment (· ∈ ((hub moment).rows hostId).map Channel.id) s.seen
  rw [Careful] at hcareful
  by_cases hlatest : s.store.fetchGeneration = generation
  · subst hlatest
    rw [if_pos rfl] at hcareful
    obtain ⟨hrows, hkept⟩ := hcareful
    rw [ChannelStore.finishFetch]
    dsimp only
    rw [if_neg (not_not.mpr rfl)]
    have hover : ∀ f ∈ s.inFlight.filter fun f ↦ f.1 ≠ s.store.fetchGeneration,
        f.1 ≠ s.store.fetchGeneration := fun f hf ↦ (mem_filter_generation hf).2
    refine Inv.settle ⟨nodup_merged h.nodup HubState.nodup_rows, nofun, nofun,
      fun f hf heq ↦ absurd heq (hover f hf), h.heard_le,
      fun f hf ↦ h.generations f (mem_filter_generation hf).1,
      fun id ↦ (h.due_le id).trans (max_le_max_left _ (hseen id))⟩
      (fun ⟨f, hf, heq⟩ ↦ absurd heq (hover f hf)) fun _ c' hc' ↦ ?_
    obtain ⟨c, hc, rfl⟩ := List.mem_map.mp hc'
    rw [id_reconciled, ChannelPage.told]
    dsimp only
    rcases List.mem_append.mp hc with hrow | hkeep
    · obtain ⟨f, hf, heq, hle⟩ := hrequest
      rw [tell_of_true (decide_eq_true (List.mem_map_of_mem hrow)), max_left_comm]
      refine newest_row h.toBuffers hrow (fun hlisted habsent hpending ↦ ?_) (hrows c hrow)
      exact (h.since f hf heq c.id hlisted habsent hpending).trans (WithBot.coe_le_coe.mpr hle)
    · have hmem := List.mem_filter.mp hkeep
      rw [tell_of_false (decide_eq_false (of_decide_eq_true (Bool.and_eq_true_iff.mp hmem.2).2))]
      exact newest_kept h hmem.1 (hkept c hkeep)
  · rw [if_neg hlatest] at hcareful
    rw [ChannelStore.finishFetch]
    dsimp only
    rw [if_pos hlatest]
    refine h.pass (h.quiet rfl (fun _ ↦ rfl) rfl rfl (fun f hf ↦ (mem_filter_generation hf).1) rfl
      hseen rfl (le_refl _)) rfl rfl rfl rfl ?_ fun hover id hid hlisted ↦ ?_
    · constructor
      · rintro ⟨f, hf, heq⟩
        exact ⟨f, (mem_filter_generation hf).1, heq⟩
      · rintro ⟨f, hf, heq⟩
        exact ⟨f, List.mem_filter.mpr ⟨hf, decide_eq_true (heq.trans_ne hlatest)⟩, heq⟩
    · obtain ⟨row, hrow, rfl⟩ := List.mem_map.mp (of_decide_eq_true hid)
      exact hcareful hover row hrow hlisted

theorem inv_failFetch {message : String} (h : Inv hub s)
    (hcareful : s.Careful hub hostId (.failFetch generation message)) :
    Inv hub (ChannelPage.settle { s with
      store := s.store.failFetch generation message
      inFlight := s.inFlight.filter fun f ↦ f.1 ≠ generation }) := by
  have hchannels : (s.store.failFetch generation message).channels = s.store.channels ∧
      (s.store.failFetch generation message).pendingStatuses = s.store.pendingStatuses ∧
      (s.store.failFetch generation message).lastSyncIds = s.store.lastSyncIds ∧
      (s.store.failFetch generation message).fetchGeneration = s.store.fetchGeneration := by
    rw [ChannelStore.failFetch]
    dsimp only
    split <;> exact ⟨rfl, rfl, rfl, rfl⟩
  obtain ⟨hchannels, hpending, hsync, hgeneration⟩ := hchannels
  refine Inv.settle (h.quiet hchannels (fun _ ↦ by rw [hpending]) hsync hgeneration
    (fun f hf ↦ (mem_filter_generation hf).1) rfl (fun _ ↦ le_refl _) rfl (le_refl _))
    (fun _ ↦ hchannels ▸ h.current) fun hnot ↦ ?_
  dsimp only
  rw [hchannels]
  intro c hc
  -- all that was told is due, or is no news
  suffices hnews : NoNews hub (s.due c.id) (s.told c.id) c.id by
    have hnewest := newest_max hnews
    rw [max_eq_right (h.due_le c.id)] at hnewest
    exact hnewest.trans (h.current c hc)
  by_cases hlatest : s.store.fetchGeneration = generation
  · exact hcareful hlatest c hc
  · have hover : ¬s.LatestInFlight := by
      rintro ⟨f, hf, heq⟩
      exact hnot ⟨f, List.mem_filter.mpr ⟨hf, decide_eq_true (heq.trans_ne hlatest)⟩,
        heq.trans hgeneration.symm⟩
    exact noNews_of_le (congrFun (h.settled hover) c.id).ge

/-! ## Runs -/

theorem inv_step {e : ChannelEvent} (h : Inv hub s) (hcareful : s.Careful hub hostId e)
    (hstep : s.step hub hostId e = some s') : Inv hub s' := by
  rw [step, Option.map_eq_some_iff] at hstep
  obtain ⟨r, hreceive, rfl⟩ := hstep
  cases e with
  | fetchChannels =>
    cases hreceive
    refine Inv.settle (buffers_fetch h.toBuffers) (fun _ ↦ ?_) fun hnot ↦ absurd ?_ hnot
    · rcases (startFetch_cases s.store hostId).2 with ⟨hchannels, -⟩ | ⟨hchannels, -⟩
      · dsimp only
        rw [hchannels]
        exact fun _ hc ↦ absurd hc List.not_mem_nil
      · dsimp only
        rw [hchannels]
        exact h.current
    · exact ⟨_, List.mem_append_right _ List.mem_cons_self,
        (startFetch_cases s.store hostId).1.symm⟩
  | respond generation moment =>
    obtain ⟨hany, heq⟩ := Option.ite_none_right_eq_some.mp hreceive
    cases heq
    exact inv_respond h (by simpa using hany) hcareful
  | failFetch generation message =>
    obtain ⟨-, heq⟩ := Option.ite_none_right_eq_some.mp hreceive
    cases heq
    exact inv_failFetch h hcareful
  | stateSync moment =>
    obtain ⟨hlast, heq⟩ := Option.ite_none_right_eq_some.mp hreceive
    cases heq
    exact inv_stateSync h hlast hcareful
  | channelState moment id =>
    obtain ⟨hlast, heq⟩ := Option.ite_none_right_eq_some.mp hreceive
    obtain ⟨known, hfind, rfl⟩ := Option.map_eq_some_iff.mp heq
    exact inv_channelState h hlast hfind hcareful
  | channelCreated moment id =>
    obtain ⟨hlast, heq⟩ := Option.ite_none_right_eq_some.mp hreceive
    obtain ⟨known, hfind, rfl⟩ := Option.map_eq_some_iff.mp heq
    by_cases hadds : s.store.Adds known
    · rw [if_pos hadds]
      exact inv_channelCreated h hlast hfind hcareful hadds
    · rw [if_neg hadds]
      exact inv_channelPassed h hlast hfind hcareful hadds

/-- **The list converges where nothing that comes late is news**, over every run of fetches and
messages, whatever the hub does. -/
theorem converges_of_careful (hub : ℕ → HubState) (hostId : String) (es : List ChannelEvent)
    (h : Along (step hub hostId) (fun s e _ ↦ s.Careful hub hostId e) start es) :
    Along (step hub hostId) (fun _ _ s' ↦ s'.Converged hub) start es := by
  refine along_of_invariant (Inv hub) (P := fun _ _ s' ↦ s'.Converged hub) ?_ Inv.start h
  intro s e s' hinv hcareful hstep
  have hinv' := inv_step hinv hcareful hstep
  exact ⟨hinv', hinv'.converged⟩

/-! ## Three refreshes -/

def hubOf (channels : List (String × ChannelStatus))
    (h : (channels.map fun c ↦ c.1).Nodup) : HubState where
  channels := channels.map fun c ↦ ⟨⟨c.1, c.2, none⟩, "h", true⟩
  nodup := by rwa [List.map_map]
  dead_of_untracked := by
    intro c hc huntracked
    obtain ⟨_, -, rfl⟩ := List.mem_map.mp hc
    cases huntracked

/-- A channel dies at the second moment. -/
def dyingHub (moment : ℕ) : HubState :=
  if moment < 2 then hubOf [("x", .live)] (by decide) else hubOf [("x", .dead)] (by decide)

/-- The page asks for the channels again, the channel dies, and the answer is from before. -/
def lateSnapshot : List ChannelEvent :=
  [.fetchChannels, .respond 1 1, .fetchChannels, .channelState 2 "x", .respond 2 1]

/-- A channel is created at the third moment. -/
def growingHub (moment : ℕ) : HubState :=
  if moment < 3 then hubOf [("x", .live)] (by decide)
  else hubOf [("x", .live), ("y", .live)] (by decide)

/-- The page is synchronised, a channel is created, and the page asks for the channels again. -/
def refreshAfterSpawn : List ChannelEvent :=
  [.fetchChannels, .respond 1 1, .stateSync 2, .channelCreated 3 "y", .fetchChannels, .respond 2 3]

/-- While the page asks for the channels, `x` dies, and then again while `y` is created. -/
def messagesInFlight : List ChannelEvent :=
  [.fetchChannels, .channelState 2 "x", .respond 1 1, .fetchChannels, .channelCreated 4 "y",
    .respond 2 3]

def busyHub (moment : ℕ) : HubState :=
  if moment < 2 then hubOf [("x", .live)] (by decide)
  else if moment < 4 then hubOf [("x", .dead)] (by decide)
  else hubOf [("x", .dead), ("y", .live)] (by decide)

theorem converges_of_careful_messagesInFlight :
    Along (step busyHub "h") (fun _ _ s' ↦ s'.Converged busyHub) start messagesInFlight := by
  refine converges_of_careful busyHub "h" _ ((along_cons_of_eq rfl).mpr ⟨trivial, ?_⟩)
  refine (along_cons_of_eq rfl).mpr ⟨nofun, (along_cons_of_eq rfl).mpr ⟨?_, ?_⟩⟩
  · -- `x` has a buffered status, which is newer than the snapshot
    refine ⟨List.forall_mem_singleton.mpr ?_, nofun⟩
    unfold RowIsNewest
    decide
  refine (along_cons_of_eq rfl).mpr ⟨trivial, (along_cons_of_eq rfl).mpr ⟨?_, ?_⟩⟩
  · rintro known ⟨⟩
    decide
  refine (along_cons_of_eq rfl).mpr ⟨⟨List.forall_mem_singleton.mpr ?_,
    List.forall_mem_singleton.mpr ?_⟩, trivial⟩
  · unfold RowIsNewest
    decide
  · unfold KeptIsNewest
    decide

/-- In the first run a dead channel is shown as live, in the second one a live channel as dead. -/
theorem refreshes_not_converged :
    ¬ Along (step dyingHub "h") (fun _ _ s' ↦ s'.Converged dyingHub) start lateSnapshot ∧
    ¬ Along (step growingHub "h") (fun _ _ s' ↦ s'.Converged growingHub) start
      refreshAfterSpawn := by
  constructor
  · intro h
    have hconverged := along_getElem h 4 rfl rfl rfl
    have hlive : some ChannelStatus.dead = some .live :=
      hconverged rfl ⟨"x", .live, none⟩ (List.mem_singleton.mpr rfl)
    cases hlive
  · intro h
    have hconverged := along_getElem h 5 rfl rfl rfl
    have hdead : some ChannelStatus.live = some .dead :=
      hconverged rfl ⟨"y", .dead, none⟩ (List.mem_cons_of_mem _ (List.mem_singleton.mpr rfl))
    cases hdead

end ChannelPage

end Lasterm.Web
