import Lasterm.Wire.Requests

/-!
# No process without a channel

A process that the agent runs should belong to a channel that the hub has, unless a message that
will settle it is on the way. `Host.NoLeak` says so. It does not hold over every run: the hub
forgets a request when it times out and ignores the SPAWN_OK that comes later (`late_reply_leaks`),
and closing a session only hangs up on a daemon, which goes on.

What the hub will have of a channel once the messages on the way have arrived can be told from the
pending requests (`Host.expects`). The invariant is that it will have every registered channel, or a
DESTROY is on the way (`Host.Tended`). `Host.Careful` says of each event that can break this when it
does not, and over every run of careful steps no process leaks (`noLeak_of_careful`).
-/

namespace Lasterm.Wire

open Hub

/-- SPAWN_OK or CHANNEL_EXIT for the channel. -/
def ToHub.concerns (c : ChannelId) : ToHub → Bool
  | .spawnOk _ c' | .channelExit c' => c' = c
  | _ => false

namespace SpawnRequest

/-- SPAWN_OK makes the channel live. -/
def revives : SpawnRequest → Bool
  | .rehost _ _ => false
  | _ => true

/-- The request is about a channel that the hub has, and a failure marks it dead. -/
def rehosts (c : ChannelId) : SpawnRequest → Bool
  | .rehost c' _ => c' = c
  | _ => false

end SpawnRequest

namespace Host

variable (h : Host) (c : ChannelId)

/-! ## The property -/

/-- A DESTROY for the channel is on the way. -/
def destroying : Bool := (h.toAgent ++ h.stale.map Prod.snd).contains (.destroy c)

/-- The agent is an SSH agent whose connection has been closed; it ends its processes. -/
def closed : Bool := h.hostType = .ssh && h.link = .down

/-- Every process for which SPAWN_OK was sent and CHANNEL_EXIT was not belongs to a channel that the
hub has, or a message about it is on the way. A DESTROY that is being carried out counts as such. -/
def NoLeak : Prop :=
  ∀ p ∈ h.processes, p.stage ≠ .exited →
    h.alive p.channelId ∨ (∃ m ∈ h.toHub, m.concerns p.channelId) ∨ h.destroying p.channelId ∨
      p.stage = .signalled ∨ h.closed

instance : Decidable h.NoLeak := inferInstanceAs (Decidable (∀ p ∈ h.processes, _))

/-! ## What the hub will have -/

/-- Whether the hub has a channel alive after a message, if it did or did not before. -/
def arrive (pending : String → Option SpawnRequest) (c : ChannelId) (b : Bool) : ToHub → Bool
  | .spawnOk requestId c' => b || (c' = c && (pending requestId).any SpawnRequest.revives)
  | .spawnErr requestId => b && !(pending requestId).any (SpawnRequest.rehosts c)
  | .channelExit c' => b && c' ≠ c
  | .channelStates ids => b && ids.contains c

/-- The hub has the channel alive once all messages on the way have arrived. -/
def expects : Bool := h.toHub.foldl (arrive h.pending c) (h.alive c)

/-- The agent is told to end the processes of the channel, or ends by itself. -/
def doomed : Bool := h.destroying c || h.closed

def covered : Bool := h.expects c || h.doomed c

/-- Handling a message of which `answered` says whether the hub is told, with the message already
taken. -/
def carefulMessage (answered ok : Bool) (ulid : ChannelId) : ToAgent → Bool
  | .spawn requestId channelId =>
    if h.refuses channelId ok then
      -- The hub marks a channel dead that it wanted to have again.
      !answered || h.registeredIds.all fun c ↦
        !(h.pending requestId).any (SpawnRequest.rehosts c) || h.doomed c
    else
      (answered && (h.pending requestId).any SpawnRequest.revives) ||
        h.covered (channelId.getD ulid)
  | .destroy c => ok || !h.registered c || h.covered c

/-- The event takes no channel from a registered process. -/
def careful : HostEvent → Bool
  | .timeout requestId =>
    h.registeredIds.all fun c ↦ h.doomed c ||
      !(h.toHub.contains (.spawnOk requestId c) ||
        (h.pending requestId).any (SpawnRequest.rehosts c))
  | .drop => h.hostType = .ssh || h.registeredIds.all fun c ↦ h.alive c || h.destroying c
  | .closeSession => h.hostType = .ssh || h.registeredIds.all h.destroying
  | .destroyChannel c => h.link = .up || !h.registered c || h.doomed c
  | .handle ok ulid =>
    match h.toAgent with
    | m :: toAgent => { h with toAgent := toAgent }.carefulMessage true ok ulid m
    | [] => true
  | .handleStale i ok ulid =>
    match h.stale[i]? with
    | some (_, m) => { h with stale := h.stale.eraseIdx i }.carefulMessage false ok ulid m
    | none => true
  | .loseStale i =>
    match h.stale[i]? with
    | some (_, .destroy c) => !h.registered c || { h with stale := h.stale.eraseIdx i }.covered c
    | _ => true
  | .exit i =>
    -- The cleanup takes every process of the channel out of the registry.
    (h.processes[i]?).all fun p ↦ (h.processes.eraseIdx i).all fun p' ↦
      p'.channelId ≠ p.channelId || p'.stage ≠ .registered
  | _ => true

variable {h : Host} {c : ChannelId} {requestId : String}

/-! ## Arrivals -/

variable {pending pending' : String → Option SpawnRequest} {c' : ChannelId}

theorem arrive_mono {b b' : Bool} (hb : b → b') {m : ToHub} (harr : arrive pending c b m) :
    arrive pending c b' m := by
  cases m <;> simp only [arrive, Bool.or_eq_true, Bool.and_eq_true] at harr ⊢
  · exact harr.imp_left hb
  all_goals exact ⟨hb harr.1, harr.2⟩

theorem arrive_congr {b : Bool} {m : ToHub}
    (hp : ∀ r, m.requestId = some r → pending' r = pending r) :
    arrive pending' c b m = arrive pending c b m := by
  cases m with
  | spawnOk r | spawnErr r => simp only [arrive, hp r rfl]
  | channelExit | channelStates => rfl

theorem foldl_arrive {toHub : List ToHub} {b b' : Bool} (hb : b → b')
    (hp : ∀ m ∈ toHub, ∀ b, arrive pending c b m → arrive pending' c b m)
    (hexp : toHub.foldl (arrive pending c) b = true) :
    toHub.foldl (arrive pending' c) b' = true := by
  induction toHub generalizing b b' with
  | nil => exact hb hexp
  | cons m toHub ih =>
    refine ih (fun harr ↦ ?_) (fun m' hm' ↦ hp m' (List.mem_cons_of_mem _ hm')) hexp
    exact arrive_mono hb (hp m List.mem_cons_self b harr)

/-- A channel that the hub will have is one that it has, or a SPAWN_OK for it is on the way. -/
theorem alive_or_spawnOk_of_expects (hexp : h.expects c) :
    h.alive c ∨ ∃ m ∈ h.toHub, m.concerns c := by
  have hfold : ∀ (toHub : List ToHub) (b : Bool), toHub.foldl (arrive h.pending c) b = true →
      b ∨ ∃ m ∈ toHub, m.concerns c := by
    intro toHub
    induction toHub with
    | nil => exact fun b hb ↦ Or.inl hb
    | cons m toHub ih =>
      intro b hb
      rcases ih _ hb with harr | ⟨m', hm', hc⟩
      · cases m with
        | spawnOk r c' =>
          simp only [arrive, Bool.or_eq_true, Bool.and_eq_true] at harr
          exact harr.imp_right fun hc ↦ ⟨_, List.mem_cons_self, hc.1⟩
        | spawnErr | channelExit | channelStates => exact Or.inl (Bool.and_eq_true_iff.mp harr).1
      · exact Or.inr ⟨m', List.mem_cons_of_mem _ hm', hc⟩
  exact hfold h.toHub _ hexp

/-! ## Live channels -/

theorem alive_updateChannelStatus_of_ne {status : ChannelStatus} (hne : c' ≠ c) :
    (h.updateChannelStatus c status).alive c' = h.alive c' := by
  rw [alive, updateChannelStatus_channels, Function.update_of_ne hne, alive]

theorem alive_updateChannelStatus {status : ChannelStatus} (hstatus : status ≠ .dead)
    (hc : h.alive c') : (h.updateChannelStatus c status).alive c' := by
  by_cases heq : c' = c
  · obtain ⟨st, hst⟩ := Option.isSome_iff_exists.mp (isSome_of_alive hc)
    rw [heq] at hst ⊢
    rw [alive, updateChannelStatus_channels, Function.update_self, hst]
    exact decide_eq_true hstatus
  · rw [alive_updateChannelStatus_of_ne heq]
    exact hc

theorem alive_retireChannel_of_ne (hne : c' ≠ c) : (h.retireChannel c).alive c' = h.alive c' := by
  rw [alive, retireChannel, deleteChannel_channels, Function.update_of_ne hne]
  exact alive_updateChannelStatus_of_ne hne

theorem alive_setLive : (h.setLive c).alive c' = (c' = c || h.alive c') := by
  by_cases heq : c' = c
  · rw [alive, setLive_channels, heq, Function.update_self]
    simp
  · rw [alive, setLive_channels, Function.update_of_ne heq, alive]
    simp [heq]

theorem alive_createChannel : (h.createChannel c).alive c' = (c' = c || h.alive c') :=
  alive_setLive

theorem alive_spawned {clients : Bool} {q : SpawnRequest}
    (hq : target q = some c' ∨ q = .spawn ∧ h.rows c' = none)
    (hc : h.alive c ∨ c' = c ∧ q.revives) : (h.spawned c' clients q).alive c := by
  have hlive : (decide (c = c') || h.alive c) = true := by
    rw [Bool.or_eq_true, decide_eq_true_eq]
    exact hc.symm.imp_left fun hrev ↦ hrev.1.symm
  rcases hq with htarget | ⟨rfl, hrow⟩
  · cases q with
    | spawn => cases htarget
    | restart previous =>
      obtain rfl : previous = c' := Option.some.inj htarget
      rw [spawned, applyRestartState, if_pos rfl, alive_setLive]
      exact hlive
    | respawn previous =>
      obtain rfl : previous = c' := Option.some.inj htarget
      rw [spawned, alive_setLive]
      exact hlive
    | rehost previous reattach =>
      have hc : h.alive c := hc.resolve_right fun hrev ↦ Bool.false_ne_true hrev.2
      rw [spawned]
      split
      · exact alive_updateChannelStatus (by decide) hc
      · exact hc
  · rw [spawned, hrow, Option.isSome_none, if_neg Bool.false_ne_true, alive_createChannel]
    exact hlive

theorem alive_spawnFailed {q : SpawnRequest} (hc : h.alive c) (hq : ¬ q.rehosts c) :
    (h.spawnFailed q).alive c := by
  cases q with
  | spawn | restart | respawn => exact hc
  | rehost c' reattach =>
    have hne : c ≠ c' := fun heq ↦ hq (decide_eq_true heq.symm)
    rw [spawnFailed, alive_updateChannelStatus_of_ne hne]
    exact hc

theorem alive_channelStates {clients : Bool} {ids : List ChannelId} (hc : h.alive c)
    (hmem : ids.contains c) : (h.dispatch clients (.channelStates ids)).alive c := by
  rw [alive, Option.any_eq_true] at hc
  obtain ⟨status, hstatus, hnd⟩ := hc
  have hrec : (h.dispatch clients (.channelStates ids)).channels c =
      some (reconcile true status) :=
    calc (h.dispatch clients (.channelStates ids)).channels c
      _ = (h.channels c).map (reconcile (ids.contains c)) := rfl
      _ = some (reconcile true status) := by rw [hstatus, hmem, Option.map_some]
  rw [alive, hrec]
  cases status with
  | dead => cases hnd
  | born | live | orphan => rfl

/-- The hub has a channel after a message as it was to have it. -/
theorem alive_dispatch (hb : h.Booked) {m : ToHub} {toHub : List ToHub} (hq : h.toHub = m :: toHub)
    {clients : Bool} (harr : arrive h.pending c (h.alive c) m) :
    ({ h with toHub := toHub }.dispatch clients m).alive c := by
  cases m with
  | spawnOk r c' =>
    simp only [arrive, Bool.or_eq_true, Bool.and_eq_true, decide_eq_true_eq] at harr
    rw [dispatch]
    split
    case h_1 q hpend =>
      rw [show h.pending r = some q from hpend, Option.any_some] at harr
      have hans := hb.answered_cons hq hpend
      exact alive_spawned (hans.imp And.left fun hnew ↦ ⟨hnew.1, hnew.2.1⟩) harr
    case h_2 hpend =>
      rw [show h.pending r = none from hpend] at harr
      exact harr.resolve_right fun hrev ↦ Bool.false_ne_true hrev.2
  | spawnErr r =>
    obtain ⟨hc, hnot⟩ := Bool.and_eq_true_iff.mp harr
    rw [dispatch]
    split
    case h_1 q hpend =>
      rw [show h.pending r = some q from hpend, Option.any_some, Bool.not_eq_true'] at hnot
      exact alive_spawnFailed hc (Bool.eq_false_iff.mp hnot)
    case h_2 => exact hc
  | channelExit c' =>
    obtain ⟨hc, hne⟩ := Bool.and_eq_true_iff.mp harr
    rw [dispatch]
    split
    · rw [alive_updateChannelStatus_of_ne (of_decide_eq_true hne).symm]
      exact hc
    · exact hc
  | channelStates ids =>
    obtain ⟨hc, hmem⟩ := Bool.and_eq_true_iff.mp harr
    exact alive_channelStates hc hmem

/-! ## Processes -/

theorem mem_registeredIds :
    c ∈ h.registeredIds ↔ ∃ p ∈ h.processes, p.channelId = c ∧ p.stage = .registered := by
  simp only [registeredIds, List.mem_map, List.mem_filter, decide_eq_true_eq]
  constructor
  · rintro ⟨p, ⟨hp, hstage⟩, hc⟩
    exact ⟨p, hp, hc, hstage⟩
  · rintro ⟨p, hp, hc, hstage⟩
    exact ⟨p, ⟨hp, hstage⟩, hc⟩

theorem registered_iff : h.registered c ↔ c ∈ h.registeredIds := by
  rw [mem_registeredIds, registered, List.any_eq_true]
  simp only [decide_eq_true_eq]

/-- What the invariant asks of the processes. -/
structure Tended (h : Host) : Prop where
  covered : ∀ c ∈ h.registeredIds, h.covered c
  stray : ∀ p ∈ h.processes, p.stage ≠ .stray

theorem covered_iff : h.covered c ↔ h.expects c ∨ h.destroying c ∨ h.closed := by
  rw [covered, doomed, Bool.or_eq_true, Bool.or_eq_true]

theorem destroying_iff :
    h.destroying c ↔ .destroy c ∈ h.toAgent ∨ ∃ n, (n, .destroy c) ∈ h.stale := by
  rw [destroying, List.contains_iff_mem, List.mem_append, List.mem_map]
  refine or_congr_right ⟨?_, ?_⟩
  · rintro ⟨⟨n, m⟩, hm, rfl⟩
    exact ⟨n, hm⟩
  · rintro ⟨n, hm⟩
    exact ⟨_, hm, rfl⟩

theorem closed_iff : h.closed ↔ h.hostType = .ssh ∧ h.link = .down := by
  rw [closed, Bool.and_eq_true, decide_eq_true_eq, decide_eq_true_eq]

/-- The invariant gives the property. -/
theorem Tended.noLeak (ht : h.Tended) : h.NoLeak := by
  intro p hp hrunning
  cases hstage : p.stage with
  | exited => exact absurd hstage hrunning
  | stray => exact absurd hstage (ht.stray p hp)
  | signalled => exact Or.inr (Or.inr (Or.inr (Or.inl rfl)))
  | registered =>
    have hcov := ht.covered p.channelId (mem_registeredIds.mpr ⟨p, hp, rfl, hstage⟩)
    rcases covered_iff.mp hcov with hexp | hdes | hclosed
    · rcases alive_or_spawnOk_of_expects hexp with hc | hm
      · exact Or.inl hc
      · exact Or.inr (Or.inl hm)
    · exact Or.inr (Or.inr (Or.inl hdes))
    · exact Or.inr (Or.inr (Or.inr (Or.inr hclosed)))

namespace Tended

section

variable (ht : h.Tended)
include ht

/-- A step of the hub leaves the processes alone. -/
theorem of_hub {h' : Host} (hp : h'.processes = h.processes)
    (hcov : ∀ c ∈ h.registeredIds, h.covered c → h'.covered c) : h'.Tended := by
  have hids : h'.registeredIds = h.registeredIds := by rw [registeredIds, hp, registeredIds]
  constructor
  · rw [hids]
    intro c hc
    exact hcov c hc (ht.covered c hc)
  · rw [hp]
    exact ht.stray

/-- Messages to the agent are added and a request with a new id is noted. -/
theorem request {q : SpawnRequest} (hfresh : requestId ∉ h.onTheWay) :
    (h.request requestId q).Tended := by
  refine ht.of_hub rfl fun c _ hcov ↦ ?_
  rw [covered_iff] at hcov ⊢
  refine hcov.imp ?_ (Or.imp_left ?_)
  · refine foldl_arrive id fun m hm b harr ↦ ?_
    rw [arrive_congr]
    · exact harr
    · intro r hid
      have hne : r ≠ requestId := fun heq ↦ hfresh (heq ▸ Booked.mem_onTheWay_of_answer hm hid)
      rw [request_pending, Function.update_of_ne hne]
  · rw [destroying_iff, destroying_iff]
    exact Or.imp_left fun hm ↦ List.mem_append_left _ hm

theorem sendDestroy (c : ChannelId) : (h.send (.destroy c)).Tended := by
  refine ht.of_hub rfl fun c' _ hcov ↦ ?_
  rw [covered_iff] at hcov ⊢
  refine hcov.imp_right (Or.imp_left ?_)
  rw [destroying_iff, destroying_iff]
  exact Or.imp_left fun hm ↦ List.mem_append_left _ hm

/-- Only channels and rows change, and what is doomed need not be kept. -/
theorem of_touches {h' : Host} (htouch : h.Touches h')
    (hc : ∀ c ∈ h.registeredIds, h.doomed c ∨ (h.alive c → h'.alive c)) : h'.Tended := by
  obtain ⟨channels, rows, rfl⟩ := htouch
  refine ht.of_hub rfl fun c hmem hcov ↦ ?_
  rcases hc c hmem with hdoomed | hkeep
  · exact Bool.or_eq_true_iff.mpr (Or.inr hdoomed)
  · rw [covered_iff] at hcov ⊢
    exact hcov.imp_left (foldl_arrive hkeep fun _ _ _ ↦ id)

/-! ### Steps of the hub -/

theorem timeout {q : SpawnRequest} (hq : h.pending requestId = some q)
    (hcare : h.careful (.timeout requestId)) : ((h.forget requestId).spawnFailed q).Tended := by
  have hnot : ∀ c ∈ h.registeredIds, h.doomed c ∨ .spawnOk requestId c ∉ h.toHub ∧
      ¬ q.rehosts c := by
    intro c hc
    have hcare := List.all_eq_true.mp hcare c hc
    rw [hq, Option.any_some, Bool.or_eq_true, Bool.not_eq_true', Bool.or_eq_false_iff] at hcare
    refine hcare.imp_right fun hno ↦ ⟨fun hm ↦ ?_, Bool.eq_false_iff.mp hno.2⟩
    exact Bool.eq_false_iff.mp hno.1 (List.contains_iff_mem.mpr hm)
  have hforget : (h.forget requestId).Tended := by
    refine ht.of_hub rfl fun c hc hcov ↦ ?_
    rcases hnot c hc with hdoomed | ⟨hno, -⟩
    · exact Bool.or_eq_true_iff.mpr (Or.inr hdoomed)
    rw [covered_iff] at hcov ⊢
    refine hcov.imp_left (foldl_arrive id fun m hm b harr ↦ ?_)
    by_cases hid : m.requestId = some requestId
    · -- The only answers to the request that matter to this channel are failures.
      cases m with
      | channelExit | channelStates => cases hid
      | spawnErr r =>
        obtain rfl : r = requestId := Option.some.inj hid
        rw [arrive, forget_pending, Function.update_self]
        exact Bool.and_eq_true_iff.mpr ⟨(Bool.and_eq_true_iff.mp harr).1, rfl⟩
      | spawnOk r c' =>
        obtain rfl : r = requestId := Option.some.inj hid
        have hne : c' ≠ c := fun heq ↦ hno (heq ▸ hm)
        simp only [arrive, hne, decide_false, Bool.false_and, Bool.or_false] at harr ⊢
        exact harr
    · rw [arrive_congr]
      · exact harr
      · intro r hr
        have hne : r ≠ requestId := fun heq ↦ hid (heq ▸ hr)
        rw [forget_pending, Function.update_of_ne hne]
  refine hforget.of_touches (touches_spawnFailed _ q) fun c hc ↦ ?_
  exact (hnot c hc).imp_right fun hno halive ↦ alive_spawnFailed halive hno.2

theorem retireChannel (hc : c ∈ h.registeredIds → h.doomed c) : (h.retireChannel c).Tended := by
  refine ht.of_touches ⟨_, _, rfl⟩ fun c' hc' ↦ ?_
  by_cases heq : c' = c
  · rw [heq] at hc' ⊢
    exact Or.inl (hc hc')
  · rw [alive_retireChannel_of_ne heq]
    exact Or.inr id

/-- Hanging up, and whatever else the hub does to its channels. -/
theorem hangUp {h' : Host} (htouch : h.hangUp.Touches h')
    (hc : h.hostType = .ssh ∨ ∀ c ∈ h.registeredIds, h'.alive c ∨ h.destroying c) : h'.Tended := by
  obtain ⟨channels, rows, rfl⟩ := htouch
  refine ht.of_hub rfl fun c hmem _ ↦ ?_
  rw [covered_iff]
  rcases hc with hssh | hc
  · exact Or.inr (Or.inr (closed_iff.mpr ⟨hssh, rfl⟩))
  · refine (hc c hmem).imp id fun hdes ↦ Or.inl ?_
    rw [destroying_iff] at hdes ⊢
    refine Or.inr ?_
    rcases hdes with hdes | ⟨n, hdes⟩
    · exact ⟨h.connection, List.mem_append_right _ (List.mem_map_of_mem hdes)⟩
    · exact ⟨n, List.mem_append_left _ hdes⟩

theorem closeSession (hl : h.Linked) (hcare : h.careful .closeSession) :
    h.closeSession.Tended := by
  have hcare : h.hostType = .ssh ∨ ∀ c ∈ h.registeredIds, h.destroying c := by
    rwa [careful, Bool.or_eq_true, decide_eq_true_eq, List.all_eq_true] at hcare
  rw [Host.closeSession]
  split
  case isTrue hup =>
    exact ht.hangUp ⟨_, _, rfl⟩ (hcare.imp_right fun hdes c hc ↦ Or.inr (hdes c hc))
  case isFalse hup =>
    refine ht.of_touches ⟨_, _, rfl⟩ fun c hc ↦ Or.inl (Bool.or_eq_true_iff.mpr ?_)
    rcases hcare with hssh | hdes
    · -- A connection over SSH that is not up is down.
      refine Or.inr (closed_iff.mpr ⟨hssh, ?_⟩)
      cases hlink : h.link with
      | down => rfl
      | handshake => exact absurd hlink (hl.ssh hssh)
      | up => exact absurd hlink hup
    · exact Or.inl (hdes c hc)

theorem drop (hcare : h.careful .drop) : h.hangUp.Tended := by
  refine ht.hangUp ⟨_, _, rfl⟩ ?_
  rw [careful, Bool.or_eq_true, decide_eq_true_eq, List.all_eq_true] at hcare
  exact hcare.imp_right fun hc c hmem ↦ Bool.or_eq_true_iff.mp (hc c hmem)

/-- A message does to the channels what was to be expected of it. -/
theorem dispatch (hb : h.Booked) (hl : h.Linked) {m : ToHub} {toHub : List ToHub}
    (hq : h.toHub = m :: toHub) (clients : Bool) :
    ({ h with toHub := toHub }.dispatch clients m).Tended := by
  obtain ⟨pending, link, htouch, hpend, -⟩ := touches_dispatch { h with toHub := toHub } clients m
  have halive : ∀ c, arrive h.pending c (h.alive c) m →
      ({ h with toHub := toHub }.dispatch clients m).alive c := fun c ↦ alive_dispatch hb hq
  obtain ⟨channels, rows, heq⟩ := htouch
  rw [heq] at halive ⊢
  refine ht.of_hub rfl fun c _ hcov ↦ ?_
  rw [covered_iff] at hcov ⊢
  rcases hcov with hexp | hdes | hclosed
  · left
    rw [expects, hq, List.foldl_cons] at hexp
    refine foldl_arrive (halive c) (fun m' hm' b harr ↦ ?_) hexp
    rw [arrive_congr]
    · exact harr
    · intro r hr
      refine hpend r fun hid ↦ ?_
      exact hb.notMem_of_cons hq hid m' hm' hr
  · exact Or.inr (Or.inl hdes)
  · exact absurd (closed_iff.mp hclosed).2 (hl.open_of_toHub hq)

theorem reconnect (hl : h.Linked) (hdown : h.link = .down) :
    h.reconnect.Tended := by
  rw [Host.reconnect]
  split
  case h_1 hdaemon =>
    -- The report names every registered channel.
    refine ht.of_hub rfl fun c hc hcov ↦ ?_
    rw [covered_iff] at hcov ⊢
    rcases hcov with hexp | hdes | hclosed
    · rw [expects, (hl.idle hdown).2] at hexp
      exact Or.inl (Bool.and_eq_true_iff.mpr ⟨hexp, List.contains_iff_mem.mpr hc⟩)
    · exact Or.inr (Or.inl hdes)
    · rw [(closed_iff.mp hclosed).1] at hdaemon
      cases hdaemon
  case h_2 =>
    constructor
    · exact fun c hc ↦ absurd hc List.not_mem_nil
    · exact fun p hp ↦ absurd hp List.not_mem_nil

end

/-! ### Steps of the agent -/

theorem expects_push {m : ToHub} :
    { h with toHub := h.toHub ++ [m] }.expects c = arrive h.pending c (h.expects c) m := by
  rw [expects, List.foldl_append]
  rfl

/-- A message that tells nothing bad of a channel leaves it covered. -/
theorem covered_push {m : ToHub} (hcov : h.covered c)
    (hm : h.doomed c ∨ arrive h.pending c true m) :
    { h with toHub := h.toHub ++ [m] }.covered c := by
  rcases hm with hdoomed | harr
  · exact Bool.or_eq_true_iff.mpr (Or.inr hdoomed)
  rw [covered_iff] at hcov ⊢
  refine hcov.imp_left fun hexp ↦ ?_
  rw [expects_push, hexp]
  exact harr

theorem covered_take {m : ToAgent} {toAgent : List ToAgent} (hq : h.toAgent = m :: toAgent)
    (hcov : h.covered c) : m = .destroy c ∨ { h with toAgent := toAgent }.covered c := by
  rw [covered_iff] at hcov ⊢
  rcases hcov with hexp | hdes | hclosed
  · exact Or.inr (Or.inl hexp)
  · rw [destroying_iff, hq, List.mem_cons, or_assoc] at hdes
    refine hdes.imp Eq.symm fun hdes ↦ Or.inr (Or.inl ?_)
    exact destroying_iff.mpr hdes
  · exact Or.inr (Or.inr (Or.inr hclosed))

theorem covered_takeStale {i n : ℕ} {m : ToAgent} (hq : h.stale[i]? = some (n, m))
    (hcov : h.covered c) :
    m = .destroy c ∨ { h with stale := h.stale.eraseIdx i }.covered c := by
  rw [covered_iff] at hcov ⊢
  rcases hcov with hexp | hdes | hclosed
  · exact Or.inr (Or.inl hexp)
  · rcases destroying_iff.mp hdes with hdes | ⟨n', hdes⟩
    · exact Or.inr (Or.inr (Or.inl (destroying_iff.mpr (Or.inl hdes))))
    · rcases (mem_iff_mem_eraseIdx hq).mp hdes with heq | hdes
      · exact Or.inl (Prod.mk.inj heq).2.symm
      · exact Or.inr (Or.inr (Or.inl (destroying_iff.mpr (Or.inr ⟨n', hdes⟩))))
  · exact Or.inr (Or.inr (Or.inr hclosed))

/-- What is left in the registry was there before, and is of another channel. -/
theorem registered_of_unregister {stage : ProcessStage} (hstage : stage ≠ .registered) {p : Process}
    (hp : (unregister c stage p).stage = .registered) :
    p.stage = .registered ∧ p.channelId ≠ c := by
  rw [unregister] at hp
  split at hp
  case isTrue => exact absurd hp hstage
  case isFalse hnot => exact ⟨hp, fun hc ↦ hnot ⟨hc, hp⟩⟩

theorem answer_nil (h : Host) : answer (h, []) = h := by rw [answer, List.append_nil]

theorem destroy (hcov : ∀ c' ∈ h.registeredIds, c' ≠ c → h.covered c')
    (hstray : ∀ p ∈ h.processes, p.stage ≠ .stray) :
    { h with processes := h.processes.map (unregister c .signalled) }.Tended := by
  constructor
  · intro c' hc'
    obtain ⟨p, hp, hpc, hstage⟩ := mem_registeredIds.mp hc'
    obtain ⟨p', hp', rfl⟩ := List.mem_map.mp hp
    rw [Shrinks.unregister_channelId] at hpc
    obtain ⟨hreg, hne⟩ := registered_of_unregister (by decide) hstage
    exact hcov c' (mem_registeredIds.mpr ⟨p', hp', hpc, hreg⟩) (hpc ▸ hne)
  · intro p hp
    obtain ⟨p', hp', rfl⟩ := List.mem_map.mp hp
    rw [unregister]
    split
    · exact ProcessStage.noConfusion
    · exact hstray p' hp'

/-- A process for which the hub has, or will have, a channel. -/
theorem start (ht : h.Tended) {p : Process} (hreg : p.stage = .registered)
    (hcov : h.covered p.channelId) : { h with processes := h.processes ++ [p] }.Tended := by
  constructor
  · intro c hc
    obtain ⟨p', hp', rfl, hstage⟩ := mem_registeredIds.mp hc
    rcases List.mem_append.mp hp' with hp' | hp'
    · exact ht.covered _ (mem_registeredIds.mpr ⟨p', hp', rfl, hstage⟩)
    · rw [List.mem_singleton.mp hp']
      exact hcov
  · intro p' hp'
    rcases List.mem_append.mp hp' with hp' | hp'
    · exact ht.stray p' hp'
    · rw [List.mem_singleton.mp hp', hreg]
      decide

theorem spawnErr (ht : h.Tended)
    (hcare : ∀ c ∈ h.registeredIds, h.doomed c ∨
      ¬ (h.pending requestId).any (SpawnRequest.rehosts c)) :
    { h with toHub := h.toHub ++ [ToHub.spawnErr requestId] }.Tended := by
  refine ht.of_hub rfl fun c hc hcov ↦ covered_push hcov ((hcare c hc).imp_right fun hno ↦ ?_)
  rw [arrive, Bool.true_and, Bool.not_eq_true', Bool.eq_false_iff]
  exact hno

theorem spawnOk (ht : h.Tended) (c : ChannelId) :
    { h with toHub := h.toHub ++ [ToHub.spawnOk requestId c] }.Tended :=
  ht.of_hub rfl fun _ _ hcov ↦ covered_push hcov (Or.inr rfl)

/-- A message that the agent handles, with the message already taken. -/
theorem handleMessage {m : ToAgent} {n : ℕ} {answered ok : Bool} {ulid : ChannelId}
    (hcov : ∀ c ∈ h.registeredIds, m = .destroy c ∨ h.covered c)
    (hstray : ∀ p ∈ h.processes, p.stage ≠ .stray) (hcare : h.carefulMessage answered ok ulid m) :
    (answer ((h.handleMessage n ok ulid m).1,
      if answered then (h.handleMessage n ok ulid m).2 else [])).Tended := by
  cases m with
  | destroy c =>
    have hother : ∀ c' ∈ h.registeredIds, c' ≠ c → h.covered c' := fun c' hc' hne ↦
      (hcov c' hc').resolve_left fun heq ↦ hne (ToAgent.destroy.inj heq).symm
    rw [Host.handleMessage, ite_self, answer_nil]
    split
    case isTrue => exact destroy hother hstray
    case isFalse hok =>
      refine ⟨fun c' hc' ↦ ?_, hstray⟩
      by_cases heq : c' = c
      · rw [heq] at hc' ⊢
        simp only [carefulMessage, hok, registered_iff.mpr hc', Bool.not_true,
          Bool.false_or] at hcare
        exact hcare
      · exact hother c' hc' heq
  | spawn r channelId =>
    have ht : h.Tended := ⟨fun c hc ↦ (hcov c hc).resolve_left ToAgent.noConfusion, hstray⟩
    rw [Host.handleMessage]
    rw [carefulMessage] at hcare
    cases hrefuses : h.refuses channelId ok with
    | true =>
      rw [hrefuses, if_pos rfl, Bool.or_eq_true, List.all_eq_true] at hcare
      rw [if_pos rfl]
      cases answered with
      | false => rwa [if_neg Bool.false_ne_true, answer_nil]
      | true =>
        rw [if_pos rfl]
        refine ht.spawnErr fun c hc ↦ ?_
        have hcare := hcare.resolve_left Bool.false_ne_true c hc
        rw [Bool.or_eq_true, Bool.not_eq_true'] at hcare
        exact hcare.symm.imp_right Bool.eq_false_iff.mp
    | false =>
      rw [hrefuses, if_neg Bool.false_ne_true, Bool.or_eq_true, Bool.and_eq_true] at hcare
      rw [if_neg Bool.false_ne_true]
      cases answered with
      | false =>
        rw [if_neg Bool.false_ne_true, answer_nil]
        exact ht.start rfl (hcare.resolve_left fun hrev ↦ Bool.false_ne_true hrev.1)
      | true =>
        rw [if_pos rfl]
        refine (ht.spawnOk (channelId.getD ulid)).start rfl ?_
        rcases hcare with ⟨-, hrev⟩ | hcov
        · rw [covered_iff, expects_push, arrive, hrev]
          simp
        · exact covered_push hcov (Or.inr rfl)

theorem finish (ht : h.Tended) {i : ℕ} {p : Process} (hq : h.processes[i]? = some p)
    (hcare : h.careful (.exit i)) : (h.finish i p).Tended := by
  have hlast : ∀ p' ∈ h.processes.eraseIdx i, p'.channelId = p.channelId →
      p'.stage ≠ .registered := by
    intro p' hp' hc
    rw [careful, hq, Option.all_some, List.all_eq_true] at hcare
    simpa [hc] using hcare p' hp'
  have hmem : ∀ p' ∈ (h.processes.set i { p with stage := .exited }).map
      (unregister p.channelId .stray), p'.stage = .exited ∨ p' ∈ h.processes.eraseIdx i := by
    intro p' hp'
    obtain ⟨p'', hp'', rfl⟩ := List.mem_map.mp hp'
    rcases (mem_set_iff_mem_eraseIdx hq).mp hp'' with rfl | hp''
    · rw [unregister, if_neg fun hpc ↦ ProcessStage.noConfusion hpc.2]
      exact Or.inl rfl
    · rw [unregister, if_neg fun hpc ↦ hlast p'' hp'' hpc.1 hpc.2]
      exact Or.inr hp''
  have hdone : { h with
      processes := (h.processes.set i { p with stage := .exited }).map
        (unregister p.channelId .stray) }.Tended := by
    constructor
    · intro c hc
      obtain ⟨p', hp', hpc, hstage⟩ := mem_registeredIds.mp hc
      have hp' := (hmem p' hp').resolve_left (by rw [hstage]; decide)
      exact ht.covered c (mem_registeredIds.mpr ⟨p', List.mem_of_mem_eraseIdx hp', hpc, hstage⟩)
    · intro p' hp' hstage
      have hp' := (hmem p' hp').resolve_left (by rw [hstage]; decide)
      exact ht.stray p' (List.mem_of_mem_eraseIdx hp') hstage
  rw [Host.finish]
  split
  case isFalse => exact hdone
  case isTrue =>
    refine hdone.of_hub rfl fun c hc hcov ↦ covered_push hcov (Or.inr ?_)
    obtain ⟨p', hp', rfl, hstage⟩ := mem_registeredIds.mp hc
    have hp' := (hmem p' hp').resolve_left (by rw [hstage]; decide)
    rw [arrive, Bool.true_and, decide_eq_true_eq]
    exact fun heq ↦ hlast p' hp' heq.symm hstage

/-- **The step lemma**: a careful step keeps the processes tended. -/
theorem step (ht : h.Tended) (hb : h.Booked) (hl : h.Linked) {e : HostEvent} {h' : Host}
    (hs : h.Moves e h') (hcare : h.careful e) : h'.Tended := by
  cases hs with
  | spawn hcan | restart hcan | respawn hcan | rehost hcan =>
    exact ht.request (notMem_onTheWay hcan)
  | @restartLive r c _ hcan hrow =>
    refine (ht.sendDestroy c).request ?_
    rw [Booked.onTheWay_sendDestroy]
    exact notMem_onTheWay hcan
  | timeout hq => exact ht.timeout hq hcare
  | @destroyChannel c hup =>
    refine (ht.sendDestroy c).retireChannel fun _ ↦ Bool.or_eq_true_iff.mpr (Or.inl ?_)
    exact destroying_iff.mpr (Or.inl (List.mem_append_right _ List.mem_cons_self))
  | @deleteChannel c hup =>
    refine ht.retireChannel fun hc ↦ ?_
    simpa [careful, hup, registered_iff.mpr hc] using hcare
  | closeSession => exact ht.closeSession hl hcare
  | detach hc =>
    refine ht.of_touches ⟨_, _, rfl⟩ fun c' _ ↦ Or.inr ?_
    exact alive_updateChannelStatus (by decide)
  | receive hq => exact ht.dispatch hb hl hq _
  | drop => exact ht.drop hcare
  | connect hdown => exact ht.reconnect hl hdown
  | handle hq hulid =>
    rw [careful, hq] at hcare
    exact handleMessage (fun c hc ↦ covered_take hq (ht.covered c hc)) ht.stray hcare
  | handleStale hq hulid =>
    rw [careful, hq] at hcare
    rw [← answer_nil (Host.handleMessage _ _ _ _ _).1]
    exact handleMessage (fun c hc ↦ covered_takeStale hq (ht.covered c hc)) ht.stray hcare
  | @loseStale i n m hq =>
    refine ⟨fun c hc ↦ ?_, ht.stray⟩
    rcases covered_takeStale hq (ht.covered c hc) with rfl | hcov
    · have hreg : h.registered c := registered_iff.mpr hc
      simpa only [careful, hq, hreg, Bool.not_true, Bool.false_or] using hcare
    · exact hcov
  | exit hq => exact ht.finish hq hcare

end Tended

/-- What every state of a careful run has. -/
structure Kept (h : Host) : Prop where
  booked : h.Booked
  linked : h.Linked
  tended : h.Tended

theorem kept_new (hostType : HostType) : (new hostType).Kept where
  booked := ⟨List.nodup_nil, nofun, nofun, nofun⟩
  linked := ⟨fun _ ↦ ⟨rfl, rfl⟩, nofun⟩
  tended := ⟨nofun, nofun⟩

theorem Kept.step (hk : h.Kept) {e : HostEvent} {h' : Host} (hs : h.step e = some h')
    (hcare : h.careful e) : h'.Kept := by
  have hmoves := moves_of_step hs
  exact ⟨hk.booked.step hk.linked hmoves, hk.linked.step hmoves,
    hk.tended.step hk.booked hk.linked hmoves hcare⟩

end Host

namespace Hosts

variable {ι : Type*} [DecidableEq ι]

def NoLeak (s : Hosts ι) : Prop := ∀ i, (s i).NoLeak

def careful (s : Hosts ι) (e : ι × HostEvent) : Bool := (s e.1).careful e.2

/-- The session of a daemon is closed with a process running. -/
example : (Runs.run Host.step (.new .daemon)
    [.connect, .receive false, .spawn "r", .handle true "c", .receive false, .closeSession]).any
      fun h ↦ decide ¬ h.NoLeak := by decide

/-- A SPAWN times out, and the agent answers it afterwards. -/
def lateReply : List HostEvent :=
  [.connect, .receive false, .spawn "r", .timeout "r", .handle true "c", .receive false]

theorem late_reply_leaks : ¬ ∀ (hostType : Unit → HostType) (es : List (Unit × HostEvent))
    (s : Hosts Unit), Runs.run step (new hostType) es = some s → s.NoLeak := by
  intro hall
  have h : (Runs.run step (new fun _ : Unit ↦ HostType.daemon) (lateReply.map ((), ·))).all
      fun s ↦ decide ¬ (s ()).NoLeak := by decide
  have hs : (Runs.run step (new fun _ : Unit ↦ HostType.daemon)
    (lateReply.map ((), ·))).isSome := by
    decide
  obtain ⟨s, hs⟩ := Option.isSome_iff_exists.mp hs
  rw [hs, Option.all_some, decide_eq_true_eq] at h
  exact h (hall _ _ s hs ())

theorem step_eq_some_iff {s s' : Hosts ι} {e : ι × HostEvent} :
    s.step e = some s' ↔ ∃ h, (s e.1).step e.2 = some h ∧ Function.update s e.1 h = s' := by
  rw [step, Option.map_eq_some_iff]

/-- **No process without a channel**, in every state that a run of careful steps reaches. -/
theorem noLeak_of_careful (hostType : ι → HostType) (es : List (ι × HostEvent))
    (hcare : Runs.Along step (fun s e _ ↦ s.careful e) (new hostType) es) :
    Runs.Along step (fun _ _ s' ↦ s'.NoLeak) (new hostType) es := by
  refine Runs.along_of_invariant (fun s ↦ ∀ i, (s i).Kept) ?_
    (fun i ↦ Host.kept_new (hostType i)) hcare
  intro s e s' hkept hc hs
  obtain ⟨h, hstep, rfl⟩ := step_eq_some_iff.mp hs
  have hkept' : ∀ i, (Function.update s e.1 h i).Kept := by
    intro i
    by_cases heq : i = e.1
    · rw [heq, Function.update_self]
      exact (hkept e.1).step hstep hc
    · rw [Function.update_of_ne heq]
      exact hkept i
  exact ⟨hkept', fun i ↦ (hkept' i).tended.noLeak⟩

/-- A daemon that is hung up on and a restart, and an SSH host whose channel is spawned again. -/
def carefulRun : List (Bool × HostEvent) :=
  [(false, .connect), (false, .receive false), (false, .spawn "r1"), (false, .handle true "c"),
    (false, .receive false), (false, .drop), (false, .connect), (false, .receive false),
    (false, .restart "r2" "c" false), (false, .handle true ""), (false, .exit 0),
    (false, .handle true ""), (false, .receive false), (true, .connect), (true, .spawn "r3"),
    (true, .handle true "d"), (true, .receive false), (true, .drop), (true, .connect),
    (true, .rehost "r4" "d" true), (true, .handle true ""), (true, .receive true),
    (true, .destroyChannel "d")]

theorem carefulRun_noLeak :
    (Runs.run step (new fun ssh ↦ if ssh then .ssh else .daemon) carefulRun).isSome ∧
    Runs.Along step (fun s e _ ↦ s.careful e) (new fun ssh ↦ if ssh then .ssh else .daemon)
      carefulRun ∧
    Runs.Along step (fun _ _ s' ↦ s'.NoLeak) (new fun ssh ↦ if ssh then .ssh else .daemon)
      carefulRun := by
  have hcare : Runs.Along step (fun s e _ ↦ s.careful e)
      (new fun ssh ↦ if ssh then .ssh else .daemon) carefulRun := by decide
  exact ⟨by decide, hcare, noLeak_of_careful _ carefulRun hcare⟩

end Hosts

end Lasterm.Wire
