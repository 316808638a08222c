import Mathlib.Data.List.Perm.Basic
import Lasterm.Wire.Processes

/-!
# Requests and their answers

`Host.Moves` says what each event needs and does. Two invariants follow that every step keeps.
`Host.Linked` is about the connection: a closed one holds nothing. `Host.Booked` is about the
messages on the way: a request has one SPAWN or one answer there, a SPAWN names the channel of its
request, and its answer is about that channel, or about a new one that nothing else is about.

Most steps add nothing to the messages, the requests and the rows (`Host.Shrinks`), and what the hub
does to its channels leaves all else as it is (`Host.Touches`).
-/

namespace Lasterm.Wire

open Hub
open Runs (Ensures)

namespace Host

variable {h : Host} {c : ChannelId} {requestId : String}

/-! ## Steps -/

/-- What a step needs and what it does, event by event. -/
inductive Moves (h : Host) : HostEvent → Host → Prop where
  | spawn {r : String} (hcan : h.canRequest r) : Moves h (.spawn r) (h.request r .spawn)
  | restart {r : String} {c : ChannelId} {resumed : Bool} (hcan : h.canRequest r)
      (hrow : (h.rows c).isSome) : Moves h (.restart r c resumed) (h.request r (.restart c))
  | restartLive {r : String} {c : ChannelId} {resumed : Bool} (hcan : h.canRequest r)
      (hrow : (h.rows c).isSome) :
      Moves h (.restart r c resumed) ((h.send (.destroy c)).request r (.restart c))
  | respawn {r : String} {c : ChannelId} (hcan : h.canRequest r) (hrow : (h.rows c).isSome) :
      Moves h (.respawn r c) (h.request r (.respawn c))
  | rehost {r : String} {c : ChannelId} {reattach : Bool} (hcan : h.canRequest r) (hc : h.alive c) :
      Moves h (.rehost r c reattach) (h.request r (.rehost c reattach))
  | timeout {r : String} {q : SpawnRequest} (hq : h.pending r = some q) :
      Moves h (.timeout r) ((h.forget r).spawnFailed q)
  | destroyChannel {c : ChannelId} (hup : h.link = .up) :
      Moves h (.destroyChannel c) ((h.send (.destroy c)).retireChannel c)
  | deleteChannel {c : ChannelId} (hup : h.link ≠ .up) :
      Moves h (.destroyChannel c) (h.retireChannel c)
  | closeSession : Moves h .closeSession h.closeSession
  | detach {c : ChannelId} (hc : h.channels c = some .live) :
      Moves h (.detach c) (h.updateChannelStatus c .orphan)
  | receive {clients : Bool} {m : ToHub} {toHub : List ToHub} (hq : h.toHub = m :: toHub) :
      Moves h (.receive clients) ({ h with toHub := toHub }.dispatch clients m)
  | drop : Moves h .drop h.hangUp
  | connect (hdown : h.link = .down) : Moves h .connect h.reconnect
  | handle {ok : Bool} {ulid : ChannelId} {m : ToAgent} {toAgent : List ToAgent}
      (hq : h.toAgent = m :: toAgent) (hulid : h.allots ulid m) :
      Moves h (.handle ok ulid)
        (answer ({ h with toAgent := toAgent }.handleMessage h.connection ok ulid m))
  | handleStale {i : ℕ} {ok : Bool} {ulid : ChannelId} {connection : ℕ} {m : ToAgent}
      (hq : h.stale[i]? = some (connection, m)) (hulid : h.allots ulid m) :
      Moves h (.handleStale i ok ulid)
        ({ h with stale := h.stale.eraseIdx i }.handleMessage connection ok ulid m).1
  | loseStale {i : ℕ} {connection : ℕ} {m : ToAgent} (hq : h.stale[i]? = some (connection, m)) :
      Moves h (.loseStale i) { h with stale := h.stale.eraseIdx i }
  | exit {i : ℕ} {p : Process} (hq : h.processes[i]? = some p) : Moves h (.exit i) (h.finish i p)

theorem moves_of_step {e : HostEvent} : Ensures (h.Moves e) (h.step e) := by
  cases e with
  | spawn r => exact .of_ite fun hcan ↦ .spawn hcan
  | restart r c resumed =>
    refine .of_ite fun hguard ↦ ?_
    obtain ⟨hcan, hrow⟩ := (Bool.and_eq_true _ _).mp hguard
    split
    · exact .restartLive hcan hrow
    · exact .restart hcan hrow
  | respawn r c =>
    refine .of_ite fun hguard ↦ ?_
    rw [Bool.and_eq_true, Bool.and_eq_true, decide_eq_true_eq] at hguard
    exact .respawn hguard.1.1 (hguard.2 ▸ rfl)
  | rehost r c reattach =>
    refine .of_ite fun hguard ↦ ?_
    obtain ⟨hcan, hc⟩ := (Bool.and_eq_true _ _).mp hguard
    exact .rehost hcan hc
  | timeout r =>
    rw [step]
    split
    case h_1 q hq => exact .of_some (.timeout hq)
    case h_2 => exact .of_none
  | destroyChannel c =>
    refine .of_ite fun _ ↦ ?_
    split
    case isTrue hup => exact .destroyChannel hup
    case isFalse hup => exact .deleteChannel hup
  | closeSession => exact .of_some .closeSession
  | detach c => exact .of_ite fun hc ↦ .detach hc
  | receive clients =>
    rw [step]
    split
    case h_1 m toHub hq => exact .of_some (.receive hq)
    case h_2 => exact .of_none
  | drop =>
    rw [step]
    exact .guardNot fun _ ↦ .of_some .drop
  | connect => exact .of_ite fun hdown ↦ .connect hdown
  | handle ok ulid =>
    rw [step]
    split
    case h_1 m toAgent hq => exact .of_ite fun hulid ↦ .handle hq hulid
    case h_2 => exact .of_none
  | handleStale i ok ulid =>
    rw [step]
    split
    case h_1 connection m hq => exact .of_ite fun hulid ↦ .handleStale hq hulid
    case h_2 => exact .of_none
  | loseStale i => exact .of_ite fun hi ↦ .loseStale (List.getElem?_eq_getElem hi)
  | exit i =>
    rw [step]
    split
    case h_1 p hq =>
      exact .guardNot fun _ ↦ .of_some (.exit hq)
    case h_2 => exact .of_none

/-! ## Messages and requests -/

/-- A SPAWN names the channel of its request, which the database has. -/
def Asked (h : Host) : ToAgent → Prop
  | .spawn requestId channelId =>
    (∀ q, h.pending requestId = some q → target q = channelId) ∧
      ∀ c, channelId = some c → (h.rows c).isSome
  | .destroy _ => True

/-- A SPAWN_OK is about the channel of its request, or a new one that nothing else is about. -/
def Answered (h : Host) : ToHub → Prop
  | .spawnOk requestId c =>
    (∃ p ∈ h.processes, p.channelId = c) ∧ ∀ q, h.pending requestId = some q →
      target q = some c ∧ (h.rows c).isSome ∨
        q = .spawn ∧ h.rows c = none ∧ ∀ r, .spawnOk r c ∈ h.toHub → r = requestId
  | _ => True

/-- What the messages on the way have to do with the requests of the hub. -/
structure Booked (h : Host) : Prop where
  distinct : h.onTheWay.Nodup
  asked : ∀ m ∈ h.toAgent, h.Asked m
  answered : ∀ m ∈ h.toHub, h.Answered m
  recorded : ∀ c, (h.channels c).isSome → (h.rows c).isSome

/-- Nothing is added to the messages, the requests and the rows. -/
structure Shrinks (h h' : Host) : Prop where
  toAgent : h'.toAgent.Sublist h.toAgent
  toHub : h'.toHub.Sublist h.toHub
  pending : ∀ r q, h'.pending r = some q → h.pending r = some q
  rows : ∀ c, (h'.rows c).isSome = (h.rows c).isSome
  channels : ∀ c, (h'.channels c).isSome → (h.channels c).isSome ∨ (h.rows c).isSome
  processes : ∀ p ∈ h.processes, ∃ p' ∈ h'.processes, p'.channelId = p.channelId

namespace Booked

theorem shrink {h' : Host} (hb : h.Booked) (hs : h.Shrinks h') : h'.Booked where
  distinct := hb.distinct.sublist ((hs.toAgent.filterMap _).append (hs.toHub.filterMap _))
  asked := by
    intro m hm
    have hasked := hb.asked m (hs.toAgent.subset hm)
    cases m with
    | destroy => trivial
    | spawn r co =>
      refine ⟨fun q hq ↦ hasked.1 q (hs.pending r q hq), fun c hc ↦ ?_⟩
      rw [hs.rows]
      exact hasked.2 c hc
  answered := by
    intro m hm
    have hans := hb.answered m (hs.toHub.subset hm)
    cases m with
    | spawnErr | channelExit | channelStates => trivial
    | spawnOk r c =>
      obtain ⟨⟨p, hp, rfl⟩, hq⟩ := hans
      refine ⟨hs.processes p hp, fun q hpend ↦ (hq q (hs.pending r q hpend)).imp ?_ ?_⟩
      · rw [hs.rows]
        exact id
      · rintro ⟨rfl, hrow, huniq⟩
        refine ⟨rfl, ?_, fun r' hr' ↦ huniq r' (hs.toHub.subset hr')⟩
        rw [← Option.not_isSome_iff_eq_none, hs.rows, hrow]
        exact Bool.false_ne_true
  recorded := by
    intro c hc
    rw [hs.rows]
    exact (hs.channels c hc).elim (hb.recorded c) id

/-- A message to the hub that is not about a request or a new channel of another one. -/
theorem pushHub (hb : h.Booked) {m : ToHub} (hid : ∀ r, m.requestId = some r → r ∉ h.onTheWay)
    (hans : { h with toHub := h.toHub ++ [m] }.Answered m)
    (hsep : ∀ r c, .spawnOk r c ∈ h.toHub → h.rows c = none → ∀ r', m ≠ .spawnOk r' c) :
    { h with toHub := h.toHub ++ [m] }.Booked where
  distinct := by
    simp only [onTheWay, List.filterMap_append, ← List.append_assoc]
    refine List.nodup_append.mpr ⟨hb.distinct, ?_, fun r hr r' hr' heq ↦ ?_⟩
    · cases hm : m.requestId <;> simp [hm]
    · simp only [List.filterMap_cons, List.filterMap_nil] at hr'
      have hm : m.requestId = some r := by grind
      exact hid r hm hr
  asked := hb.asked
  answered := by
    intro m' hm'
    rcases List.mem_append.mp hm' with hm' | hm'
    · have hans' := hb.answered m' hm'
      cases m' with
      | spawnErr | channelExit | channelStates => trivial
      | spawnOk r c =>
        refine ⟨hans'.1, fun q hq ↦ (hans'.2 q hq).imp_right ?_⟩
        rintro ⟨rfl, hrow, huniq⟩
        refine ⟨rfl, hrow, fun r' hr' ↦ ?_⟩
        rcases List.mem_append.mp hr' with hr' | hr'
        · exact huniq r' hr'
        · exact absurd (List.mem_singleton.mp hr').symm (hsep r c hm' hrow r')
    · rw [List.mem_singleton.mp hm']
      exact hans
  recorded := hb.recorded

theorem onTheWay_sendDestroy (h : Host) (c : ChannelId) :
    (h.send (.destroy c)).onTheWay = h.onTheWay := by
  rw [onTheWay, send_toAgent, List.filterMap_append]
  exact congrArg (· ++ _) (List.append_nil _)

theorem sendDestroy (hb : h.Booked) (c : ChannelId) : (h.send (.destroy c)).Booked where
  distinct := by
    rw [onTheWay_sendDestroy]
    exact hb.distinct
  asked := by
    intro m hm
    rcases List.mem_append.mp hm with hm | hm
    · exact hb.asked m hm
    · rw [List.mem_singleton.mp hm]
      trivial
  answered := hb.answered
  recorded := hb.recorded

theorem mem_onTheWay_of_spawn {channelId : Option ChannelId}
    (hm : .spawn requestId channelId ∈ h.toAgent) : requestId ∈ h.onTheWay :=
  List.mem_append_left _ (List.mem_filterMap.mpr ⟨_, hm, rfl⟩)

theorem mem_onTheWay_of_answer {m : ToHub} (hm : m ∈ h.toHub) (hid : m.requestId = some requestId) :
    requestId ∈ h.onTheWay :=
  List.mem_append_right _ (List.mem_filterMap.mpr ⟨m, hm, hid⟩)

/-- A request with a new id. -/
theorem request (hb : h.Booked) {q : SpawnRequest} (hfresh : requestId ∉ h.onTheWay)
    (hrow : ∀ c, target q = some c → (h.rows c).isSome) : (h.request requestId q).Booked where
  distinct := by
    have hperm : (h.request requestId q).onTheWay.Perm (requestId :: h.onTheWay) := by
      simp only [onTheWay, Host.request, send, List.filterMap_append, List.append_assoc]
      exact List.perm_middle
    exact hperm.nodup_iff.mpr (List.nodup_cons.mpr ⟨hfresh, hb.distinct⟩)
  asked := by
    intro m hm
    rcases List.mem_append.mp hm with hm | hm
    · have hasked := hb.asked m hm
      cases m with
      | destroy => trivial
      | spawn r co =>
        have hne : r ≠ requestId := fun heq ↦ hfresh (heq ▸ mem_onTheWay_of_spawn hm)
        refine ⟨fun q' hq' ↦ hasked.1 q' ?_, hasked.2⟩
        rwa [request_pending, Function.update_of_ne hne] at hq'
    · rw [List.mem_singleton.mp hm]
      refine ⟨fun q' hq' ↦ ?_, hrow⟩
      rw [request_pending, Function.update_self, Option.some.injEq] at hq'
      rw [hq']
  answered := by
    intro m hm
    have hans := hb.answered m hm
    cases m with
    | spawnErr | channelExit | channelStates => trivial
    | spawnOk r c =>
      have hne : r ≠ requestId := fun heq ↦ hfresh (heq ▸ mem_onTheWay_of_answer hm rfl)
      refine ⟨hans.1, fun q' hq' ↦ hans.2 q' ?_⟩
      rwa [request_pending, Function.update_of_ne hne] at hq'
  recorded := hb.recorded

/-- The row of a new channel that no SPAWN_OK on the way is about. -/
theorem createChannel (hb : h.Booked) (hnew : ∀ r, .spawnOk r c ∉ h.toHub) :
    (h.createChannel c).Booked where
  distinct := hb.distinct
  asked := by
    intro m hm
    have hasked := hb.asked m hm
    cases m with
    | destroy => trivial
    | spawn r co =>
      refine ⟨hasked.1, fun c' hc' ↦ ?_⟩
      by_cases heq : c' = c
      · rw [heq, createChannel_rows, Function.update_self]
        rfl
      · rw [createChannel_rows, Function.update_of_ne heq]
        exact hasked.2 c' hc'
  answered := by
    intro m hm
    have hans := hb.answered m hm
    cases m with
    | spawnErr | channelExit | channelStates => trivial
    | spawnOk r c' =>
      have hne : c' ≠ c := fun heq ↦ hnew r (heq ▸ hm)
      refine ⟨hans.1, ?_⟩
      rw [createChannel_rows, Function.update_of_ne hne]
      exact hans.2
  recorded := by
    intro c' hc'
    by_cases heq : c' = c
    · rw [heq, createChannel_rows, Function.update_self]
      rfl
    · rw [createChannel_channels, Function.update_of_ne heq] at hc'
      rw [createChannel_rows, Function.update_of_ne heq]
      exact hb.recorded c' hc'

end Booked

/-! ## What each operation adds -/

namespace Shrinks

theorem refl (h : Host) : h.Shrinks h where
  toAgent := List.Sublist.refl _
  toHub := List.Sublist.refl _
  pending _ _ := id
  rows _ := rfl
  channels _ := Or.inl
  processes p hp := ⟨p, hp, rfl⟩

theorem trans {h h' h'' : Host} (hs : h.Shrinks h') (hs' : h'.Shrinks h'') : h.Shrinks h'' where
  toAgent := hs'.toAgent.trans hs.toAgent
  toHub := hs'.toHub.trans hs.toHub
  pending r q hq := hs.pending r q (hs'.pending r q hq)
  rows c := (hs'.rows c).trans (hs.rows c)
  channels c hc := by
    rcases hs'.channels c hc with hc | hc
    · exact hs.channels c hc
    · rw [hs.rows] at hc
      exact Or.inr hc
  processes p hp := by
    obtain ⟨p', hp', heq⟩ := hs.processes p hp
    obtain ⟨p'', hp'', heq'⟩ := hs'.processes p' hp'
    exact ⟨p'', hp'', heq'.trans heq⟩

theorem isSome_update_map {f : ChannelId → Option ChannelStatus} {status : ChannelStatus}
    (c c' : ChannelId) :
    (Function.update f c ((f c).map fun _ ↦ status) c').isSome = (f c').isSome := by
  by_cases heq : c' = c
  · rw [heq, Function.update_self, Option.isSome_map]
  · rw [Function.update_of_ne heq]

theorem updateChannelStatus (h : Host) (c : ChannelId) (status : ChannelStatus) :
    h.Shrinks (h.updateChannelStatus c status) :=
  { refl h with
    rows := isSome_update_map c
    channels := fun c' hc' ↦ by
      rw [updateChannelStatus_channels, isSome_update_map] at hc'
      exact Or.inl hc' }

theorem retireChannel (h : Host) (c : ChannelId) : h.Shrinks (h.retireChannel c) :=
  { updateChannelStatus h c .dead with
    channels := fun c' hc' ↦ by
      by_cases heq : c' = c
      · rw [heq, Host.retireChannel, deleteChannel_channels, Function.update_self] at hc'
        cases hc'
      · rw [Host.retireChannel, deleteChannel_channels, Function.update_of_ne heq] at hc'
        exact (updateChannelStatus h c .dead).channels c' hc' }

theorem setLive (hrow : (h.rows c).isSome) : h.Shrinks (h.setLive c) :=
  { refl h with
    rows := isSome_update_map c
    channels := fun c' hc' ↦ by
      by_cases heq : c' = c
      · exact Or.inr (heq ▸ hrow)
      · rw [setLive_channels, Function.update_of_ne heq] at hc'
        exact Or.inl hc' }

theorem forget (h : Host) (requestId : String) : h.Shrinks (h.forget requestId) :=
  { refl h with
    pending := fun r q hq ↦ by
      rw [forget_pending, Function.update_apply] at hq
      split at hq
      · cases hq
      · exact hq }

theorem spawnFailed (h : Host) (q : SpawnRequest) : h.Shrinks (h.spawnFailed q) := by
  cases q with
  | spawn | restart | respawn => exact refl h
  | rehost c => exact updateChannelStatus h c .dead

theorem hangUp (h : Host) : h.Shrinks h.hangUp :=
  { refl h with
    toAgent := List.nil_sublist _
    toHub := List.nil_sublist _ }

theorem closeSession (h : Host) : h.Shrinks h.closeSession := by
  have hmark : ∀ h : Host, h.Shrinks { h with
      channels := fun c ↦ (h.channels c).map fun _ ↦ .dead
      rows := fun c ↦ if h.alive c then (h.rows c).map fun _ ↦ .dead else h.rows c } := by
    intro h
    exact { refl h with
      rows := fun c ↦ by
        dsimp only
        split
        · exact Option.isSome_map
        · rfl
      channels := fun c hc ↦ by
        rw [Option.isSome_map] at hc
        exact Or.inl hc }
  rw [Host.closeSession]
  split
  · exact (hangUp h).trans (hmark _)
  · exact hmark h

/-- The report of the daemon. -/
theorem channelStates (h : Host) (clients : Bool) (ids : List ChannelId) :
    h.Shrinks (h.dispatch clients (.channelStates ids)) :=
  { refl h with
    rows := fun c ↦ by
      simp only [dispatch]
      split
      · rfl
      · split
        · rfl
        · exact Option.isSome_map
    channels := fun c hc ↦ by
      rw [dispatch, Option.isSome_map] at hc
      exact Or.inl hc }

theorem unregister_channelId (c : ChannelId) (stage : ProcessStage) (p : Process) :
    (unregister c stage p).channelId = p.channelId := by
  rw [unregister]
  split <;> rfl

/-- Processes may change but for their channels. -/
theorem processes_map {h : Host} {f : Process → Process} (hf : ∀ p, (f p).channelId = p.channelId) :
    h.Shrinks { h with processes := h.processes.map f } :=
  { refl h with
    processes := fun p hp ↦ ⟨f p, List.mem_map_of_mem hp, hf p⟩ }

theorem loseStale (h : Host) (i : ℕ) : h.Shrinks { h with stale := h.stale.eraseIdx i } :=
  { refl h with }

theorem processes_append (h : Host) (p : Process) :
    h.Shrinks { h with processes := h.processes ++ [p] } :=
  { refl h with
    processes := fun p' hp' ↦ ⟨p', List.mem_append_left _ hp', rfl⟩ }

theorem handleMessage (h : Host) (connection : ℕ) (ok : Bool) (ulid : ChannelId) (m : ToAgent) :
    h.Shrinks (h.handleMessage connection ok ulid m).1 := by
  cases m with
  | spawn r channelId =>
    rw [Host.handleMessage]
    split
    · exact refl h
    · exact processes_append h _
  | destroy c =>
    rw [Host.handleMessage]
    split
    · exact processes_map (unregister_channelId c .signalled)
    · exact refl h

end Shrinks

/-! ## The records over a step -/

namespace Booked

/-- The answer that is taken is the only one to its request. -/
theorem notMem_of_cons (hb : h.Booked) {m : ToHub} {toHub : List ToHub} (hq : h.toHub = m :: toHub)
    (hid : m.requestId = some requestId) : ∀ m' ∈ toHub, m'.requestId ≠ some requestId := by
  intro m' hm' hid'
  have hnd : (h.toHub.filterMap ToHub.requestId).Nodup := hb.distinct.of_append_right
  rw [hq, List.filterMap_cons_some hid, List.nodup_cons] at hnd
  exact hnd.1 (List.mem_filterMap.mpr ⟨m', hm', hid'⟩)

/-- What a SPAWN_OK with a pending request finds. -/
theorem answered_cons (hb : h.Booked) {q : SpawnRequest} {toHub : List ToHub}
    (hq : h.toHub = .spawnOk requestId c :: toHub) (hpend : h.pending requestId = some q) :
    target q = some c ∧ (h.rows c).isSome ∨
      q = .spawn ∧ h.rows c = none ∧ ∀ r, .spawnOk r c ∉ toHub := by
  have hmem : .spawnOk requestId c ∈ h.toHub := hq ▸ List.mem_cons_self
  refine ((hb.answered _ hmem).2 q hpend).imp_right ?_
  rintro ⟨rfl, hrow, huniq⟩
  refine ⟨rfl, hrow, fun r hr ↦ ?_⟩
  have hr' : r = requestId := huniq r (hq ▸ List.mem_cons_of_mem _ hr)
  exact hb.notMem_of_cons hq rfl _ hr (congrArg some hr')

theorem spawned (hb : h.Booked) {clients : Bool} {q : SpawnRequest}
    (hq : target q = some c ∧ (h.rows c).isSome ∨
      q = .spawn ∧ h.rows c = none ∧ ∀ r, .spawnOk r c ∉ h.toHub) :
    (h.spawned c clients q).Booked := by
  rcases hq with ⟨htarget, hrow⟩ | ⟨rfl, hrow, hnew⟩
  · cases q with
    | spawn => cases htarget
    | restart previous =>
      obtain rfl : previous = c := Option.some.inj htarget
      rw [Host.spawned, applyRestartState, if_pos rfl]
      exact hb.shrink (Shrinks.setLive hrow)
    | respawn previous =>
      obtain rfl : previous = c := Option.some.inj htarget
      exact hb.shrink (Shrinks.setLive hrow)
    | rehost previous reattach =>
      rw [Host.spawned]
      split
      · exact hb.shrink (Shrinks.updateChannelStatus h previous .live)
      · exact hb
  · rw [Host.spawned, hrow, Option.isSome_none, if_neg Bool.false_ne_true]
    exact hb.createChannel hnew

theorem dispatch (hb : h.Booked) {m : ToHub} {toHub : List ToHub} (hq : h.toHub = m :: toHub)
    (clients : Bool) : ({ h with toHub := toHub }.dispatch clients m).Booked := by
  have hpop : h.Shrinks { h with toHub := toHub } :=
    { Shrinks.refl h with toHub := hq ▸ List.sublist_cons_self m toHub }
  have hb' := hb.shrink hpop
  cases m with
  | spawnOk requestId c =>
    rw [Host.dispatch]
    split
    case h_1 q hpend =>
      exact (hb'.shrink (Shrinks.forget _ requestId)).spawned (hb.answered_cons hq hpend)
    case h_2 => exact hb'
  | spawnErr requestId =>
    rw [Host.dispatch]
    split
    · exact (hb'.shrink (Shrinks.forget _ requestId)).shrink (Shrinks.spawnFailed _ _)
    · exact hb'
  | channelExit c =>
    rw [Host.dispatch]
    split
    · exact hb'.shrink (Shrinks.updateChannelStatus _ c .dead)
    · exact hb'
  | channelStates ids => exact hb'.shrink (Shrinks.channelStates _ clients ids)

theorem eq_spawn_of_target {q : SpawnRequest} (hq : target q = none) : q = .spawn := by
  cases q with
  | spawn => rfl
  | restart | respawn | rehost => cases hq

/-- A new process is about the channel that its SPAWN named, or about one that nothing is about. -/
theorem handleMessage (hb : h.Booked) {m : ToAgent} {toAgent : List ToAgent} {ok : Bool}
    {ulid : ChannelId} (hq : h.toAgent = m :: toAgent) (hulid : h.allots ulid m) :
    (answer ({ h with toAgent := toAgent }.handleMessage h.connection ok ulid m)).Booked := by
  have hpop : h.Shrinks { h with toAgent := toAgent } :=
    { Shrinks.refl h with toAgent := hq ▸ List.sublist_cons_self m toAgent }
  have hmem : m ∈ h.toAgent := hq ▸ List.mem_cons_self
  have hb' := hb.shrink hpop
  cases m with
  | destroy c =>
    have hdone : ∀ h : Host, answer (h, []) = h := fun h ↦ by rw [answer, List.append_nil]
    rw [Host.handleMessage, hdone]
    split
    · exact hb'.shrink (Shrinks.processes_map (Shrinks.unregister_channelId c .signalled))
    · exact hb'
  | spawn requestId channelId =>
    have hid : ∀ r, some requestId = some r → r ∉ { h with toAgent := toAgent }.onTheWay := by
      rintro r ⟨rfl⟩
      have hnd : (requestId :: { h with toAgent := toAgent }.onTheWay).Nodup := by
        have hdistinct := hb.distinct
        rwa [onTheWay, hq] at hdistinct
      exact (List.nodup_cons.mp hnd).1
    rw [Host.handleMessage]
    split
    · exact hb'.pushHub hid trivial nofun
    · have hgrow := Shrinks.processes_append { h with toAgent := toAgent }
        ⟨channelId.getD ulid, h.connection, .registered⟩
      -- The SPAWN_OKs on the way are about processes that were there before.
      have hsep : ∀ r c, .spawnOk r c ∈ h.toHub → h.rows c = none → channelId.getD ulid ≠ c := by
        rintro r c hr hrow rfl
        obtain ⟨p, hp, hpc⟩ := (hb.answered _ hr).1
        cases channelId with
        | none =>
          have hunused := List.all_eq_true.mp (Bool.and_eq_true_iff.mp hulid).2 p hp
          exact of_decide_eq_true hunused hpc
        | some c =>
          have hsome := (hb.asked _ hmem).2 c rfl
          rw [Option.getD_some] at hrow
          rw [hrow] at hsome
          cases hsome
      refine (hb'.shrink hgrow).pushHub hid ⟨⟨_,
        List.mem_append_right _ (List.mem_singleton.mpr rfl), rfl⟩,
        fun q hpend ↦ ?_⟩ ?_
      · have htarget := (hb.asked _ hmem).1 q hpend
        cases channelId with
        | some c => exact Or.inl ⟨htarget, (hb.asked _ hmem).2 c rfl⟩
        | none =>
          have hrow : h.rows ulid = none := of_decide_eq_true (Bool.and_eq_true_iff.mp hulid).1
          refine Or.inr ⟨eq_spawn_of_target htarget, hrow, fun r hr ↦ ?_⟩
          rcases List.mem_append.mp hr with hr | hr
          · exact absurd rfl (hsep r ulid hr hrow)
          · exact (ToHub.spawnOk.inj (List.mem_singleton.mp hr)).1
      · rintro r c hr hrow r' heq
        exact hsep r c hr hrow (ToHub.spawnOk.inj heq).2

end Booked

/-- What a closed connection, and one over SSH, cannot be. -/
structure Linked (h : Host) : Prop where
  idle : h.link = .down → h.toAgent = [] ∧ h.toHub = []
  ssh : h.hostType = .ssh → h.link ≠ .handshake

theorem notMem_onTheWay (hcan : h.canRequest requestId) : requestId ∉ h.onTheWay :=
  of_decide_eq_true (Bool.and_eq_true_iff.mp hcan).2

theorem up_of_canRequest (hcan : h.canRequest requestId) : h.link = .up :=
  of_decide_eq_true (Bool.and_eq_true_iff.mp (Bool.and_eq_true_iff.mp hcan).1).1

theorem isSome_of_alive (hc : h.alive c) : (h.channels c).isSome := by
  rw [alive, Option.any_eq_true] at hc
  obtain ⟨status, hstatus, -⟩ := hc
  exact Option.isSome_of_eq_some hstatus

section EraseIdx

variable {α : Type*} {l : List α} {i : ℕ} {a b : α}

theorem mem_iff_mem_eraseIdx (hi : l[i]? = some a) : b ∈ l ↔ b = a ∨ b ∈ l.eraseIdx i := by
  obtain ⟨hlt, rfl⟩ := List.getElem?_eq_some_iff.mp hi
  rw [← (List.getElem_cons_eraseIdx_perm hlt).mem_iff, List.mem_cons]

theorem mem_set_iff_mem_eraseIdx (hi : l[i]? = some a) {x : α} :
    b ∈ l.set i x ↔ b = x ∨ b ∈ l.eraseIdx i := by
  obtain ⟨hlt, -⟩ := List.getElem?_eq_some_iff.mp hi
  rw [(List.set_perm_cons_eraseIdx hlt x).mem_iff, List.mem_cons]

end EraseIdx

theorem Booked.finish (hb : h.Booked) {i : ℕ} {p : Process} (hq : h.processes[i]? = some p) :
    (h.finish i p).Booked := by
  have hset : h.Shrinks { h with processes := h.processes.set i { p with stage := .exited } } :=
    { Shrinks.refl h with
      processes := fun p' hp' ↦ by
        rcases (mem_iff_mem_eraseIdx hq).mp hp' with rfl | hp'
        · exact ⟨_, (mem_set_iff_mem_eraseIdx hq).mpr (Or.inl rfl), rfl⟩
        · exact ⟨p', (mem_set_iff_mem_eraseIdx hq).mpr (Or.inr hp'), rfl⟩ }
  have hb' := hb.shrink (hset.trans
    (Shrinks.processes_map (Shrinks.unregister_channelId p.channelId .stray)))
  rw [Host.finish]
  split
  · exact hb'.pushHub nofun trivial nofun
  · exact hb'

theorem Booked.reconnect (hb : h.Booked) (hl : h.Linked) (hdown : h.link = .down) :
    h.reconnect.Booked := by
  obtain ⟨hnil, hnil'⟩ := hl.idle hdown
  rw [Host.reconnect]
  split
  · exact ⟨by rw [onTheWay, hnil]; exact List.nodup_nil, hb.asked,
      fun m hm ↦ by rw [List.mem_singleton.mp hm]; trivial, hb.recorded⟩
  · refine ⟨hb.distinct, hb.asked, fun m hm ↦ ?_, hb.recorded⟩
    rw [hnil'] at hm
    cases hm

/-- The records are right after every step. -/
theorem Booked.step (hb : h.Booked) (hl : h.Linked) {e : HostEvent} {h' : Host}
    (hs : h.Moves e h') : h'.Booked := by
  cases hs with
  | spawn hcan => exact hb.request (notMem_onTheWay hcan) nofun
  | restart hcan hrow =>
    exact hb.request (notMem_onTheWay hcan) fun c hc ↦ Option.some.inj hc ▸ hrow
  | restartLive hcan hrow =>
    refine (hb.sendDestroy _).request ?_ fun c hc ↦ Option.some.inj hc ▸ hrow
    rw [Booked.onTheWay_sendDestroy]
    exact notMem_onTheWay hcan
  | respawn hcan hrow =>
    exact hb.request (notMem_onTheWay hcan) fun c hc ↦ Option.some.inj hc ▸ hrow
  | rehost hcan hc =>
    refine hb.request (notMem_onTheWay hcan) fun c' hc' ↦ ?_
    cases hc'
    exact hb.recorded _ (isSome_of_alive hc)
  | timeout hq => exact hb.shrink ((Shrinks.forget h _).trans (Shrinks.spawnFailed _ _))
  | destroyChannel hup => exact (hb.sendDestroy _).shrink (Shrinks.retireChannel _ _)
  | deleteChannel hup => exact hb.shrink (Shrinks.retireChannel h _)
  | closeSession => exact hb.shrink (Shrinks.closeSession h)
  | detach hc => exact hb.shrink (Shrinks.updateChannelStatus h _ _)
  | receive hq => exact hb.dispatch hq _
  | drop => exact hb.shrink (Shrinks.hangUp h)
  | connect hdown => exact hb.reconnect hl hdown
  | handle hq hulid => exact hb.handleMessage hq hulid
  | handleStale hq hulid =>
    exact (hb.shrink (Shrinks.loseStale h _)).shrink (Shrinks.handleMessage _ _ _ _ _)
  | loseStale hq => exact hb.shrink (Shrinks.loseStale h _)
  | exit hq => exact hb.finish hq

/-! ## Channels alone -/

/-- Only channels and rows change. -/
def Touches (h h' : Host) : Prop :=
  ∃ channels rows, h' = { h with channels := channels, rows := rows }

theorem touches_spawnFailed (h : Host) (q : SpawnRequest) : h.Touches (h.spawnFailed q) := by
  cases q with
  | spawn | restart | respawn => exact ⟨_, _, rfl⟩
  | rehost => exact ⟨_, _, rfl⟩

theorem touches_spawned (h : Host) (c : ChannelId) (clients : Bool) (q : SpawnRequest) :
    h.Touches (h.spawned c clients q) := by
  cases q with
  | spawn =>
    rw [spawned]
    split
    · exact ⟨_, _, rfl⟩
    · exact ⟨_, _, rfl⟩
  | restart previous =>
    rw [spawned, applyRestartState]
    split
    · exact ⟨_, _, rfl⟩
    · dsimp only
      split
      · exact ⟨_, _, rfl⟩
      · exact ⟨_, _, rfl⟩
  | respawn => exact ⟨_, _, rfl⟩
  | rehost =>
    rw [spawned]
    split
    · exact ⟨_, _, rfl⟩
    · exact ⟨_, _, rfl⟩

/-- What a message changes besides channels and rows: its request is forgotten, and the report of
the daemon ends the handshake. -/
theorem touches_dispatch (h : Host) (clients : Bool) (m : ToHub) :
    ∃ pending link, { h with pending := pending, link := link }.Touches (h.dispatch clients m) ∧
      (∀ r, m.requestId ≠ some r → pending r = h.pending r) ∧ (link = h.link ∨ link = .up) := by
  have hsame : ∀ h' : Host, h.Touches h' → ∃ pending link,
      { h with pending := pending, link := link }.Touches h' ∧
        (∀ r, m.requestId ≠ some r → pending r = h.pending r) ∧ (link = h.link ∨ link = .up) :=
    fun h' ht ↦ ⟨h.pending, h.link, ht, fun _ _ ↦ rfl, Or.inl rfl⟩
  have hforget : ∀ r h', m.requestId = some r → (h.forget r).Touches h' → ∃ pending link,
      { h with pending := pending, link := link }.Touches h' ∧
        (∀ r, m.requestId ≠ some r → pending r = h.pending r) ∧ (link = h.link ∨ link = .up) := by
    refine fun r h' hid ht ↦ ⟨(h.forget r).pending, h.link, ht, fun r' hr' ↦ ?_, Or.inl rfl⟩
    have hne : r' ≠ r := fun heq ↦ hr' (heq ▸ hid)
    rw [forget_pending, Function.update_of_ne hne]
  cases m with
  | spawnOk r c =>
    rw [dispatch]
    split
    · exact hforget r _ rfl (touches_spawned _ _ _ _)
    · exact hsame h ⟨_, _, rfl⟩
  | spawnErr r =>
    rw [dispatch]
    split
    · exact hforget r _ rfl (touches_spawnFailed _ _)
    · exact hsame h ⟨_, _, rfl⟩
  | channelExit c =>
    rw [dispatch]
    split
    · exact hsame _ ⟨_, _, rfl⟩
    · exact hsame h ⟨_, _, rfl⟩
  | channelStates ids => exact ⟨h.pending, .up, ⟨_, _, rfl⟩, fun _ _ ↦ rfl, Or.inr rfl⟩

theorem handleMessage_eq (h : Host) (connection : ℕ) (ok : Bool) (ulid : ChannelId) (m : ToAgent) :
    ∃ processes, (h.handleMessage connection ok ulid m).1 = { h with processes := processes } := by
  cases m with
  | spawn r channelId =>
    rw [handleMessage]
    split
    · exact ⟨_, rfl⟩
    · exact ⟨_, rfl⟩
  | destroy c =>
    rw [handleMessage]
    split
    · exact ⟨_, rfl⟩
    · exact ⟨_, rfl⟩

/-! ## The connection -/

namespace Linked

theorem of_touches {h' : Host} (hl : h.Linked) (ht : h.Touches h') : h'.Linked := by
  obtain ⟨channels, rows, rfl⟩ := ht
  exact ⟨hl.idle, hl.ssh⟩

theorem of_up {h' : Host} (hup : h'.link = .up) : h'.Linked := by
  constructor
  · intro hdown
    rw [hup] at hdown
    cases hdown
  · intro _ hhandshake
    rw [hup] at hhandshake
    cases hhandshake

theorem hangUp (h : Host) : h.hangUp.Linked := by
  constructor
  · exact fun _ ↦ ⟨rfl, rfl⟩
  · exact fun _ ↦ nofun

theorem open_of_toHub (hl : h.Linked) {m : ToHub} {toHub : List ToHub} (hq : h.toHub = m :: toHub) :
    h.link ≠ .down := by
  intro hdown
  rw [(hl.idle hdown).2] at hq
  cases hq

theorem open_of_toAgent (hl : h.Linked) {m : ToAgent} {toAgent : List ToAgent}
    (hq : h.toAgent = m :: toAgent) : h.link ≠ .down := by
  intro hdown
  rw [(hl.idle hdown).1] at hq
  cases hq

/-- A connection that is open stays so. -/
theorem of_open {h' : Host} (hl : h.Linked) (hopen : h.link ≠ .down) (hlink : h'.link = h.link)
    (htype : h'.hostType = h.hostType) : h'.Linked := by
  constructor
  · intro hdown
    exact absurd (hlink ▸ hdown) hopen
  · intro hssh
    rw [hlink]
    exact hl.ssh (htype ▸ hssh)

theorem step (hl : h.Linked) {e : HostEvent} {h' : Host} (hs : h.Moves e h') : h'.Linked := by
  cases hs with
  | spawn hcan | restart hcan | respawn hcan | rehost hcan | restartLive hcan =>
    have hup := up_of_canRequest hcan
    exact of_up hup
  | @timeout r q hq =>
    have hforget : (h.forget r).Linked := ⟨hl.idle, hl.ssh⟩
    exact hforget.of_touches (touches_spawnFailed _ _)
  | destroyChannel hup => exact of_up hup
  | deleteChannel hup => exact hl.of_touches ⟨_, _, rfl⟩
  | closeSession =>
    rw [Host.closeSession]
    split
    · exact (hangUp h).of_touches ⟨_, _, rfl⟩
    · exact hl.of_touches ⟨_, _, rfl⟩
  | detach hc => exact hl.of_touches ⟨_, _, rfl⟩
  | receive hq =>
    obtain ⟨pending, link, ht, -, hlink⟩ := touches_dispatch { h with toHub := _ } _ _
    have hopen := hl.open_of_toHub hq
    refine of_touches ?_ ht
    rcases hlink with rfl | rfl
    · exact hl.of_open hopen rfl rfl
    · exact of_up rfl
  | drop => exact hangUp h
  | connect hdown =>
    rw [reconnect]
    split
    case h_1 hdaemon =>
      refine ⟨nofun, fun hssh ↦ ?_⟩
      rw [show h.hostType = .ssh from hssh] at hdaemon
      cases hdaemon
    case h_2 => exact of_up rfl
  | handle hq hulid =>
    obtain ⟨processes, heq⟩ := handleMessage_eq { h with toAgent := _ } _ _ _ _
    rw [answer, heq]
    exact hl.of_open (hl.open_of_toAgent hq) rfl rfl
  | handleStale hq hulid =>
    obtain ⟨processes, heq⟩ := handleMessage_eq { h with stale := _ } _ _ _ _
    rw [heq]
    exact ⟨hl.idle, hl.ssh⟩
  | loseStale hq => exact ⟨hl.idle, hl.ssh⟩
  | exit hq =>
    rw [finish]
    split
    case isTrue hopen => exact hl.of_open hopen.1 rfl rfl
    case isFalse => exact ⟨hl.idle, hl.ssh⟩

end Linked

end Host

end Lasterm.Wire
