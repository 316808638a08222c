import Lasterm.Hub.Spool
import Lasterm.Library.OrderedMap
import Lasterm.Library.Runs

/-!
# The snapshot scheduler

Model of `SnapshotScheduler`: the timers of the channels that it tracks, the counter of the
snapshots in flight, and one timeout for each channel. `requests` keeps every SNAPSHOT_REQ that was
sent, with what has become of it.

A SNAPSHOT_RES names its channel only. Which request the agent has answered with it is part of the
event, and so is whether the agent of the channel is connected where one is asked for. `expires`
says that the time of a request is over, whether or not its timeout is still armed.

The counter goes down with every SNAPSHOT_RES, and a channel has room for one timeout.
`accounts_iff_careful` says when it counts the requests that wait, nevertheless.
-/

namespace Lasterm.Hub

open Runs

/-- The interval of `forcedTimer` runs as long as the channel is tracked. -/
structure ChannelTimers where
  /-- `idleTimer` is armed. -/
  idleTimer : Bool

/-- A SNAPSHOT_REQ. -/
structure SnapshotReq where
  channelId : ChannelId
  answered : Bool
  /-- Its time is over. -/
  expired : Bool

/-- Neither answered nor timed out. -/
def SnapshotReq.waits (x : SnapshotReq) : Bool := !x.answered && !x.expired

structure SnapshotScheduler where
  channels : OrderedMap ChannelId ChannelTimers
  inFlightSnapshots : ℕ
  maxConcurrentSnapshots : ℕ
  /-- The timeouts that are armed, by the number of their request. -/
  snapshotTimeouts : OrderedMap ChannelId ℕ
  requests : List SnapshotReq

inductive SchedulerEvent
  | trackChannel (c : ChannelId)
  | onOutput (c : ChannelId)
  | onDetach (c : ChannelId) (connected : Bool)
  | idleTimeout (c : ChannelId) (connected : Bool)
  | forcedTimeout (c : ChannelId) (connected : Bool)
  /-- `answers` is the request that the agent has answered, if there was one. -/
  | onSnapshotResponse (c : ChannelId) (answers : Option ℕ)
  | expires (n : ℕ)
  | untrackChannel (c : ChannelId)

namespace SnapshotScheduler

def new (maxConcurrentSnapshots : ℕ) : SnapshotScheduler :=
  ⟨.empty, 0, maxConcurrentSnapshots, .empty, []⟩

variable (s : SnapshotScheduler)

/-! ## Methods -/

def trackChannel (c : ChannelId) : SnapshotScheduler :=
  if (s.channels.get c).isSome then s else { s with channels := s.channels.set c ⟨true⟩ }

def onOutput (c : ChannelId) : SnapshotScheduler :=
  { s with channels := s.channels.modify c fun _ ↦ ⟨true⟩ }

def untrackChannel (c : ChannelId) : SnapshotScheduler :=
  { s with channels := s.channels.delete c }

/-- A timeout that is armed for the channel is replaced. -/
def requestSnapshot (c : ChannelId) (connected : Bool) : SnapshotScheduler :=
  if s.maxConcurrentSnapshots ≤ s.inFlightSnapshots then s
  else if connected then
    { s with
      inFlightSnapshots := s.inFlightSnapshots + 1
      requests := s.requests ++ [⟨c, false, false⟩]
      snapshotTimeouts := s.snapshotTimeouts.set c s.requests.length }
  else s

def onIdleTimeout (c : ChannelId) (connected : Bool) : SnapshotScheduler :=
  { s with channels := s.channels.modify c fun _ ↦ ⟨false⟩ }.requestSnapshot c connected

def onSnapshotResponse (c : ChannelId) : SnapshotScheduler :=
  { s with
    inFlightSnapshots := s.inFlightSnapshots - 1
    snapshotTimeouts := s.snapshotTimeouts.delete c }

/-- The callback of a timeout. -/
def onTimeout (c : ChannelId) : SnapshotScheduler :=
  { s with
    snapshotTimeouts := s.snapshotTimeouts.delete c
    inFlightSnapshots := s.inFlightSnapshots - 1 }

def setRequest (n : ℕ) (x : SnapshotReq) : SnapshotScheduler :=
  { s with requests := s.requests.set n x }

/-- The time of a request is over. Its timeout may have been cleared. -/
def expire (n : ℕ) (x : SnapshotReq) : SnapshotScheduler :=
  let t := s.setRequest n { x with expired := true }
  if s.snapshotTimeouts.get x.channelId = some n then t.onTimeout x.channelId else t

/-- One event. `none` says that it cannot happen. -/
def step : SchedulerEvent → Option SnapshotScheduler
  | .trackChannel c => some (s.trackChannel c)
  | .onOutput c => some (s.onOutput c)
  | .onDetach c connected => some (s.requestSnapshot c connected)
  | .idleTimeout c connected =>
    if (s.channels.get c).any ChannelTimers.idleTimer then some (s.onIdleTimeout c connected)
    else none
  | .forcedTimeout c connected =>
    if (s.channels.get c).isSome then some (s.requestSnapshot c connected) else none
  | .onSnapshotResponse c none => some (s.onSnapshotResponse c)
  | .onSnapshotResponse c (some n) =>
    match s.requests[n]? with
    | none => none
    | some x =>
      if x.channelId = c then
        some ((s.setRequest n { x with answered := true }).onSnapshotResponse c)
      else none
  | .expires n =>
    match s.requests[n]? with
    | none => none
    | some x =>
      if x.expired then none else some (s.expire n x)
  | .untrackChannel c => some (s.untrackChannel c)

/-! ## The account -/

def waiting : ℕ := s.requests.countP SnapshotReq.waits

/-- The counter is the number of the requests that wait, and so within its bound, and zero once none
waits any more. -/
structure Accounts : Prop where
  inFlight : s.inFlightSnapshots = s.waiting
  bounded : s.inFlightSnapshots ≤ s.maxConcurrentSnapshots
  settles : (∀ x ∈ s.requests, x.waits = false) → s.inFlightSnapshots = 0

/-- A SNAPSHOT_RES answers a request that waits, or finds the counter at zero. The timeout of a
request that still waits when its time is over is still armed. -/
def Careful : SchedulerEvent → Prop
  | .onSnapshotResponse _ none => s.inFlightSnapshots = 0
  | .onSnapshotResponse _ (some n) =>
    (∀ x ∈ s.requests[n]?, x.waits = true) ∨ s.inFlightSnapshots = 0
  | .expires n => ∀ x ∈ s.requests[n]?, x.waits = true → s.snapshotTimeouts.get x.channelId = some n
  | _ => True

/-- The counter is right, and a timeout that is armed is that of a request that waits. -/
structure Balanced : Prop where
  inFlight : s.inFlightSnapshots = s.waiting
  bounded : s.inFlightSnapshots ≤ s.maxConcurrentSnapshots
  armed : ∀ c n, s.snapshotTimeouts.get c = some n →
    ∃ x, s.requests[n]? = some x ∧ x.channelId = c ∧ x.waits = true

variable {s} {s' : SnapshotScheduler} {c : ChannelId} {n : ℕ} {x : SnapshotReq}

theorem balanced_new (max : ℕ) : (new max).Balanced := ⟨rfl, Nat.zero_le _, nofun⟩

theorem accounts_iff (hbounded : s.inFlightSnapshots ≤ s.maxConcurrentSnapshots) :
    s.Accounts ↔ s.inFlightSnapshots = s.waiting := by
  refine ⟨Accounts.inFlight, fun h ↦ ⟨h, hbounded, fun hnone ↦ ?_⟩⟩
  rw [h, waiting, List.countP_eq_zero]
  intro x hx hwaits
  exact Bool.noConfusion (hwaits.symm.trans (hnone x hx))

/-! ### Requests -/

/-- A request is over, if it has waited. -/
theorem waiting_setRequest {y : SnapshotReq} (hx : s.requests[n]? = some x) (hy : y.waits = false) :
    (s.setRequest n y).waiting + (if x.waits then 1 else 0) = s.waiting := by
  obtain ⟨hlt, rfl⟩ := List.getElem?_eq_some_iff.mp hx
  have hcount : (if s.requests[n].waits then 1 else 0) ≤ s.requests.countP SnapshotReq.waits := by
    split
    · rename_i hwaits
      exact List.countP_pos_iff.mpr ⟨_, List.getElem_mem hlt, hwaits⟩
    · exact Nat.zero_le _
  rw [waiting, waiting, setRequest, List.countP_set hlt, hy]
  simp only [Bool.false_eq_true, if_false]
  omega

theorem Balanced.requestSnapshot (h : s.Balanced) (c : ChannelId) (connected : Bool) :
    (s.requestSnapshot c connected).Balanced := by
  rw [SnapshotScheduler.requestSnapshot]
  split
  · exact h
  · rename_i hroom
    split
    · refine ⟨?_, Nat.lt_of_not_le hroom, fun c' n hn ↦ ?_⟩
      · rw [waiting, List.countP_append, h.inFlight]
        rfl
      · dsimp only at hn ⊢
        rw [OrderedMap.get_set] at hn
        split at hn
        · rename_i heq
          cases hn
          exact ⟨⟨c, false, false⟩, by simp, heq, rfl⟩
        · obtain ⟨x, hx, hchannel, hwaits⟩ := h.armed c' n hn
          obtain ⟨hlt, -⟩ := List.getElem?_eq_some_iff.mp hx
          exact ⟨x, by rw [List.getElem?_append_left hlt, hx], hchannel, hwaits⟩
    · exact h

/-- The timeouts of the other channels are still those of requests that wait. -/
theorem armed_delete_setRequest (h : s.Balanced) (hx : s.requests[n]? = some x)
    (y : SnapshotReq) (c' : ChannelId) (m : ℕ)
    (hm : (s.snapshotTimeouts.delete x.channelId).get c' = some m) :
    ∃ z, (s.requests.set n y)[m]? = some z ∧ z.channelId = c' ∧ z.waits = true := by
  rw [OrderedMap.get_delete] at hm
  split at hm
  · cases hm
  · rename_i hne
    obtain ⟨z, hz, hchannel, hwaits⟩ := h.armed c' m hm
    refine ⟨z, ?_, hchannel, hwaits⟩
    rw [List.getElem?_set_ne, hz]
    rintro rfl
    cases hx.symm.trans hz
    exact hne hchannel

/-! ### Events -/

theorem agrees_of_balanced {e : SchedulerEvent} (h : s'.Balanced) (hcareful : s.Careful e) :
    (s'.Accounts ↔ s.Careful e) ∧ (s.Careful e → s'.Balanced) :=
  ⟨⟨fun _ ↦ hcareful, fun _ ↦ (accounts_iff h.bounded).mpr h.inFlight⟩, fun _ ↦ h⟩

theorem agrees_unasked (h : s.Balanced) (c : ChannelId) :
    ((s.onSnapshotResponse c).Accounts ↔ s.Careful (.onSnapshotResponse c none)) ∧
      (s.Careful (.onSnapshotResponse c none) → (s.onSnapshotResponse c).Balanced) := by
  have hbounded : (s.onSnapshotResponse c).inFlightSnapshots ≤
      (s.onSnapshotResponse c).maxConcurrentSnapshots :=
    (Nat.sub_le ..).trans h.bounded
  -- No request has been answered: only a counter at zero does not move.
  have hwaiting : (s.onSnapshotResponse c).waiting = s.inFlightSnapshots := h.inFlight.symm
  have hiff : (s.onSnapshotResponse c).inFlightSnapshots = (s.onSnapshotResponse c).waiting ↔
      s.inFlightSnapshots = 0 := by
    rw [hwaiting, onSnapshotResponse]
    dsimp only
    omega
  refine ⟨(accounts_iff hbounded).trans hiff, fun hzero ↦ ⟨hiff.mpr hzero, hbounded, ?_⟩⟩
  intro c' n hn
  rw [onSnapshotResponse, OrderedMap.get_delete] at hn
  split at hn
  · cases hn
  · exact h.armed c' n hn

theorem agrees_answer (h : s.Balanced) (hx : s.requests[n]? = some x) :
    (((s.setRequest n { x with answered := true }).onSnapshotResponse x.channelId).Accounts ↔
      s.Careful (.onSnapshotResponse x.channelId (some n))) ∧
    (s.Careful (.onSnapshotResponse x.channelId (some n)) →
      ((s.setRequest n { x with answered := true }).onSnapshotResponse x.channelId).Balanced) := by
  obtain ⟨t, ht⟩ : ∃ t, t =
      (s.setRequest n { x with answered := true }).onSnapshotResponse x.channelId := ⟨_, rfl⟩
  rw [← ht]
  have hbounded : t.inFlightSnapshots ≤ t.maxConcurrentSnapshots :=
    ht ▸ (Nat.sub_le ..).trans h.bounded
  have hcount : t.inFlightSnapshots = s.inFlightSnapshots - 1 := ht ▸ rfl
  have hwaiting : t.waiting + (if x.waits then 1 else 0) = s.waiting :=
    ht ▸ waiting_setRequest (y := { x with answered := true }) hx rfl
  have hcareful : s.Careful (.onSnapshotResponse x.channelId (some n)) ↔
      x.waits = true ∨ s.inFlightSnapshots = 0 := by
    rw [Careful, hx]
    simp
  have hinFlight := h.inFlight
  -- The counter goes down in any case, the number of waiting requests if this one has waited.
  have hiff : t.inFlightSnapshots = t.waiting ↔ x.waits = true ∨ s.inFlightSnapshots = 0 := by
    cases hwaits : x.waits
    · rw [hwaits] at hwaiting
      simp only [Bool.false_eq_true, if_false, false_or] at hwaiting ⊢
      omega
    · rw [hwaits] at hwaiting
      simp only [if_true, true_or, iff_true] at hwaiting ⊢
      omega
  rw [hcareful]
  refine ⟨(accounts_iff hbounded).trans hiff, fun hc ↦ ⟨hiff.mpr hc, hbounded, fun c' m hm ↦ ?_⟩⟩
  rw [ht] at hm ⊢
  exact armed_delete_setRequest h hx _ c' m hm

theorem agrees_expires (h : s.Balanced) (hx : s.requests[n]? = some x) :
    ((s.expire n x).Accounts ↔ s.Careful (.expires n)) ∧
      (s.Careful (.expires n) → (s.expire n x).Balanced) := by
  have hover : SnapshotReq.waits { x with expired := true } = false := by simp [SnapshotReq.waits]
  have hwaiting := waiting_setRequest hx hover
  have hinFlight := h.inFlight
  have hcareful : s.Careful (.expires n) ↔
      (x.waits = true → s.snapshotTimeouts.get x.channelId = some n) := by
    rw [Careful, hx]
    simp
  rw [expire]
  split
  · -- The timeout is the one of the channel, so that its request waits.
    rename_i harmed
    obtain ⟨y, hy, -, hwaits⟩ := h.armed x.channelId n harmed
    cases hx.symm.trans hy
    refine agrees_of_balanced ⟨?_, (Nat.sub_le ..).trans h.bounded, fun c' m hm ↦ ?_⟩
      (hcareful.mpr fun _ ↦ harmed)
    · rw [hwaits, if_pos rfl] at hwaiting
      change s.inFlightSnapshots - 1 = (s.setRequest n { x with expired := true }).waiting
      omega
    · exact armed_delete_setRequest h hx _ c' m hm
  · -- The timeout was cleared, and the counter stays.
    rename_i hcleared
    obtain ⟨t, ht⟩ : ∃ t, t = s.setRequest n { x with expired := true } := ⟨_, rfl⟩
    rw [← ht] at hwaiting ⊢
    have hbounded : t.inFlightSnapshots ≤ t.maxConcurrentSnapshots := ht ▸ h.bounded
    have hcount : t.inFlightSnapshots = s.inFlightSnapshots := ht ▸ rfl
    have hiff : t.inFlightSnapshots = t.waiting ↔ x.waits = false := by
      cases hwaits : x.waits
      · rw [hwaits] at hwaiting
        simp only [Bool.false_eq_true, if_false] at hwaiting
        simp only [iff_true]
        omega
      · rw [hwaits] at hwaiting
        simp only [if_true] at hwaiting
        simp only [Bool.true_eq_false, iff_false]
        omega
    have hcareful' : s.Careful (.expires n) ↔ x.waits = false := by
      rw [hcareful, ← Bool.not_eq_true]
      exact ⟨fun hw hwaits ↦ hcleared (hw hwaits), fun hw hwaits ↦ absurd hwaits hw⟩
    rw [hcareful']
    refine ⟨(accounts_iff hbounded).trans hiff, fun hw ↦ ⟨hiff.mpr hw, hbounded, fun c' m hm ↦ ?_⟩⟩
    rw [ht] at hm ⊢
    obtain ⟨z, hz, hchannel, hwaits⟩ := h.armed c' m hm
    refine ⟨z, ?_, hchannel, hwaits⟩
    rw [setRequest, List.getElem?_set_ne, hz]
    rintro rfl
    cases hx.symm.trans hz
    exact hcleared (hchannel ▸ hm)

theorem step_agrees {e : SchedulerEvent} (h : s.Balanced) :
    Ensures (fun s' ↦ (s'.Accounts ↔ s.Careful e) ∧ (s.Careful e → s'.Balanced)) (s.step e) := by
  cases e with
  | trackChannel c =>
    refine .of_some (agrees_of_balanced ?_ trivial)
    rw [trackChannel]
    split
    · exact h
    · exact ⟨h.inFlight, h.bounded, h.armed⟩
  | onOutput c => exact .of_some (agrees_of_balanced ⟨h.inFlight, h.bounded, h.armed⟩ trivial)
  | onDetach c connected =>
    exact .of_some (agrees_of_balanced (h.requestSnapshot c connected) trivial)
  | idleTimeout c connected =>
    rw [step]
    refine .guard fun _ ↦ ?_
    refine .of_some (agrees_of_balanced (Balanced.requestSnapshot ?_ c connected) trivial)
    exact ⟨h.inFlight, h.bounded, h.armed⟩
  | forcedTimeout c connected =>
    rw [step]
    exact .guard fun _ ↦ .of_some (agrees_of_balanced (h.requestSnapshot c connected) trivial)
  | onSnapshotResponse c answers =>
    rcases answers with _ | n
    · exact .of_some (agrees_unasked h c)
    · rw [step]
      split
      · exact .of_none
      · rename_i x hx
        exact .guard fun hchannel ↦ .of_some (hchannel ▸ agrees_answer h hx)
  | expires n =>
    rw [step]
    split
    · exact .of_none
    · rename_i x hx
      exact .guardNot fun _ ↦ .of_some (agrees_expires h hx)
  | untrackChannel c => exact .of_some (agrees_of_balanced ⟨h.inFlight, h.bounded, h.armed⟩ trivial)

/-! ## Whole runs -/

/-- **The counter is the number of the requests in flight** in every state of a run, if and only if
every response answers a request that waits, and no timeout of one that waits was cleared. -/
theorem accounts_iff_careful (max : ℕ) (es : List SchedulerEvent) :
    Along step (fun _ _ s' ↦ s'.Accounts) (new max) es ↔
      Along step (fun s e _ ↦ s.Careful e) (new max) es :=
  along_congr_of_keeps Balanced (fun s e s' h (hstep : step s e = some s') ↦ step_agrees h hstep)
    (balanced_new max)

/-- A channel without output for three seconds, and an agent that does not answer: the interval asks
again after five seconds, and takes the place of the timeout. -/
def unansweredTwice : List SchedulerEvent :=
  [.trackChannel "c", .idleTimeout "c" true, .forcedTimeout "c" true, .expires 0, .expires 1]

/-- The counter never comes back. -/
theorem unansweredTwice_leaks :
    ∃ s, run step (new 4) unansweredTwice = some s ∧ s.inFlightSnapshots = 1 ∧ s.waiting = 0 ∧
      ¬ Along step (fun _ _ s' ↦ s'.Accounts) (new 4) unansweredTwice := by
  refine ⟨_, rfl, rfl, rfl, fun halong ↦ ?_⟩
  rw [unansweredTwice] at halong
  repeat rw [along_cons_of_eq rfl] at halong
  obtain ⟨-, -, -, -, hlast, -⟩ := halong
  exact absurd hlast.inFlight (by decide)

end SnapshotScheduler

end Lasterm.Hub
