import Lasterm.Library.Runs
import Mathlib.Data.List.Nodup

/-!
# How the desktop asks about a close gesture

The coordinator of the close gestures in `lib.rs`, and the handlers and timers around it. An attempt
waits for its presentation, and then for its answer. Each of the two stages has a thread that sleeps
and then expires it.

The coordinator is behind a lock that covers one call on it. So a handler that opens a stage is two
steps, and others may come in between: the call, and what is done with its result. A handler that
has made its call is in `handlers`; its second step spawns the thread of the stage. The renderer may
send any attempt id at any time.
-/

namespace Lasterm.Desktop.WindowClose

open Runs

inductive CloseBehavior where
  | ask
  | hide
  | quit
  deriving DecidableEq

inductive WindowCloseChoice where
  | quit
  | tray
  deriving DecidableEq

inductive WindowCloseState where
  | waitingForPresentation
  | waitingForAnswer
  deriving DecidableEq

structure WindowCloseCoordinator where
  nextId : ℕ
  active : Option (ℕ × WindowCloseState)

inductive WindowCloseStart where
  | started (id : ℕ)
  | inProgress

namespace WindowCloseCoordinator

variable (c : WindowCloseCoordinator) (id : ℕ)

def begin : WindowCloseCoordinator × WindowCloseStart :=
  if c.active.isSome then (c, .inProgress)
  else (⟨c.nextId + 1, some (c.nextId + 1, .waitingForPresentation)⟩, .started (c.nextId + 1))

def acknowledged : WindowCloseCoordinator × Bool :=
  match c.active with
  | none => (c, false)
  | some (activeId, state) =>
    if activeId ≠ id ∨ state ≠ .waitingForPresentation then (c, false)
    else ({ c with active := some (activeId, .waitingForAnswer) }, true)

def timedOut : WindowCloseCoordinator × Bool :=
  match c.active with
  | none => (c, false)
  | some (activeId, state) =>
    if activeId ≠ id then (c, false)
    else if state = .waitingForPresentation then ({ c with active := none }, true)
    else (c, false)

def answerTimedOut : WindowCloseCoordinator × Bool :=
  match c.active with
  | none => (c, false)
  | some (activeId, state) =>
    if activeId ≠ id ∨ state ≠ .waitingForAnswer then (c, false)
    else ({ c with active := none }, true)

def answer : WindowCloseCoordinator × Bool :=
  match c.active with
  | none => (c, false)
  | some (activeId, state) =>
    if activeId ≠ id ∨ state ≠ .waitingForAnswer then (c, false)
    else ({ c with active := none }, true)

end WindowCloseCoordinator

/-- What an attempt has come to. -/
inductive Settlement where
  /-- `present_native_window_close_choice`. -/
  | fallback
  /-- The preference that was saved, and the choice that was acted on: none, if the preference could
  not be saved. -/
  | answer (behavior : Option CloseBehavior) (action : Option WindowCloseChoice)
  | cancel
  /-- `desktop-close-expired`. -/
  | expired

structure App where
  coordinator : WindowCloseCoordinator
  /-- The handlers that have opened a stage, and have not spawned its thread. -/
  handlers : List (ℕ × WindowCloseState)
  /-- The threads that sleep. -/
  timers : List (ℕ × WindowCloseState)
  settlements : List (ℕ × Settlement)
  /-- The attempts whose presentation was acknowledged. -/
  acknowledged : List ℕ

inductive Event where
  /-- `handle_native_window_close`, with what `read_close_behavior` says. -/
  | closeRequested (behavior : Except String CloseBehavior)
  /-- The second step of `begin_window_close_presentation`: the window is visible, and has got the
  request. -/
  | presented (id : ℕ) (delivered : Bool)
  | acknowledge (id : ℕ)
  /-- The second step of `acknowledge_desktop_close`. -/
  | acknowledged (id : ℕ)
  /-- `saved` says that `set_close_behavior` succeeds. -/
  | answer (id : ℕ) (action : WindowCloseChoice) (remember saved : Bool)
  | cancel (id : ℕ)
  /-- A thread has slept for the timeout of its stage. -/
  | expires (id : ℕ) (stage : WindowCloseState)

/-- The handler whose second step this is. -/
def Event.handler : Event → Option (ℕ × WindowCloseState)
  | .presented id _ => some (id, .waitingForPresentation)
  | .acknowledged id => some (id, .waitingForAnswer)
  | _ => none

/-- The attempt that an event is about. -/
def Event.attemptId : Event → Option ℕ
  | .acknowledge id | .answer id .. | .cancel id | .expires id _ => some id
  | _ => none

namespace App

def new : App := ⟨⟨0, none⟩, [], [], [], []⟩

variable (s : App)

/-- The coordinator has been called, and says whether this settles the attempt. -/
def settle (id : ℕ) (x : Settlement) (r : WindowCloseCoordinator × Bool) : App :=
  { s with
    coordinator := r.1
    settlements := if r.2 then s.settlements ++ [(id, x)] else s.settlements }

def expireWindowClosePresentation (id : ℕ) : App :=
  s.settle id .fallback (s.coordinator.timedOut id)

/-- `begin_window_close_presentation`, up to its call on the coordinator. -/
def beginWindowClosePresentation : App :=
  match s.coordinator.begin with
  | (_, .inProgress) => s
  | (c, .started id) =>
    { s with coordinator := c, handlers := s.handlers ++ [(id, .waitingForPresentation)] }

def handleNativeWindowClose : Except String CloseBehavior → App
  | .ok .ask => s.beginWindowClosePresentation
  | .ok .hide | .ok .quit | .error _ => s

/-- The thread of a stage is spawned, and its handler is over. -/
def spawnTimer (p : ℕ × WindowCloseState) : App :=
  { s with handlers := s.handlers.erase p, timers := s.timers ++ [p] }

/-- `begin_window_close_presentation` behind its call on the coordinator. -/
def presented (id : ℕ) (delivered : Bool) : App :=
  if delivered then s.spawnTimer (id, .waitingForPresentation)
  else
    let t := { s with handlers := s.handlers.erase (id, .waitingForPresentation) }
    t.expireWindowClosePresentation id

def acknowledgeDesktopClose (id : ℕ) : App :=
  match s.coordinator.acknowledged id with
  | (_, false) => s
  | (c, true) =>
    { s with
      coordinator := c
      handlers := s.handlers ++ [(id, .waitingForAnswer)]
      acknowledged := s.acknowledged ++ [id] }

/-- What `answer_desktop_close` does with an answer that is accepted. -/
def answerSettlement (action : WindowCloseChoice) (remember saved : Bool) : Settlement :=
  let behavior : CloseBehavior := match action with
    | .quit => .quit
    | .tray => .hide
  if remember then if saved then .answer (some behavior) (some action) else .answer none none
  else .answer none (some action)

def answerDesktopClose (id : ℕ) (action : WindowCloseChoice) (remember saved : Bool) : App :=
  s.settle id (answerSettlement action remember saved) (s.coordinator.answer id)

def cancelDesktopClose (id : ℕ) : App := s.settle id .cancel (s.coordinator.answer id)

/-- The thread of a stage, behind its sleep. -/
def expire (id : ℕ) : WindowCloseState → App
  | .waitingForPresentation => s.expireWindowClosePresentation id
  | .waitingForAnswer => s.settle id .expired (s.coordinator.answerTimedOut id)

def step : Event → Option App
  | .closeRequested behavior => some (s.handleNativeWindowClose behavior)
  | .presented id delivered =>
    if (id, .waitingForPresentation) ∈ s.handlers then some (s.presented id delivered) else none
  | .acknowledge id => some (s.acknowledgeDesktopClose id)
  | .acknowledged id =>
    if (id, .waitingForAnswer) ∈ s.handlers then some (s.spawnTimer (id, .waitingForAnswer))
    else none
  | .answer id action remember saved => some (s.answerDesktopClose id action remember saved)
  | .cancel id => some (s.cancelDesktopClose id)
  | .expires id stage =>
    if (id, stage) ∈ s.timers then
      some ({ s with timers := s.timers.erase (id, stage) }.expire id stage)
    else none

end App

/-! ## What frees the slot -/

/-- The stage that a settlement ends. -/
def Settlement.stage : Settlement → WindowCloseState
  | .fallback => .waitingForPresentation
  | .answer .. | .cancel | .expired => .waitingForAnswer

namespace WindowCloseCoordinator

variable (c : WindowCloseCoordinator) (id : ℕ)

/-- The calls that settle free the slot if the attempt is in their stage, and do nothing if not. -/
def release (p : ℕ × WindowCloseState) : WindowCloseCoordinator × Bool :=
  if c.active = some p then ({ c with active := none }, true) else (c, false)

theorem timedOut_eq : c.timedOut id = c.release (id, .waitingForPresentation) := by
  rw [timedOut, release]
  split
  · rename_i hnone
    rw [hnone, if_neg (Option.some_ne_none _).symm]
  · rename_i activeId state hactive
    simp only [hactive, Option.some.injEq, Prod.mk.injEq]
    by_cases hid : activeId = id
    · rw [if_neg (not_not.mpr hid)]
      exact if_congr (and_iff_right hid).symm rfl rfl
    · rw [if_pos hid, if_neg fun h ↦ hid h.1]

theorem answer_eq : c.answer id = c.release (id, .waitingForAnswer) := by
  rw [answer, release]
  split
  · rename_i hnone
    rw [hnone, if_neg (Option.some_ne_none _).symm]
  · rename_i activeId state hactive
    simp only [hactive, Option.some.injEq, Prod.mk.injEq]
    by_cases hcurrent : activeId = id ∧ state = .waitingForAnswer
    · rw [if_pos hcurrent, if_neg fun h ↦ h.elim (absurd hcurrent.1) (absurd hcurrent.2)]
    · rw [if_neg hcurrent, if_pos (not_and_or.mp hcurrent)]

theorem answerTimedOut_eq : c.answerTimedOut id = c.release (id, .waitingForAnswer) :=
  c.answer_eq id

theorem acknowledged_eq : c.acknowledged id =
    if c.active = some (id, .waitingForPresentation) then
      ({ c with active := some (id, .waitingForAnswer) }, true)
    else (c, false) := by
  rw [acknowledged]
  split
  · rename_i hnone
    rw [hnone, if_neg (Option.some_ne_none _).symm]
  · rename_i activeId state hactive
    simp only [hactive, Option.some.injEq, Prod.mk.injEq]
    by_cases hcurrent : activeId = id ∧ state = .waitingForPresentation
    · rw [if_pos hcurrent, if_neg fun h ↦ h.elim (absurd hcurrent.1) (absurd hcurrent.2),
        hcurrent.1]
    · rw [if_neg hcurrent, if_pos (not_and_or.mp hcurrent)]

end WindowCloseCoordinator

/-! ## The invariant -/

/-- Every attempt that was issued is in the slot or has been settled, and not twice. What has been
settled behind its acknowledgement was settled by what belongs there. -/
structure Slot (c : WindowCloseCoordinator) (settlements : List (ℕ × Settlement))
    (acknowledged : List ℕ) : Prop where
  nodup : (settlements.map Prod.fst).Nodup
  issued : ∀ id, id ∈ settlements.map Prod.fst ∨ c.active.map Prod.fst = some id ↔
    0 < id ∧ id ≤ c.nextId
  unsettled : ∀ p, c.active = some p → p.1 ∉ settlements.map Prod.fst
  stage : ∀ p, c.active = some p → (p.1 ∈ acknowledged ↔ p.2 = .waitingForAnswer)
  le : ∀ id ∈ acknowledged, id ≤ c.nextId
  stages : ∀ q ∈ settlements, q.1 ∈ acknowledged ↔ q.2.stage = .waitingForAnswer

section Slot

variable {c : WindowCloseCoordinator} {settlements : List (ℕ × Settlement)} {acknowledged : List ℕ}
  {id : ℕ} {x : Settlement} {p : ℕ × WindowCloseState}

theorem slot_new : Slot ⟨0, none⟩ [] [] where
  nodup := List.nodup_nil
  issued id := by
    constructor
    · rintro (hid | hid)
      · cases hid
      · cases hid
    · rintro ⟨hpos, hle⟩
      exact absurd hpos (Nat.not_lt.mpr hle)
  unsettled p hp := by cases hp
  stage p hp := by cases hp
  le id hid := by cases hid
  stages q hq := by cases hq

section

variable (h : Slot c settlements acknowledged)
include h

theorem Slot.pos (hp : c.active = some p) :
    0 < p.1 ∧ p.1 ≤ c.nextId :=
  (h.issued p.1).mp (Or.inr (by rw [hp, Option.map_some]))

/-- A gesture finds the slot free. -/
theorem Slot.begin (hfree : c.active = none) :
    Slot ⟨c.nextId + 1, some (c.nextId + 1, .waitingForPresentation)⟩ settlements acknowledged := by
  have hissued : ∀ id, id ∈ settlements.map Prod.fst ↔ 0 < id ∧ id ≤ c.nextId := by
    intro id
    rw [← h.issued id, hfree, Option.map_none]
    exact (or_iff_left (Option.some_ne_none id).symm).symm
  refine ⟨h.nodup, fun id ↦ ?_, fun p hp ↦ ?_, fun p hp ↦ ?_, fun id hid ↦ ?_, h.stages⟩
  · rw [hissued, Option.map_some, Option.some.injEq]
    dsimp only
    omega
  · cases hp
    rw [hissued]
    dsimp only
    omega
  · cases hp
    refine iff_of_false (fun hmem ↦ ?_) WindowCloseState.noConfusion
    exact absurd (h.le _ hmem) (Nat.not_succ_le_self _)
  · exact Nat.le_succ_of_le (h.le id hid)

/-- An acknowledgement of the attempt in the slot. -/
theorem Slot.acknowledge (hactive : c.active = some (id, .waitingForPresentation)) :
    Slot { c with active := some (id, .waitingForAnswer) } settlements (acknowledged ++ [id]) := by
  refine ⟨h.nodup, fun m ↦ ?_, fun p hp ↦ ?_, fun p hp ↦ ?_, fun m hm ↦ ?_, fun q hq ↦ ?_⟩
  · rw [← h.issued m, hactive]
    rfl
  · cases hp
    exact h.unsettled (id, .waitingForPresentation) hactive
  · cases hp
    exact iff_of_true (List.mem_append_right _ (List.mem_singleton.mpr rfl)) rfl
  · rcases List.mem_append.mp hm with hm | hm
    · exact h.le m hm
    · obtain rfl := List.mem_singleton.mp hm
      exact (h.pos hactive).2
  · have hne : q.1 ≠ id := by
      rintro rfl
      exact h.unsettled _ hactive (List.mem_map_of_mem hq)
    rw [← h.stages q hq, List.mem_append, List.mem_singleton]
    exact or_iff_left hne

/-- The attempt in the slot is settled by what ends its stage. -/
theorem Slot.release (hactive : c.active = some (id, x.stage)) :
    Slot { c with active := none } (settlements ++ [(id, x)]) acknowledged := by
  refine ⟨?_, fun m ↦ ?_, (fun p hp ↦ by cases hp), (fun p hp ↦ by cases hp), h.le, fun q hq ↦ ?_⟩
  · rw [List.map_append, List.map_singleton, ← List.concat_eq_append]
    exact h.nodup.concat (h.unsettled _ hactive)
  · rw [← h.issued m, hactive, List.map_append, List.map_singleton, List.mem_append,
      List.mem_singleton, Option.map_none, Option.map_some, Option.some.injEq, eq_comm (a := m)]
    exact or_iff_left (Option.some_ne_none m).symm
  · rcases List.mem_append.mp hq with hq | hq
    · exact h.stages q hq
    · obtain rfl := List.mem_singleton.mp hq
      exact h.stage _ hactive

end

end Slot

namespace App

variable {s s' : App} {es : List Event} {e : Event} {id : ℕ} {x : Settlement}
  {p : ℕ × WindowCloseState}

/-- The slot is in order. What is in it will be expired: the thread of its stage sleeps, or the
handler that has opened the stage is about to spawn it. -/
structure Valid (s : App) : Prop where
  slot : Slot s.coordinator s.settlements s.acknowledged
  armed : ∀ p, s.coordinator.active = some p → p ∈ s.timers ∨ p ∈ s.handlers

/-- A call that settles, where everything but its own attempt is armed. -/
theorem valid_settle (hslot : Slot s.coordinator s.settlements s.acknowledged)
    (harmed : ∀ p, s.coordinator.active = some p → p ≠ (id, x.stage) →
      p ∈ s.timers ∨ p ∈ s.handlers) :
    (s.settle id x (s.coordinator.release (id, x.stage))).Valid := by
  rw [settle, WindowCloseCoordinator.release]
  split
  · rename_i hactive
    exact ⟨hslot.release hactive, fun p hp ↦ by cases hp⟩
  · rename_i hactive
    exact ⟨hslot, fun p hp ↦ harmed p hp fun heq ↦ hactive (heq ▸ hp)⟩

theorem valid_new : new.Valid := ⟨slot_new, fun p hp ↦ by cases hp⟩

theorem Valid.spawnTimer (h : s.Valid) (p : ℕ × WindowCloseState) : (s.spawnTimer p).Valid := by
  refine ⟨h.slot, fun q hq ↦ ?_⟩
  rw [App.spawnTimer]
  by_cases hqp : q = p
  · exact Or.inl (List.mem_append_right _ (List.mem_singleton.mpr hqp))
  · rcases h.armed q hq with hq | hq
    · exact Or.inl (List.mem_append_left _ hq)
    · exact Or.inr ((List.mem_erase_of_ne hqp).mpr hq)

theorem Valid.step (h : s.Valid) : Ensures Valid (s.step e) := by
  cases e with
  | closeRequested behavior =>
    refine .of_some ?_
    rcases behavior with message | behavior
    · exact h
    cases behavior with
    | ask =>
      rw [handleNativeWindowClose, beginWindowClosePresentation, WindowCloseCoordinator.begin]
      rcases hactive : s.coordinator.active with _ | p
      -- A free slot takes the gesture, and its handler is to spawn the thread.
      · refine ⟨h.slot.begin hactive, fun q hq ↦ Or.inr ?_⟩
        cases hq
        exact List.mem_append_right _ (List.mem_singleton.mpr rfl)
      · exact h
    | hide => exact h
    | quit => exact h
  | presented id delivered =>
    rw [App.step]
    refine .guard fun _ ↦ .of_some ?_
    rw [presented]
    split
    · exact h.spawnTimer _
    · rw [expireWindowClosePresentation, WindowCloseCoordinator.timedOut_eq]
      -- the window cannot show the dialog, and the handler is gone without a thread
      refine valid_settle (x := .fallback) h.slot fun q hq hne ↦ ?_
      exact (h.armed q hq).imp_right (List.mem_erase_of_ne hne).mpr
  | acknowledge id =>
    refine .of_some ?_
    rw [acknowledgeDesktopClose, WindowCloseCoordinator.acknowledged_eq]
    by_cases hactive : s.coordinator.active = some (id, .waitingForPresentation)
    · rw [if_pos hactive]
      -- the first thread finds another stage from here on; the handler is to spawn the second
      refine ⟨h.slot.acknowledge hactive, fun q hq ↦ Or.inr ?_⟩
      cases hq
      exact List.mem_append_right _ (List.mem_singleton.mpr rfl)
    · rw [if_neg hactive]
      exact h
  | acknowledged id =>
    rw [App.step]
    exact .guard fun _ ↦ .of_some (h.spawnTimer _)
  | answer id action remember saved =>
    refine .of_some ?_
    have hstage : (answerSettlement action remember saved).stage = .waitingForAnswer := by
      cases remember <;> cases saved <;> rfl
    rw [answerDesktopClose, WindowCloseCoordinator.answer_eq, ← hstage]
    exact valid_settle h.slot fun q hq _ ↦ h.armed q hq
  | cancel id =>
    refine .of_some ?_
    rw [cancelDesktopClose, WindowCloseCoordinator.answer_eq]
    exact valid_settle (x := .cancel) h.slot fun q hq _ ↦ h.armed q hq
  | expires id stage =>
    rw [App.step]
    refine .guard fun _ ↦ .of_some ?_
    -- the thread has fired; whatever else is in the slot keeps its own
    have harmed : ∀ q, s.coordinator.active = some q → q ≠ (id, stage) →
        q ∈ s.timers.erase (id, stage) ∨ q ∈ s.handlers := fun q hq hne ↦
      (h.armed q hq).imp_left (List.mem_erase_of_ne hne).mpr
    cases stage with
    | waitingForPresentation =>
      rw [expire, expireWindowClosePresentation, WindowCloseCoordinator.timedOut_eq]
      exact valid_settle (x := .fallback) h.slot harmed
    | waitingForAnswer =>
      rw [expire, WindowCloseCoordinator.answerTimedOut_eq]
      exact valid_settle (x := .expired) h.slot harmed

/-! ## Stale events, and the ends of a stage -/

/-- What an event leaves that is not about the attempt in the slot: an expiry has used up its
thread. -/
def spent (s : App) : Event → App
  | .expires id stage => { s with timers := s.timers.erase (id, stage) }
  | _ => s

theorem settle_of_stale {stage : WindowCloseState}
    (hid : s.coordinator.active.map Prod.fst ≠ some id) :
    s.settle id x (s.coordinator.release (id, stage)) = s := by
  rw [settle, WindowCloseCoordinator.release, if_neg fun h ↦ hid (by rw [h, Option.map_some])]
  rfl

theorem step_stale (he : e.attemptId = some id)
    (hid : s.coordinator.active.map Prod.fst ≠ some id) :
    Ensures (fun s' ↦ s' = s.spent e) (s.step e) := by
  cases e with
  | closeRequested behavior => cases he
  | presented m delivered => cases he
  | acknowledged m => cases he
  | acknowledge m =>
    cases he
    refine .of_some ?_
    rw [acknowledgeDesktopClose, WindowCloseCoordinator.acknowledged_eq,
      if_neg fun h ↦ hid (by rw [h, Option.map_some])]
    rfl
  | answer m action remember saved =>
    cases he
    refine .of_some ?_
    rw [answerDesktopClose, WindowCloseCoordinator.answer_eq]
    exact settle_of_stale hid
  | cancel m =>
    cases he
    refine .of_some ?_
    rw [cancelDesktopClose, WindowCloseCoordinator.answer_eq]
    exact settle_of_stale hid
  | expires m stage =>
    cases he
    rw [step]
    refine .guard fun _ ↦ .of_some ?_
    cases stage with
    | waitingForPresentation =>
      rw [expire, expireWindowClosePresentation, WindowCloseCoordinator.timedOut_eq]
      exact settle_of_stale (s := s.spent (.expires _ .waitingForPresentation)) hid
    | waitingForAnswer =>
      rw [expire, WindowCloseCoordinator.answerTimedOut_eq]
      exact settle_of_stale (s := s.spent (.expires _ .waitingForAnswer)) hid

/-- The thread of the stage frees the slot. -/
theorem step_expires {stage : WindowCloseState}
    (hactive : s.coordinator.active = some (id, stage)) (harmed : (id, stage) ∈ s.timers) :
    ∃ t, s.step (.expires id stage) = some t ∧ t.coordinator.active = none ∧
      ∃ x, x.stage = stage ∧ t.settlements = s.settlements ++ [(id, x)] := by
  have hfree : ∀ x : Settlement, x.stage = stage →
      ((s.spent (.expires id stage)).settle id x (s.coordinator.release (id, stage))) =
        { s with
          timers := s.timers.erase (id, stage)
          coordinator := { s.coordinator with active := none }
          settlements := s.settlements ++ [(id, x)] } := by
    intro x _
    rw [settle, WindowCloseCoordinator.release, if_pos hactive]
    rfl
  cases stage with
  | waitingForPresentation =>
    refine ⟨_, if_pos harmed, ?_⟩
    rw [expire, expireWindowClosePresentation, WindowCloseCoordinator.timedOut_eq]
    exact (hfree .fallback rfl).symm ▸ ⟨rfl, .fallback, rfl, rfl⟩
  | waitingForAnswer =>
    refine ⟨_, if_pos harmed, ?_⟩
    rw [expire, WindowCloseCoordinator.answerTimedOut_eq]
    exact (hfree .expired rfl).symm ▸ ⟨rfl, .expired, rfl, rfl⟩

/-- The second step of a handler spawns the thread, or it frees the slot, if the attempt is still in
the stage that the handler has opened. -/
theorem step_handler (hp : e.handler = some p) :
    Ensures (fun t ↦ p ∈ t.timers ∨ t.coordinator.active ≠ some p) (s.step e) := by
  cases e with
  | presented id delivered =>
    cases hp
    rw [step]
    refine .guard fun _ ↦ .of_some ?_
    rw [presented]
    split
    · exact Or.inl (List.mem_append_right _ (List.mem_singleton.mpr rfl))
    · right
      rw [expireWindowClosePresentation, WindowCloseCoordinator.timedOut_eq]
      intro hactive
      rw [settle, WindowCloseCoordinator.release] at hactive
      split at hactive
      · cases hactive
      · rename_i hne
        exact hne hactive
  | acknowledged id =>
    cases hp
    rw [step]
    exact .guard fun _ ↦ .of_some (Or.inl (List.mem_append_right _ (List.mem_singleton.mpr rfl)))
  | closeRequested behavior => cases hp
  | acknowledge id => cases hp
  | answer id action remember saved => cases hp
  | cancel id => cases hp
  | expires id stage => cases hp

/-- **Settled once**: in every run each attempt is settled at most once, and one that is not is in
the slot. The native dialog is for attempts that were not acknowledged, and an answer is acted on
for those that were. Where a handler is not between its two steps, whatever is in the slot has a
thread for its stage, and that thread settles it; a handler that is spawns the thread in its second
step, or settles. An event for another attempt changes nothing, and a free slot takes the next
gesture. -/
theorem run_settlesOnce (hrun : run step new es = some s) :
    (s.settlements.map Prod.fst).Nodup ∧
      (∀ id, 0 < id → id ≤ s.coordinator.nextId →
        (id ∈ s.settlements.map Prod.fst ↔ s.coordinator.active.map Prod.fst ≠ some id)) ∧
      (∀ id, (id, .fallback) ∈ s.settlements → id ∉ s.acknowledged) ∧
      (∀ id behavior action, (id, .answer behavior action) ∈ s.settlements → id ∈ s.acknowledged) ∧
      (∀ id stage, s.coordinator.active = some (id, stage) →
        ((id, stage) ∉ s.handlers → (id, stage) ∈ s.timers) ∧
        ((id, stage) ∈ s.timers →
          ∃ t, s.step (.expires id stage) = some t ∧ t.coordinator.active = none ∧
            ∃ x, x.stage = stage ∧ t.settlements = s.settlements ++ [(id, x)])) ∧
      (∀ e p t, e.handler = some p → s.step e = some t →
        p ∈ t.timers ∨ t.coordinator.active ≠ some p) ∧
      (∀ e id t, e.attemptId = some id → s.coordinator.active.map Prod.fst ≠ some id →
        s.step e = some t → t = s.spent e) ∧
      (s.coordinator.active = none →
        (s.handleNativeWindowClose (.ok .ask)).coordinator.active =
          some (s.coordinator.nextId + 1, .waitingForPresentation)) := by
  have h : s.Valid := run_invariant Valid (fun _ _ _ h hstep ↦ h.step hstep) valid_new hrun
  refine ⟨h.slot.nodup, fun id hpos hle ↦ ⟨fun hid hactive ↦ ?_, fun hid ↦ ?_⟩, fun id hid ↦ ?_,
    fun id behavior action hid ↦ ?_, fun id stage hactive ↦ ⟨?_, step_expires hactive⟩,
    fun e p t hp hstep ↦ step_handler hp hstep,
    fun e id t he hid hstep ↦ step_stale he hid hstep, fun hfree ↦ ?_⟩
  · obtain ⟨p, hp, rfl⟩ := Option.map_eq_some_iff.mp hactive
    exact h.slot.unsettled p hp hid
  · exact ((h.slot.issued id).mpr ⟨hpos, hle⟩).resolve_right hid
  · exact fun hacked ↦ WindowCloseState.noConfusion ((h.slot.stages _ hid).mp hacked)
  · exact (h.slot.stages _ hid).mpr rfl
  · exact (h.armed _ hactive).resolve_right
  · rw [handleNativeWindowClose, beginWindowClosePresentation, WindowCloseCoordinator.begin, hfree]
    rfl

/-- The second gesture comes in while the first one waits, and the page answers late. -/
theorem run_settlesOnce_late : ∃ s : App,
    run step new [.closeRequested (.ok .ask), .presented 1 true, .acknowledge 1,
      .closeRequested (.ok .ask), .acknowledged 1, .expires 1 .waitingForPresentation,
      .expires 1 .waitingForAnswer, .answer 1 .quit false true, .closeRequested (.ok .ask)] =
        some s ∧
      s.coordinator.active = some (2, .waitingForPresentation) ∧
      (s.settlements.map Prod.fst).Nodup :=
  ⟨_, rfl, rfl, (@run_settlesOnce _ [.closeRequested (.ok .ask), .presented 1 true, .acknowledge 1,
    .closeRequested (.ok .ask), .acknowledged 1, .expires 1 .waitingForPresentation,
    .expires 1 .waitingForAnswer, .answer 1 .quit false true, .closeRequested (.ok .ask)] rfl).1⟩

end App

end Lasterm.Desktop.WindowClose
