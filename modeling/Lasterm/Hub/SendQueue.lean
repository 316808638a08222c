import Lasterm.Library.Ledger
import Lasterm.Library.Runs

/-!
# The send queue

`send-queue.ts`: frames for an agent go straight to its stream until a write says that the stream is
full; then they are queued until the stream has drained. The queue is limited, and a full one loses
its oldest frame.

A step is what happens between two things that the stream decides: when a `drain` comes, and what a
write returns. A `drain` may come while a write has not returned, so that there is a stack of calls.
A frame carries the number of its `send`.

Nothing overtakes because a frame is written directly only while the queue is empty (`Inv.empty`):
outside all calls a queue with frames means that the stream has not drained.
-/

namespace Lasterm.Hub

open Ledger
open Runs (Ensures)

def MAX_QUEUE_SIZE : ℕ := 1000

/-- A frame, with the number of the call that sends it. -/
abbrev SentFrame := Numbered (List UInt8)

/-- A call that waits for what `stream.write` returns. -/
inductive SendCall where
  | send
  | flush
  deriving DecidableEq

/-- A queue with an attached stream. -/
structure SendQueue where
  queue : List SentFrame
  draining : Bool
  /-- The calls under way, the innermost first. -/
  calls : List SendCall
  /-- The calls of `send` so far. -/
  count : ℕ
  /-- What was passed to `stream.write`. -/
  written : List SentFrame

inductive SendEvent where
  | send (data : List UInt8)
  /-- The stream emits `drain`. -/
  | drain
  /-- The innermost `stream.write` returns. -/
  | returns (ok : Bool)

namespace SendQueue

def new : SendQueue := ⟨[], false, [], 0, []⟩

def enqueue (s : SendQueue) (frame : SentFrame) : SendQueue :=
  let queue := if MAX_QUEUE_SIZE ≤ s.queue.length then s.queue.drop 1 else s.queue
  { s with queue := queue ++ [frame] }

/-- The head of the loop in `flush`: the next frame is written, or the call is over. -/
def shift (s : SendQueue) : SendQueue :=
  match s.queue with
  | [] => s
  | frame :: queue =>
    { s with queue := queue, calls := .flush :: s.calls, written := s.written ++ [frame] }

/-- Nothing that the stream does calls `send`. -/
def step (s : SendQueue) : SendEvent → Option SendQueue
  | .send data =>
    if s.calls ≠ [] then none
    else
      let frame : SentFrame := ⟨s.count, data⟩
      let s := { s with count := s.count + 1 }
      if s.draining then some (s.enqueue frame)
      else some { s with calls := [.send], written := s.written ++ [frame] }
  | .drain => some { s with draining := false }.shift
  | .returns ok =>
    match s.calls with
    | [] => none
    | .send :: calls => some { s with calls := calls, draining := s.draining || !ok }
    | .flush :: calls =>
      if ok then some { s with calls := calls }.shift
      else some { s with calls := calls, draining := true }

/-! ## What was sent -/

/-- What a run sends. -/
def sentData (es : List SendEvent) : List (List UInt8) :=
  es.filterMap fun
    | .send data => some data
    | _ => none

/-- The frames that a run sends. -/
def sentFrames (es : List SendEvent) : List SentFrame := numbered (sentData es)

/-- The frame was the oldest of a full queue when another one came. -/
def DroppedAsOldest (es : List SendEvent) (frame : SentFrame) : Prop :=
  ∃ es₁ data es₂ t, es = es₁ ++ .send data :: es₂ ∧ Runs.run step new es₁ = some t ∧
    t.draining = true ∧ t.queue.length = MAX_QUEUE_SIZE ∧ t.queue.head? = some frame

theorem sentData_concat (es : List SendEvent) (e : SendEvent) :
    sentData (es ++ [e]) = sentData es ++ sentData [e] := List.filterMap_append

variable {es : List SendEvent} {s : SendQueue}

theorem DroppedAsOldest.append {frame : SentFrame}
    (h : DroppedAsOldest es frame) (es' : List SendEvent) : DroppedAsOldest (es ++ es') frame := by
  obtain ⟨es₁, data, es₂, t, rfl, hrest⟩ := h
  exact ⟨es₁, data, es₂ ++ es', t, by rw [List.append_assoc, List.cons_append], hrest⟩

/-! ## The invariant -/

/-- Where the frames of a run are. -/
structure Inv (es : List SendEvent) (s : SendQueue) : Prop where
  count : s.count = (sentData es).length
  accounts : Accounts (DroppedAsOldest es) (sentFrames es) (s.written ++ s.queue)
  limit : s.queue.length ≤ MAX_QUEUE_SIZE
  /-- Outside all calls, and below a call of `send`, there is nothing that could be overtaken. -/
  empty : (s.calls = [] ∧ s.draining = false) ∨ s.calls.getLast? = some .send → s.queue = []

theorem Inv.new : Inv [] new := ⟨rfl, .nil, Nat.zero_le _, fun _ ↦ rfl⟩

theorem written_append_queue_shift (s : SendQueue) :
    s.shift.written ++ s.shift.queue = s.written ++ s.queue := by
  rw [shift]
  split
  · rfl
  · rename_i frame queue hqueue
    rw [hqueue, List.append_assoc, List.singleton_append]

theorem count_shift (s : SendQueue) : s.shift.count = s.count := by
  rw [shift]
  split <;> rfl

theorem length_queue_shift_le (s : SendQueue) : s.shift.queue.length ≤ s.queue.length := by
  rw [shift]
  split
  · exact Nat.le_refl _
  · rename_i frame queue hqueue
    rw [hqueue]
    exact Nat.le_succ _

/-- A loop that stops has emptied the queue. -/
theorem queue_shift (h : s.calls.getLast? = some .send → s.queue = [])
    (hshift : s.shift.calls = [] ∧ s.shift.draining = false ∨ s.shift.calls.getLast? = some .send) :
    s.shift.queue = [] := by
  rw [shift] at hshift ⊢
  split
  · rename_i hqueue
    exact hqueue
  · rename_i frame queue hqueue
    rw [hqueue] at hshift
    rcases hshift with ⟨hnil, -⟩ | hlast
    · exact absurd hnil (List.cons_ne_nil _ _)
    · cases hcalls : s.calls with
      | nil => rw [hcalls] at hlast; cases hlast
      | cons call calls =>
        rw [hcalls, List.getLast?_cons_cons, ← hcalls] at hlast
        exact absurd (h hlast) (by rw [hqueue]; exact List.cons_ne_nil _ _)

/-- A step that sends nothing. -/
theorem Inv.quiet {s s' : SendQueue} (h : Inv es s) {e : SendEvent}
    (he : sentData [e] = []) (hcount : s'.count = s.count)
    (hframes : s'.written ++ s'.queue = s.written ++ s.queue)
    (hlength : s'.queue.length ≤ s.queue.length)
    (hempty : (s'.calls = [] ∧ s'.draining = false) ∨ s'.calls.getLast? = some .send →
      s'.queue = []) : Inv (es ++ [e]) s' := by
  have hsent : sentData (es ++ [e]) = sentData es := by rw [sentData_concat, he, List.append_nil]
  refine ⟨by rw [hsent, hcount, h.count], ?_, hlength.trans h.limit, hempty⟩
  rw [sentFrames, hsent, hframes]
  exact h.accounts.mono fun _ hlost ↦ hlost.append [e]

/-- A frame comes behind those that are kept. -/
theorem Inv.sent {s s' : SendQueue} (h : Inv es s) {data : List UInt8}
    {kept : List SentFrame}
    (hkept : Accounts (DroppedAsOldest (es ++ [.send data])) (sentFrames es) kept)
    (hcount : s'.count = s.count + 1) (hframes : s'.written ++ s'.queue = kept ++ [⟨s.count, data⟩])
    (hlimit : s'.queue.length ≤ MAX_QUEUE_SIZE)
    (hempty : (s'.calls = [] ∧ s'.draining = false) ∨ s'.calls.getLast? = some .send →
      s'.queue = []) : Inv (es ++ [.send data]) s' := by
  have hsent : sentData (es ++ [.send data]) = sentData es ++ [data] := sentData_concat es _
  refine ⟨?_, ?_, hlimit, hempty⟩
  · rw [hsent, hcount, List.length_append, List.length_singleton, h.count]
  · rw [sentFrames, hsent, numbered_concat, ← h.count, hframes]
    exact hkept.push _

/-- The next frame takes the place of the oldest of a full queue. -/
theorem Inv.accounts_full (h : Inv es s)
    (hrun : Runs.run step SendQueue.new es = some s) (data : List UInt8)
    (hdraining : s.draining = true) (hfull : s.queue.length = MAX_QUEUE_SIZE) :
    Accounts (DroppedAsOldest (es ++ [.send data])) (sentFrames es)
      (s.written ++ s.queue.drop 1) := by
  obtain ⟨oldest, queue, hqueue⟩ := List.exists_cons_of_length_pos
    (show 0 < s.queue.length by rw [hfull]; decide)
  have hoccupied := h.accounts.mono fun _ hlost ↦ hlost.append [.send data]
  rw [hqueue] at hoccupied
  rw [hqueue, List.drop_one, List.tail_cons]
  refine hoccupied.lose ?_
  exact ⟨es, data, [], s, rfl, hrun, hdraining, hfull, by rw [hqueue, List.head?_cons]⟩

theorem Inv.step (h : Inv es s) (hrun : Runs.run step SendQueue.new es = some s) {e : SendEvent} :
    Ensures (Inv (es ++ [e])) (s.step e) := by
  cases e with
  | send data =>
    rw [SendQueue.step]
    refine .guardNot fun hcalls ↦ ?_
    have hnocalls : s.calls = [] := not_not.mp hcalls
    have hkept := h.accounts.mono fun _ hlost ↦ hlost.append [.send data]
    dsimp only
    split
    · rename_i hdraining
      refine .of_some ?_
      -- while it drains, outside all calls, the queue may hold frames: `empty` promises nothing
      have hempty :
          (s.calls = [] ∧ s.draining = false) ∨ s.calls.getLast? = some .send → False := by
        rw [hnocalls, hdraining]
        rintro (⟨-, hfalse⟩ | hlast)
        · cases hfalse
        · cases hlast
      by_cases hfull : MAX_QUEUE_SIZE ≤ s.queue.length
      · have hsize := Nat.le_antisymm h.limit hfull
        refine h.sent (h.accounts_full hrun data hdraining hsize) rfl ?_ ?_ fun hcase ↦
          (hempty hcase).elim
        · rw [enqueue, if_pos hfull]
          exact (List.append_assoc _ _ _).symm
        · rw [enqueue, if_pos hfull, List.length_append, List.length_drop, List.length_singleton,
            hsize]
          decide
      · refine h.sent hkept rfl ?_ ?_ fun hcase ↦ (hempty hcase).elim
        · rw [enqueue, if_neg hfull]
          exact (List.append_assoc _ _ _).symm
        · rw [enqueue, if_neg hfull, List.length_append, List.length_singleton]
          exact Nat.lt_of_not_le hfull
    · rename_i hdraining
      refine .of_some ?_
      -- the frame goes straight to the stream, and overtakes nothing
      have hqueue := h.empty (.inl ⟨hnocalls, Bool.not_eq_true _ |>.mp hdraining⟩)
      refine h.sent hkept rfl ?_ h.limit fun _ ↦ hqueue
      rw [hqueue, List.append_nil, List.append_nil]
  | drain =>
    refine .of_some ?_
    exact h.quiet rfl (count_shift _) (written_append_queue_shift _)
      (length_queue_shift_le _) (queue_shift fun hlast ↦ h.empty (.inr hlast))
  | returns ok =>
    rw [SendQueue.step]
    split
    · exact .of_none
    · rename_i calls hcalls
      refine .of_some (h.quiet rfl rfl rfl (Nat.le_refl _) fun hcase ↦ h.empty (.inr ?_))
      rw [hcalls]
      cases calls with
      | nil => rfl
      | cons call calls =>
        rw [List.getLast?_cons_cons]
        exact hcase.resolve_left fun hnil ↦ List.cons_ne_nil _ _ hnil.1
    -- A loop over the queue: it goes on if the stream took the frame, and waits if not.
    · rename_i calls hcalls
      have hlast : calls.getLast? = some .send → s.queue = [] := by
        intro hlast
        refine h.empty (.inr ?_)
        rw [hcalls]
        cases calls with
        | nil => cases hlast
        | cons call calls => rwa [List.getLast?_cons_cons]
      split
      · refine .of_some ?_
        exact h.quiet rfl (count_shift _) (written_append_queue_shift _)
          (length_queue_shift_le _) (queue_shift hlast)
      · refine .of_some (h.quiet rfl rfl rfl (Nat.le_refl _) fun hcase ↦ ?_)
        exact hlast (hcase.resolve_left fun hnil ↦ by cases hnil.2)

/-! ## Every run -/

/-- **Order and loss**: what was written and what is queued is, in this order, some of what was
sent; what is missing was once the oldest frame of a full queue. -/
theorem run_order {es : List SendEvent} {s : SendQueue} (h : Runs.run step new es = some s) :
    (s.written ++ s.queue).Sublist (sentFrames es) ∧
      ((s.written ++ s.queue).map Numbered.number).Nodup ∧
      ∀ frame ∈ sentFrames es, frame ∉ s.written ++ s.queue → DroppedAsOldest es frame := by
  have hinv : Inv es s :=
    Runs.run_history Inv Inv.new (fun es t e t' hrun hinv hstep ↦ hinv.step hrun hstep) h
  refine ⟨hinv.accounts.order, ?_, hinv.accounts.lost⟩
  rw [List.Nodup, List.pairwise_map]
  exact ((pairwise_numbered _).sublist hinv.accounts.order).imp Nat.ne_of_lt

theorem run_order_pressed :
    ∃ s, Runs.run step new [.send [1], .returns false, .send [2], .drain, .drain, .returns true,
        .send [3], .returns true] = some s ∧
      (s.written ++ s.queue).Sublist [⟨0, [1]⟩, ⟨1, [2]⟩, ⟨2, [3]⟩] :=
  ⟨_, rfl, (@run_order [.send [1], .returns false, .send [2], .drain, .drain, .returns true,
    .send [3], .returns true] _ rfl).1⟩

end SendQueue

end Lasterm.Hub
