import Mathlib.Algebra.Order.Group.Nat
import Mathlib.Data.List.Rotate

/-!
# Going round a ring

A ring of slots, each with some items and a position among them that it keeps. The slot at the head
of the queue goes on to its next item. When it has no next one, the slot behind it comes to the head
and goes on in turn, from wherever it was.

When every slot is at its last item, a round visits all items, slot by slot, and so does every later
round (`isRotated_visits_of_settled`). When every slot is at its first item, those behind the head
are entered at their second one, and whether that shows in some round depends on few of the slots
(`isRotated_visits_iff_of_fresh`).
-/

namespace RoundRobin

variable {α : Type*}

structure Slot (α : Type*) where
  items : List α
  pos : ℕ
  /-- There is an item at the position. -/
  pos_lt : pos < items.length

namespace Slot

theorem length_pos (s : Slot α) : 0 < s.items.length := s.pos.zero_le.trans_lt s.pos_lt

def current (s : Slot α) : α := s.items.get ⟨s.pos, s.pos_lt⟩

/-- On to the next item, from the last one to the first. -/
def advance (s : Slot α) : Slot α :=
  ⟨s.items, (s.pos + 1) % s.items.length, Nat.mod_lt _ s.length_pos⟩

/-- On to the last item. -/
def settle (s : Slot α) : Slot α :=
  ⟨s.items, s.items.length - 1, Nat.sub_one_lt s.length_pos.ne'⟩

def AtEnd (s : Slot α) : Prop := s.pos + 1 = s.items.length

/-- The items that are left. -/
def itemsLeft (s : Slot α) : List α := s.items.drop (s.pos + 1)

/-- The items visited when the slot comes to the head, up to the last one. -/
def entered (s : Slot α) : List α := s.items.drop ((s.pos + 1) % s.items.length)

theorem ext_pos {s t : Slot α} (hitems : s.items = t.items) (hpos : s.pos = t.pos) : s = t := by
  cases s
  cases t
  subst hitems hpos
  rfl

@[simp] theorem items_settle (s : Slot α) : s.settle.items = s.items := rfl

@[simp] theorem items_advance (s : Slot α) : s.advance.items = s.items := rfl

theorem pos_advance (s : Slot α) : s.advance.pos = (s.pos + 1) % s.items.length := rfl

theorem atEnd_settle (s : Slot α) : s.settle.AtEnd := Nat.sub_add_cancel s.length_pos

theorem AtEnd.settle_eq {s : Slot α} (h : s.AtEnd) : s.settle = s :=
  ext_pos rfl (Nat.sub_eq_of_eq_add h.symm)

theorem AtEnd.entered_eq {s : Slot α} (h : s.AtEnd) : s.entered = s.items := by
  rw [entered, h, Nat.mod_self, List.drop_zero]

theorem AtEnd.itemsLeft_eq {s : Slot α} (h : s.AtEnd) : s.itemsLeft = [] := by
  rw [itemsLeft, h, List.drop_length]

theorem entered_eq_cons (s : Slot α) :
    s.entered = s.advance.current :: s.advance.itemsLeft :=
  List.drop_eq_getElem_cons s.advance.pos_lt

/-- A slot that was settled starts anew. -/
theorem advance_settle {s : Slot α} (h : s.pos = 0) : s.settle.advance = s := by
  refine ext_pos rfl ?_
  rw [pos_advance, s.atEnd_settle, items_settle, Nat.mod_self, h]

theorem atEnd_of_length_eq_one {s : Slot α} (h : s.items.length = 1) : s.AtEnd := by
  have hlt := s.pos_lt
  rw [AtEnd]
  omega

end Slot

open Slot

def step : List (Slot α) → List (Slot α)
  | [] => []
  | s :: rest =>
    if s.pos + 1 < s.items.length then s.advance :: rest else (rest ++ [s]).modifyHead advance

/-- The items at the head after each of `n` steps. -/
def visits : ℕ → List (Slot α) → List α
  | 0, _ => []
  | n + 1, q => ((step q).head?.map current).toList ++ visits n (step q)

variable {q q' q'' rest rest' : List (Slot α)} {s t : Slot α} {vs ws : List α}

/-! ## Runs -/

theorem visits_add (m n : ℕ) (q : List (Slot α)) :
    visits (m + n) q = visits m q ++ visits n (step^[m] q) := by
  induction m generalizing q with
  | zero => rw [Nat.zero_add]; rfl
  | succ m ih =>
    rw [Nat.add_right_comm, visits, ih, visits, List.append_assoc, Function.iterate_succ_apply]

@[simp] theorem length_step (q : List (Slot α)) : (step q).length = q.length := by
  cases q with
  | nil => rfl
  | cons s rest =>
    rw [step]
    split
    · rfl
    · rw [List.length_modifyHead, List.length_append]
      rfl

theorem step_ne_nil (h : q ≠ []) : step q ≠ [] := by
  rwa [← List.length_pos_iff, length_step, List.length_pos_iff]

theorem visits_nil (n : ℕ) : visits n ([] : List (Slot α)) = [] := by
  induction n with
  | zero => rfl
  | succ n ih => exact ih

theorem length_visits (h : q ≠ []) (n : ℕ) : (visits n q).length = n := by
  induction n generalizing q with
  | zero => rfl
  | succ n ih =>
    obtain ⟨s, rest, hstep⟩ := List.exists_cons_of_ne_nil (step_ne_nil h)
    rw [visits, List.length_append, ih (step_ne_nil h), hstep]
    exact Nat.add_comm 1 n

/-- What is visited from a queue on depends on its first step only. -/
theorem visits_iterate_congr (h : step q = step q') (k n : ℕ) :
    visits n (step^[k] q) = visits n (step^[k] q') := by
  have hstep : step (step^[k] q) = step (step^[k] q') :=
    calc step (step^[k] q) = step^[k] (step q) := Function.Commute.self_iterate step k q
      _ = step^[k] (step q') := by rw [h]
      _ = step (step^[k] q') := (Function.Commute.self_iterate step k q').symm
  cases n with
  | zero => rfl
  | succ n => rw [visits, visits, hstep]

/-- There is a run from `q` to `q'` that visits just these items. -/
def Reaches (q : List (Slot α)) (vs : List α) (q' : List (Slot α)) : Prop :=
  visits vs.length q = vs ∧ step^[vs.length] q = q'

theorem Reaches.refl (q : List (Slot α)) : Reaches q [] q := ⟨rfl, rfl⟩

theorem Reaches.trans (h : Reaches q vs q') (h' : Reaches q' ws q'') :
    Reaches q (vs ++ ws) q'' := by
  rw [Reaches, List.length_append, visits_add, h.1, h.2, h'.1, Nat.add_comm,
    Function.iterate_add_apply, h.2, h'.2]
  exact ⟨rfl, rfl⟩

theorem Reaches.of_step (h : step q = s :: rest) : Reaches q [s.current] (s :: rest) := by
  rw [Reaches, List.length_singleton, visits, h]
  exact ⟨rfl, h⟩

/-- A round that ends where it began goes on after the first step with its first item at the
end. -/
theorem Reaches.rotate_one (h : Reaches q vs q) : Reaches (step q) (vs.rotate 1) (step q) := by
  obtain ⟨hvisits, hend⟩ := h
  cases vs with
  | nil => exact .refl _
  | cons v vs =>
    have hne : q ≠ [] := by
      rintro rfl
      rw [visits_nil] at hvisits
      cases hvisits
    obtain ⟨s, rest, hstep⟩ := List.exists_cons_of_ne_nil (step_ne_nil hne)
    have hfirst := Reaches.of_step hstep
    rw [List.length_cons, visits, hstep] at hvisits
    rw [List.length_cons, Function.iterate_succ_apply, hstep] at hend
    obtain ⟨rfl, hrest⟩ := List.cons_eq_cons.mp hvisits
    rw [hstep, List.rotate_cons_succ, List.rotate_zero]
    exact Reaches.trans ⟨hrest, hend⟩ hfirst

theorem Reaches.rotate (h : Reaches q vs q) (k : ℕ) :
    Reaches (step^[k] q) (vs.rotate k) (step^[k] q) := by
  induction k with
  | zero => rwa [List.rotate_zero]
  | succ k ih =>
    rw [Function.iterate_succ_apply', ← List.rotate_rotate]
    exact ih.rotate_one

/-! ## A slot at the head -/

theorem step_of_lt (h : s.pos + 1 < s.items.length) : step (s :: rest) = s.advance :: rest :=
  if_pos h

theorem step_of_atEnd (h : s.AtEnd) (hrest : rest ++ [s] = t :: rest') :
    step (s :: rest) = t.advance :: rest' := by
  rw [step, if_neg (Nat.not_lt_of_le h.ge), hrest, List.modifyHead_cons]

/-- The slot at the head goes through the items that it has left. -/
theorem reaches_settle (s : Slot α) (rest : List (Slot α)) :
    Reaches (s :: rest) s.itemsLeft (s.settle :: rest) := by
  induction hn : s.items.length - (s.pos + 1) generalizing s with
  | zero =>
    have hend : s.AtEnd := by
      have hlt := s.pos_lt
      rw [AtEnd]
      omega
    rw [hend.itemsLeft_eq, hend.settle_eq]
    exact .refl _
  | succ n ih =>
    have hlt : s.pos + 1 < s.items.length := by omega
    have hpos : s.advance.pos = s.pos + 1 := Nat.mod_eq_of_lt hlt
    have hfirst : Reaches (s :: rest) [s.advance.current] (s.advance :: rest) :=
      .of_step (step_of_lt hlt)
    have hrest := ih s.advance (by rw [hpos, items_advance]; omega)
    have hleft : s.itemsLeft = [s.advance.current] ++ s.advance.itemsLeft := by
      rw [List.singleton_append, ← entered_eq_cons, entered, Nat.mod_eq_of_lt hlt, itemsLeft]
    rw [hleft]
    exact hfirst.trans hrest

/-- The next slot comes to the head and goes through its items. -/
theorem reaches_entered (h : s.AtEnd) (hrest : rest ++ [s] = t :: rest') :
    Reaches (s :: rest) t.entered (t.settle :: rest') := by
  have hfirst := Reaches.of_step (step_of_atEnd h hrest)
  rw [entered_eq_cons]
  exact hfirst.trans (reaches_settle t.advance rest')

/-- The slots behind the head come to it one after the other. -/
theorem reaches_round (todo tail : List (Slot α)) (hend : ∀ s ∈ q.head?, s.AtEnd)
    (hq : q.rotate 1 = todo ++ tail) :
    ∃ q', q'.rotate 1 = tail ++ todo.map settle ∧ Reaches q (todo.flatMap entered) q' := by
  induction todo generalizing q tail with
  | nil => exact ⟨q, by rw [hq, List.map_nil, List.append_nil, List.nil_append], .refl _⟩
  | cons t todo ih =>
    cases q with
    | nil => cases hq
    | cons s rest =>
      rw [List.rotate_cons_succ, List.rotate_zero, List.cons_append] at hq
      have hfirst := reaches_entered (hend s rfl) hq
      obtain ⟨q', hq', hrest⟩ := ih (q := t.settle :: (todo ++ tail)) (tail ++ [t.settle])
        (by rintro _ ⟨⟩; exact t.atEnd_settle)
        (by rw [List.rotate_cons_succ, List.rotate_zero, List.append_assoc])
      refine ⟨q', ?_, ?_⟩
      · rw [hq', List.append_assoc, List.map_cons, List.singleton_append]
      · rw [List.flatMap_cons]
        exact hfirst.trans hrest

/-! ## Settled rings -/

/-- Every slot is at its last item. -/
def Settled (q : List (Slot α)) : Prop := ∀ s ∈ q, s.AtEnd

def items (q : List (Slot α)) : List α := q.flatMap Slot.items

theorem items_map_settle (q : List (Slot α)) : items (q.map settle) = items q :=
  List.flatMap_map _ _ _

theorem settled_map_settle (q : List (Slot α)) : Settled (q.map settle) := by
  rintro _ hs
  obtain ⟨s, -, rfl⟩ := List.mem_map.mp hs
  exact s.atEnd_settle

theorem Settled.map_settle (h : Settled q) : q.map settle = q :=
  (List.map_congr_left fun s hs ↦ (h s hs).settle_eq).trans (List.map_id q)

theorem Settled.of_rotate {k : ℕ} (h : Settled (q.rotate k)) : Settled q :=
  fun s hs ↦ h s (List.mem_rotate.mpr hs)

theorem isRotated_flatMap {β γ : Type*} (f : β → List γ) {l l' : List β} (h : l ~r l') :
    l.flatMap f ~r l'.flatMap f := by
  obtain ⟨k, rfl⟩ := h
  rw [List.rotate_eq_drop_append_take_mod, List.flatMap_append]
  nth_rewrite 1 [← List.take_append_drop (k % l.length) l]
  rw [List.flatMap_append]
  exact List.isRotated_append

theorem isRotated_items (h : q ~r q') : items q ~r items q' := isRotated_flatMap _ h

/-- One round leads back. -/
theorem Settled.reaches (h : Settled q) : Reaches q (items (q.rotate 1)) q := by
  have hmem : ∀ s ∈ q.rotate 1, s.AtEnd := fun s hs ↦ h s (List.mem_rotate.mp hs)
  obtain ⟨q', hq', hround⟩ := reaches_round (q.rotate 1) []
    (fun s hs ↦ h s (List.mem_of_mem_head? hs)) (List.append_nil _).symm
  have hentered : (q.rotate 1).flatMap entered = items (q.rotate 1) :=
    List.flatMap_congr fun s hs ↦ (hmem s hs).entered_eq
  rw [List.nil_append, Settled.map_settle hmem] at hq'
  rwa [List.rotate_injective 1 hq', hentered] at hround

/-- **Round after round, a settled ring visits all items, slot by slot.** -/
theorem isRotated_visits_of_settled (h : Settled q) (k : ℕ) :
    visits (items q).length (step^[k] q) ~r items q := by
  have hrotated : items (q.rotate 1) ~r items q := isRotated_items (List.IsRotated.forall q 1)
  have hround := (h.reaches.rotate k).1
  rw [List.length_rotate, hrotated.perm.length_eq] at hround
  rw [hround]
  exact (List.IsRotated.forall _ k).trans hrotated

/-! ## Fresh rings -/

/-- Every slot is at its first item. -/
def Fresh (q : List (Slot α)) : Prop := ∀ s ∈ q, s.pos = 0

theorem visits_eq_take {m n : ℕ} (h : m ≤ n) (hne : q ≠ []) : visits m q = (visits n q).take m := by
  obtain ⟨d, rfl⟩ := Nat.exists_eq_add_of_le h
  rw [visits_add, List.take_append_of_le_length (length_visits hne m).ge,
    List.take_of_length_le (length_visits hne m).le]

/-- How many items are passed over when the slots are entered. -/
def skipped : List (Slot α) → ℕ
  | [] => 0
  | s :: rest => s.advance.pos + skipped rest

theorem pos_advance_le_skipped (h : s ∈ q) : s.advance.pos ≤ skipped q := by
  induction q with
  | nil => cases h
  | cons t rest ih =>
    rw [skipped]
    obtain rfl | h := List.mem_cons.mp h
    · exact Nat.le_add_right _ _
    · exact (ih h).trans (Nat.le_add_left _ _)

theorem length_flatMap_entered (q : List (Slot α)) :
    (q.flatMap entered).length + skipped q = (items q).length := by
  induction q with
  | nil => rfl
  | cons s rest ih =>
    have hentered : s.entered.length + s.advance.pos = s.items.length := by
      rw [entered, List.length_drop]
      exact Nat.sub_add_cancel s.advance.pos_lt.le
    rw [items, List.flatMap_cons, List.flatMap_cons, List.length_append, List.length_append,
      skipped, ← hentered, ← items, ← ih]
    omega

/-- The items visited in the first round: those left at the head and those of the slots entered. -/
def firstRound (s : Slot α) (rest : List (Slot α)) : List α := s.itemsLeft ++ rest.flatMap entered

theorem length_firstRound (s : Slot α) (rest : List (Slot α)) :
    (firstRound s rest).length + (s.pos + 1 + skipped rest) = (items (s :: rest)).length := by
  have hleft : s.itemsLeft.length + (s.pos + 1) = s.items.length := by
    rw [itemsLeft, List.length_drop]
    exact Nat.sub_add_cancel s.pos_lt
  rw [firstRound, items, List.flatMap_cons, List.length_append, List.length_append, ← hleft,
    ← items, ← length_flatMap_entered]
  omega

/-- After its first round any ring is settled, and starts from the first item of all. -/
theorem visits_firstRound {n : ℕ} (hn : n ≤ (items (s :: rest)).length) :
    visits ((firstRound s rest).length + n) (s :: rest)
      = firstRound s rest ++ (items (s :: rest)).take n := by
  obtain ⟨q', hq', hround⟩ := reaches_round (q := s.settle :: rest) rest [s.settle]
    (by rintro _ ⟨⟩; exact s.atEnd_settle) (by rw [List.rotate_cons_succ, List.rotate_zero])
  have hsettled : Settled q' := Settled.of_rotate (k := 1) (hq' ▸ settled_map_settle (s :: rest))
  have hitems : items (q'.rotate 1) = items (s :: rest) := by
    rw [hq', List.singleton_append, ← List.map_cons, items_map_settle]
  have hne : q' ≠ [] := by
    rintro rfl
    cases hq'
  obtain ⟨hfirst, hend⟩ := (reaches_settle s rest).trans hround
  have hsecond := hsettled.reaches.1
  rw [hitems] at hsecond
  rw [firstRound, visits_add, hfirst, hend, visits_eq_take hn hne, hsecond]

/-- If a round has no item twice, the items that were passed over in the first one come next. -/
theorem disjoint_firstRound (h : (visits (items (s :: rest)).length (s :: rest)).Nodup) :
    (firstRound s rest).Disjoint ((items (s :: rest)).take (s.pos + 1 + skipped rest)) := by
  have hlength := length_firstRound s rest
  rw [← hlength, visits_firstRound (by omega)] at h
  exact List.disjoint_of_nodup_append h

theorem one_le_skipped (h : Fresh q) (hmultiple : ∃ s ∈ q, s.items.length ≠ 1) : 1 ≤ skipped q := by
  obtain ⟨s, hs, hlength⟩ := hmultiple
  have hpos := s.length_pos
  have hskip := pos_advance_le_skipped hs
  rwa [pos_advance, h s hs, Nat.mod_eq_of_lt (by omega)] at hskip

theorem current_advance_mem_entered (s : Slot α) : s.advance.current ∈ s.entered := by
  rw [entered_eq_cons]
  exact List.mem_cons_self

theorem current_advance_mem_take (pre : List α) {post : List α} {n : ℕ}
    (h : pre.length + s.advance.pos < n) :
    s.advance.current ∈ (pre ++ (s.items ++ post)).take n := by
  rw [List.take_append, List.take_append]
  refine List.mem_append_right _ (List.mem_append_left _ ?_)
  exact List.mem_take_iff_getElem.mpr ⟨s.advance.pos, lt_min (by omega) s.advance.pos_lt, rfl⟩

/-- If the first round has no item twice, only the slot behind a single item can have several. -/
theorem length_eq_one_of_nodup (hfresh : Fresh (s :: rest))
    (h : (visits (items (s :: rest)).length (s :: rest)).Nodup) :
    (∀ t ∈ rest, t.items.length = 1) ∨
      s.items.length = 1 ∧ ∀ t ∈ rest.tail, t.items.length = 1 := by
  obtain ⟨hs, hrest⟩ := List.forall_mem_cons.mp hfresh
  have hdisjoint := disjoint_firstRound h
  rw [hs, Nat.zero_add, items, List.flatMap_cons] at hdisjoint
  by_contra! hnot
  obtain ⟨hmultiple, htail⟩ := hnot
  have hone : s.items.length = 1 := by
    -- otherwise the second item of the head, visited first, comes again
    by_contra hlength
    have hpos := s.length_pos
    have hskip := one_le_skipped hrest hmultiple
    have hadvance : s.advance.pos = 1 := by rw [pos_advance, hs, Nat.mod_eq_of_lt (by omega)]
    have hleft : s.itemsLeft = s.entered := by rw [itemsLeft, hs, Nat.zero_add, ← hadvance]; rfl
    refine hdisjoint (List.mem_append_left _ (hleft ▸ current_advance_mem_entered s)) ?_
    exact current_advance_mem_take [] (by rw [List.length_nil]; omega)
  obtain ⟨u, hu, hlength⟩ := htail hone
  cases rest with
  | nil => cases hu
  | cons t rest =>
    -- the first item visited of the slot behind the head comes again
    have hskip := one_le_skipped (fun v hv ↦ hrest v (List.mem_cons_of_mem t hv)) ⟨u, hu, hlength⟩
    have hsum : skipped (t :: rest) = t.advance.pos + skipped rest := rfl
    have hmem : t.advance.current ∈ firstRound s (t :: rest) := by
      rw [firstRound, List.flatMap_cons]
      exact List.mem_append_right _ (List.mem_append_left _ (current_advance_mem_entered t))
    rw [List.flatMap_cons] at hdisjoint
    exact hdisjoint hmem (current_advance_mem_take s.items (by omega))

/-- A fresh ring in which no more slots have several items goes on as a settled one does. -/
theorem exists_settled (hfresh : Fresh (s :: rest))
    (h : (∀ t ∈ rest, t.items.length = 1) ∨
      s.items.length = 1 ∧ ∀ t ∈ rest.tail, t.items.length = 1) :
    ∃ q, Settled q ∧ items q ~r items (s :: rest) ∧ step (s :: rest) = step (step q) := by
  obtain ⟨hs, hrest⟩ := List.forall_mem_cons.mp hfresh
  by_cases hall : ∀ t ∈ rest, t.items.length = 1
  · -- the ring is where the one with the head settled goes on to
    obtain ⟨q, hq⟩ : ∃ q, q.rotate 1 = s.settle :: rest :=
      ⟨(s.settle :: rest).rotate rest.length, by
        rw [List.rotate_rotate, ← List.length_cons (a := s.settle), List.rotate_length]⟩
    have hsettled : Settled (q.rotate 1) := by
      rw [hq]
      exact List.forall_mem_cons.mpr
        ⟨s.atEnd_settle, fun t ht ↦ atEnd_of_length_eq_one (hall t ht)⟩
    refine ⟨q, hsettled.of_rotate, ?_, ?_⟩
    · have hrotated := isRotated_items (List.IsRotated.forall q 1)
      rw [hq] at hrotated
      exact hrotated.symm
    · cases q with
      | nil => cases hq
      | cons u rest' =>
        rw [List.rotate_cons_succ, List.rotate_zero] at hq
        rw [step_of_atEnd (hsettled.of_rotate u List.mem_cons_self) hq, advance_settle hs]
  · obtain ⟨hone, htail⟩ := h.resolve_left hall
    cases rest with
    | nil => exact absurd (List.forall_mem_nil _) hall
    | cons t rest =>
      -- both come to the second item of the slot behind the head
      have ht : t.pos = 0 := hrest t List.mem_cons_self
      have hpos := t.length_pos
      have hlt : t.pos + 1 < t.items.length := by
        by_contra hle
        exact hall (List.forall_mem_cons.mpr ⟨by omega, htail⟩)
      have hend := atEnd_of_length_eq_one hone
      refine ⟨s :: t.settle :: rest, ?_, .refl _, ?_⟩
      · exact List.forall_mem_cons.mpr ⟨hend, List.forall_mem_cons.mpr
          ⟨t.atEnd_settle, fun u hu ↦ atEnd_of_length_eq_one (htail u hu)⟩⟩
      · rw [step_of_atEnd hend rfl, step_of_atEnd hend rfl, advance_settle ht, List.append_eq,
          step_of_lt hlt]

/-- **In a fresh ring every round visits all items, slot by slot, just if all slots behind the head
have one item, or the head and all but the next one have.** -/
theorem isRotated_visits_iff_of_fresh (hfresh : Fresh (s :: rest))
    (hnodup : (items (s :: rest)).Nodup) :
    (∀ k, visits (items (s :: rest)).length (step^[k] (s :: rest)) ~r items (s :: rest)) ↔
      (∀ t ∈ rest, t.items.length = 1) ∨
        s.items.length = 1 ∧ ∀ t ∈ rest.tail, t.items.length = 1 := by
  constructor
  · intro h
    exact length_eq_one_of_nodup hfresh ((h 0).nodup_iff.mpr hnodup)
  · intro h k
    obtain ⟨q, hsettled, hitems, hstep⟩ := exists_settled hfresh h
    rw [visits_iterate_congr hstep, ← Function.iterate_succ_apply, ← hitems.perm.length_eq]
    exact (isRotated_visits_of_settled hsettled (k + 1)).trans hitems

end RoundRobin
