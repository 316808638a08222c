import Mathlib.Data.List.Basic

/-!
# Incremental readers

A reader that is handed its input in arbitrary pieces keeps what it could not use yet and tries
again when more arrives. All it needs to be indifferent to how the input was cut is that an item,
once complete, is not changed by what follows it. This file isolates that fact: a `Cutter` takes
one item off the front of a buffer, `drain` takes as many as there are, and `feed` runs `drain`
over a list of pieces with the rest carried along.

The two laws of a `Cutter` are the whole interface. `drain_append` is the one computation; the
chunk independence `feed_eq_drain_flatten` is a fold over it.
-/

namespace Incremental

variable {α β : Type*}

/-- A way to take one item off the front of a buffer. -/
structure Cutter (α β : Type*) where
  /-- The first item and the rest of the buffer, or `none` when more input is needed. -/
  cut : List α → Option (β × List α)
  /-- An item takes up room. -/
  shorter : ∀ {b : List α} {x : β} {r : List α}, cut b = some (x, r) → r.length < b.length
  /-- A complete item is not changed by what follows it. -/
  stable : ∀ {b : List α} {x : β} {r : List α} (c : List α),
    cut b = some (x, r) → cut (b ++ c) = some (x, r ++ c)

variable (C : Cutter α β)

/-- All complete items of a buffer, and what is left behind them. -/
def drain (b : List α) : List β × List α :=
  match _h : C.cut b with
  | none => ([], b)
  | some (x, r) => (x :: (drain r).1, (drain r).2)
termination_by b.length
decreasing_by all_goals exact C.shorter ‹_›

theorem drain_of_none {b : List α} (h : C.cut b = none) : drain C b = ([], b) := by
  rw [drain]
  split
  · rfl
  · rename_i hs
    rw [h] at hs
    cases hs

theorem drain_of_some {b r : List α} {x : β} (h : C.cut b = some (x, r)) :
    drain C b = (x :: (drain C r).1, (drain C r).2) := by
  rw [drain]
  split
  · rename_i hs
    rw [h] at hs
    cases hs
  · rename_i y s hs
    rw [h] at hs
    cases hs
    rfl

/-- Induction along the items of a buffer. -/
theorem drain_induction {P : List α → Prop} (wait : ∀ b, C.cut b = none → P b)
    (item : ∀ b x r, C.cut b = some (x, r) → P r → P b) (b : List α) : P b := by
  induction hn : b.length using Nat.strongRecOn generalizing b with
  | _ n ih =>
    cases h : C.cut b with
    | none => exact wait b h
    | some p =>
      obtain ⟨x, r⟩ := p
      exact item b x r h (ih r.length (hn ▸ C.shorter h) r rfl)

/-- `drain` stops only where no further item is complete. -/
theorem cut_drain_snd (b : List α) : C.cut (drain C b).2 = none := by
  induction b using drain_induction C with
  | wait b h => rw [drain_of_none C h]; exact h
  | item b x r h ih => rw [drain_of_some C h]; exact ih

/-- **Draining two pieces.** The rest of the first piece is what the second is appended to. -/
theorem drain_append (b c : List α) :
    drain C (b ++ c) = ((drain C b).1 ++ (drain C ((drain C b).2 ++ c)).1,
      (drain C ((drain C b).2 ++ c)).2) := by
  induction b using drain_induction C with
  | wait b h => rw [drain_of_none C h, List.nil_append]
  | item b x r h ih =>
    rw [drain_of_some C h, drain_of_some C (C.stable c h), ih]
    rfl

/-- Run `drain` over the pieces, carrying the rest; one list of items for each piece. -/
def feed : List α → List (List α) → List (List β) × List α
  | b, [] => ([], b)
  | b, c :: cs =>
    ((drain C (b ++ c)).1 :: (feed (drain C (b ++ c)).2 cs).1, (feed (drain C (b ++ c)).2 cs).2)

/-- **Chunk independence.** However the input is cut into pieces, the items are those of the whole
input, in order, and the same rest is left. -/
theorem feed_eq_drain_flatten (b : List α) (cs : List (List α)) (hb : C.cut b = none) :
    ((feed C b cs).1.flatten, (feed C b cs).2) = drain C (b ++ cs.flatten) := by
  induction cs generalizing b with
  | nil => rw [feed, List.flatten_nil, List.flatten_nil, List.append_nil, drain_of_none C hb]
  | cons c cs ih =>
    have htail := ih (drain C (b ++ c)).2 (cut_drain_snd C (b ++ c))
    rw [List.flatten_cons, ← List.append_assoc, drain_append C (b ++ c), ← htail]
    rfl

/-! ## Stateful readers -/

/-- Hand the pieces to a reader with a state, one push after the other; one result for each. -/
def pushAll {σ γ ρ : Type*} (push : σ → γ → σ × ρ) : σ → List γ → σ × List ρ
  | s, [] => (s, [])
  | s, c :: cs =>
    ((pushAll push (push s c).1 cs).1, (push s c).2 :: (pushAll push (push s c).1 cs).2)

theorem pushAll_concat {σ γ ρ : Type*} (push : σ → γ → σ × ρ) (s : σ) (cs : List γ) (c : γ) :
    (pushAll push s (cs ++ [c])).2 =
      (pushAll push s cs).2 ++ [(push (pushAll push s cs).1 c).2] := by
  induction cs generalizing s with
  | nil => rfl
  | cons c' cs ih =>
    rw [List.cons_append, pushAll, ih]
    rfl

/-- A reader whose pushes are `drain` behind a map on the items is `feed` behind that map. `ok` is
what such a push needs to know of the buffer and all the input still to come. -/
theorem pushAll_eq_feed {σ ρ : Type*} (push : σ → List α → σ × ρ) (buffer : σ → List α)
    (out : List β → ρ) (ok : List α → Prop)
    (hpush : ∀ s c rest, ok (buffer s ++ c ++ rest) →
      buffer (push s c).1 = (drain C (buffer s ++ c)).2 ∧
        (push s c).2 = out (drain C (buffer s ++ c)).1 ∧
        ok ((drain C (buffer s ++ c)).2 ++ rest))
    (s : σ) (cs : List (List α)) (h : ok (buffer s ++ cs.flatten)) :
    buffer (pushAll push s cs).1 = (feed C (buffer s) cs).2 ∧
      (pushAll push s cs).2 = (feed C (buffer s) cs).1.map out := by
  induction cs generalizing s with
  | nil => exact ⟨rfl, rfl⟩
  | cons c cs ih =>
    rw [List.flatten_cons, ← List.append_assoc] at h
    obtain ⟨hbuf, hout, hok⟩ := hpush s c cs.flatten h
    obtain ⟨hrest, hresults⟩ := ih (push s c).1 (by rw [hbuf]; exact hok)
    rw [hbuf] at hrest hresults
    refine ⟨hrest, ?_⟩
    rw [pushAll, feed, List.map_cons, hout, hresults]

end Incremental
