import Lasterm.Library.Incremental
import Mathlib.Algebra.Order.Ring.Nat

/-!
# Length-prefixed frames

A frame is a four-byte little-endian length followed by that many bytes. `cutter` reads frames off
a buffer and refuses lengths above a limit; a refused length looks to it like an incomplete frame,
and the readers built on it test for the difference.

`drain_frames` is the round trip. What the readers need beyond it concerns a buffer that holds only
the beginning of a stream of frames: `drain_frames_take` says which frames are complete in it, and
`readLe32_le_of_frames` that no length standing at the front of the rest is above the limit.
-/

namespace LengthPrefix

open Incremental

/-! ## The length field -/

/-- The four bytes of `n % 2 ^ 32`, least significant first. -/
def le32 (n : ℕ) : List UInt8 :=
  [UInt8.ofNat n, UInt8.ofNat (n / 2 ^ 8), UInt8.ofNat (n / 2 ^ 16), UInt8.ofNat (n / 2 ^ 24)]

/-- The number in the first four bytes; only ever asked of buffers that have them. -/
def readLe32 : List UInt8 → ℕ
  | a :: b :: c :: d :: _ => a.toNat + 2 ^ 8 * b.toNat + 2 ^ 16 * c.toNat + 2 ^ 24 * d.toNat
  | _ => 0

@[simp] theorem length_le32 (n : ℕ) : (le32 n).length = 4 := rfl

theorem readLe32_le32_append {n : ℕ} (hn : n < 2 ^ 32) (r : List UInt8) :
    readLe32 (le32 n ++ r) = n := by
  simp only [le32, readLe32, List.cons_append, UInt8.toNat_ofNat']
  omega

theorem readLe32_append {b : List UInt8} (h : 4 ≤ b.length) (c : List UInt8) :
    readLe32 (b ++ c) = readLe32 b := by
  match b, h with
  | _ :: _ :: _ :: _ :: _, _ => rfl

/-! ## Frames -/

/-- A payload behind its length. -/
def frame (p : List UInt8) : List UInt8 := le32 p.length ++ p

@[simp] theorem length_frame (p : List UInt8) : (frame p).length = 4 + p.length := by
  rw [frame, List.length_append, length_le32]

/-- Take one frame off the buffer: its payload, and what follows it. -/
def cut (max : ℕ) (b : List UInt8) : Option (List UInt8 × List UInt8) :=
  if b.length < 4 ∨ max < readLe32 b ∨ b.length < 4 + readLe32 b then none
  else some ((b.drop 4).take (readLe32 b), b.drop (4 + readLe32 b))

theorem cut_eq_some_iff {max : ℕ} {b p r : List UInt8} :
    cut max b = some (p, r) ↔ 4 ≤ b.length ∧ readLe32 b ≤ max ∧ 4 + readLe32 b ≤ b.length ∧
      (b.drop 4).take (readLe32 b) = p ∧ b.drop (4 + readLe32 b) = r := by
  rw [cut]
  split
  · rename_i h
    simp only [reduceCtorEq, false_iff]
    omega
  · rename_i h
    rw [Option.some.injEq, Prod.mk.injEq]
    exact ⟨fun hpr ↦ ⟨by omega, by omega, by omega, hpr⟩, fun hpr ↦ hpr.2.2.2⟩

/-- Frames with payloads up to `max`, as an incremental reader. -/
def cutter (max : ℕ) : Cutter UInt8 (List UInt8) where
  cut := cut max
  shorter := by
    intro b p r h
    obtain ⟨-, -, hlen, -, rfl⟩ := cut_eq_some_iff.mp h
    rw [List.length_drop]
    omega
  stable := by
    intro b p r c h
    obtain ⟨h4, hmax, hlen, rfl, rfl⟩ := cut_eq_some_iff.mp h
    refine cut_eq_some_iff.mpr ?_
    rw [readLe32_append h4, List.length_append, List.drop_append_of_le_length h4,
      List.take_append_of_le_length (by rw [List.length_drop]; omega),
      List.drop_append_of_le_length hlen]
    exact ⟨by omega, hmax, by omega, rfl, rfl⟩

variable {max : ℕ}

theorem cutter_cut_nil (max : ℕ) : (cutter max).cut [] = none := rfl

section Sized

variable (hmax : max < 2 ^ 32) {ps : List (List UInt8)}

include hmax

theorem cut_frame_append {p : List UInt8} (hp : p.length ≤ max) (r : List UInt8) :
    cut max (frame p ++ r) = some (p, r) := by
  have hread : readLe32 (frame p ++ r) = p.length := by
    rw [frame, List.append_assoc]
    exact readLe32_le32_append (lt_of_le_of_lt hp hmax) _
  have hdrop4 : (frame p ++ r).drop 4 = p ++ r := by
    rw [frame, List.append_assoc]
    exact List.drop_left' (length_le32 _)
  refine cut_eq_some_iff.mpr ?_
  rw [hread, hdrop4, List.take_left' rfl, List.length_append, length_frame,
    List.drop_left' (length_frame p)]
  exact ⟨by omega, hp, by omega, rfl, rfl⟩

/-- A buffer that yields no item does not reach the end of the frame it begins with. -/
theorem length_lt_of_cut_eq_none {p b c r : List UInt8} (hp : p.length ≤ max)
    (hb : cut max b = none) (h : b ++ c = frame p ++ r) : b.length < 4 + p.length := by
  by_contra hlen
  have htake := congrArg (List.take (4 + p.length)) h
  rw [List.take_left' (length_frame p), List.take_append_of_le_length (by omega)] at htake
  have hsplit : b = frame p ++ b.drop (4 + p.length) := by
    rw [← htake, List.take_append_drop]
  rw [hsplit, cut_frame_append hmax hp] at hb
  cases hb

/-- A buffer that ends inside a frame yields no item. -/
theorem cut_of_prefix_frame {p b c : List UInt8} (hp : p.length ≤ max)
    (hb : b.length < 4 + p.length) (h : b ++ c = frame p) : cut max b = none := by
  rw [cut, if_pos]
  by_cases h4 : b.length < 4
  · exact Or.inl h4
  · have hread : readLe32 b = p.length := by
      rw [← readLe32_append (not_lt.mp h4) c, h, frame]
      exact readLe32_le32_append (lt_of_le_of_lt hp hmax) _
    exact Or.inr (Or.inr (by rw [hread]; exact hb))

section

variable (hps : ∀ p ∈ ps, p.length ≤ max)
include hps

/-- **Round trip.** Reading back a stream of frames gives the payloads and leaves nothing. -/
theorem drain_frames :
    drain (cutter max) (ps.flatMap frame) = (ps, []) := by
  induction ps with
  | nil => exact drain_of_none (cutter max) (cutter_cut_nil max)
  | cons p ps ih =>
    have hcut : (cutter max).cut (frame p ++ ps.flatMap frame) = some (p, ps.flatMap frame) :=
      cut_frame_append hmax (hps p List.mem_cons_self) _
    rw [List.flatMap_cons, drain_of_some _ hcut, ih fun q hq ↦ hps q (List.mem_cons_of_mem p hq)]

/-- Draining the beginning `b` of a stream of frames gives the first payloads; the rest of `b` is
the beginning of what remains of the stream, and does not reach the end of its first frame. -/
theorem drain_frames_take {b c : List UInt8} (h : b ++ c = ps.flatMap frame) :
    ∃ qs rs, ps = qs ++ rs ∧ (drain (cutter max) b).1 = qs ∧
      b = qs.flatMap frame ++ (drain (cutter max) b).2 ∧
      (drain (cutter max) b).2 ++ c = rs.flatMap frame ∧
      ∀ r ∈ rs.head?, (drain (cutter max) b).2.length < 4 + r.length := by
  induction ps generalizing b with
  | nil =>
    have hb : b = [] := (List.append_eq_nil_iff.mp h).1
    subst hb
    rw [drain_of_none (cutter max) (cutter_cut_nil max)]
    exact ⟨[], [], rfl, rfl, rfl, h, by simp⟩
  | cons p ps ih =>
    have hp := hps p List.mem_cons_self
    rw [List.flatMap_cons] at h
    by_cases hlen : b.length < 4 + p.length
    · have hpre : b ++ (frame p).drop b.length = frame p := by
        have htake : b = (frame p).take b.length := by
          have := congrArg (List.take b.length) h
          rwa [List.take_left' rfl,
            List.take_append_of_le_length (by rw [length_frame]; omega)] at this
        conv_lhs => rw [htake, List.length_take, length_frame, min_eq_left (by omega)]
        exact List.take_append_drop _ _
      have hcut : (cutter max).cut b = none := cut_of_prefix_frame hmax hp hlen hpre
      rw [drain_of_none _ hcut]
      exact ⟨[], p :: ps, rfl, rfl, rfl, h, by simpa using hlen⟩
    · obtain ⟨b', rfl⟩ : ∃ b', b = frame p ++ b' := by
        have := congrArg (List.take (4 + p.length)) h
        rw [List.take_left' (length_frame p), List.take_append_of_le_length (by omega)] at this
        exact ⟨b.drop (4 + p.length), by rw [← this, List.take_append_drop]⟩
      rw [List.append_assoc, List.append_cancel_left_eq] at h
      obtain ⟨qs, rs, hsplit, hfst, hb, hrest, hhead⟩ :=
        ih (fun q hq ↦ hps q (List.mem_cons_of_mem p hq)) h
      have hcut : (cutter max).cut (frame p ++ b') = some (p, b') := cut_frame_append hmax hp b'
      rw [drain_of_some _ hcut]
      refine ⟨p :: qs, rs, by rw [hsplit, List.cons_append], by rw [hfst], ?_, hrest, hhead⟩
      rw [List.flatMap_cons, List.append_assoc, ← hb]

/-- The beginning of a stream of frames never shows a length above the limit. -/
theorem readLe32_le_of_frames
    {b c : List UInt8} (h : b ++ c = ps.flatMap frame) (hb : 4 ≤ b.length) :
    readLe32 b ≤ max := by
  cases ps with
  | nil =>
    rw [List.flatMap_nil, List.append_eq_nil_iff] at h
    rw [h.1] at hb
    exact absurd hb (by simp)
  | cons p ps =>
    have hp := hps p List.mem_cons_self
    rw [← readLe32_append hb c, h, List.flatMap_cons, frame, List.append_assoc,
      readLe32_le32_append (lt_of_le_of_lt hp hmax)]
    exact hp

end

end Sized

end LengthPrefix
