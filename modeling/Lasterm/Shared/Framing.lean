import Lasterm.Library.LengthPrefix
import Lasterm.Shared.Codec

/-!
# The hub's frame reader

`framing.ts`: messages between hub and agent travel as length-prefixed frames, and a `FrameReader`
collects bytes until frames are complete.

`push` can throw, and a throw is not a clean return to the state before: `this.buffer` already holds
the new bytes and has lost the frames consumed so far, while the messages decoded from them are in
a local that is dropped. The model therefore returns the reader's state beside the result, whatever
the result is.

The loop is read through three equations, one for each way an iteration can end: it waits
(`extract_wait`), it delivers (`extract_item`), or it throws on a payload it cannot decode
(`extract_bad`). A reader that has thrown for that reason has the bad frame at the front of its
buffer and throws at every later push (`delivered_pushAll_of_bad`).
-/

namespace Lasterm

open Incremental LengthPrefix

def LENGTH_PREFIX_BYTES : ℕ := 4

/-- 10 MB. -/
def MAX_FRAME_SIZE : ℕ := 10 * 1024 * 1024

theorem MAX_FRAME_SIZE_lt : MAX_FRAME_SIZE < 2 ^ 32 := by decide

/-- What the framing layer throws. -/
inductive FrameError where
  | rangeError (message : String)
  | decodeError

/-! ## Encoding -/

/-- The payload behind `setUint32(0, payload.byteLength, littleEndian)`. -/
def encodeFrame (mp : MsgPack) (message : Value) : Except FrameError (List UInt8) :=
  let payload := encodeMessage mp message
  if MAX_FRAME_SIZE < payload.length then
    .error (.rangeError ("Frame payload too large: " ++ toString payload.length ++ " bytes (max "
      ++ toString MAX_FRAME_SIZE ++ ")"))
  else .ok (le32 payload.length ++ payload)

theorem encodeFrame_eq_ok {mp : MsgPack} {m : Value}
    (h : (encodeMessage mp m).length ≤ MAX_FRAME_SIZE) :
    encodeFrame mp m = .ok (frame (encodeMessage mp m)) := if_neg (not_lt.mpr h)

/-! ## Reading -/

structure FrameReader where
  buffer : List UInt8

namespace FrameReader

variable (mp : MsgPack)

/-- A new reader. -/
def new : FrameReader := ⟨[]⟩

/-- The `while (true)` of `push`: the buffer it leaves, and the messages or the exception. -/
def extract (buffer : List UInt8) (messages : List Value) :
    List UInt8 × Except FrameError (List Value) :=
  if buffer.length < LENGTH_PREFIX_BYTES then (buffer, .ok messages)
  else if MAX_FRAME_SIZE < readLe32 buffer then
    (buffer, .error (.rangeError ("Incoming frame too large: " ++ toString (readLe32 buffer)
      ++ " bytes (max " ++ toString MAX_FRAME_SIZE ++ ")")))
  else if buffer.length < LENGTH_PREFIX_BYTES + readLe32 buffer then (buffer, .ok messages)
  else
    match decodeMessage mp ((buffer.drop LENGTH_PREFIX_BYTES).take (readLe32 buffer)) with
    -- the throw comes before `this.buffer` is advanced
    | none => (buffer, .error .decodeError)
    | some m => extract (buffer.drop (LENGTH_PREFIX_BYTES + readLe32 buffer)) (messages ++ [m])
termination_by buffer.length
decreasing_by
  rw [List.length_drop, LENGTH_PREFIX_BYTES] at *
  omega

def push (r : FrameReader) (data : List UInt8) :
    FrameReader × Except FrameError (List Value) :=
  (⟨(extract mp (r.buffer ++ data) []).1⟩, (extract mp (r.buffer ++ data) []).2)

def bufferedBytes (r : FrameReader) : ℕ := r.buffer.length

end FrameReader

/-- The messages that came out of a run of pushes: those of the pushes that returned. After a throw
the caller goes on with the reader as the throw left it. -/
def delivered {ε μ : Type*} (results : List (Except ε (List μ))) : List μ :=
  results.flatMap fun
    | .ok ms => ms
    | .error _ => []

@[simp] theorem delivered_ok_cons {ε μ : Type*} (ms : List μ) (rs : List (Except ε (List μ))) :
    delivered (.ok ms :: rs) = ms ++ delivered rs := rfl

@[simp] theorem delivered_error_cons {ε μ : Type*} (e : ε) (rs : List (Except ε (List μ))) :
    delivered (.error e :: rs) = delivered rs := rfl

namespace FrameReader

variable {mp : MsgPack} {b p r : List UInt8}

/-! ## One iteration -/

theorem extract_wait {b : List UInt8} (h : cut MAX_FRAME_SIZE b = none)
    (hsize : 4 ≤ b.length → readLe32 b ≤ MAX_FRAME_SIZE) (ms : List Value) :
    extract mp b ms = (b, .ok ms) := by
  rw [cut] at h
  rw [extract, LENGTH_PREFIX_BYTES]
  by_cases h4 : b.length < 4
  · rw [if_pos h4]
  · rw [if_neg h4, if_neg (not_lt.mpr (hsize (not_lt.mp h4))), if_pos]
    by_contra hlen
    rw [if_neg (by have := hsize (not_lt.mp h4); omega)] at h
    cases h

section

variable (h : cut MAX_FRAME_SIZE b = some (p, r))
include h

private theorem extract_of_cut (ms : List Value) :
    extract mp b ms = match decodeMessage mp p with
      | none => (b, .error .decodeError)
      | some m => extract mp r (ms ++ [m]) := by
  obtain ⟨h4, hmax, hlen, rfl, rfl⟩ := cut_eq_some_iff.mp h
  conv_lhs => rw [extract]
  rw [LENGTH_PREFIX_BYTES, if_neg (not_lt.mpr h4), if_neg (not_lt.mpr hmax),
    if_neg (not_lt.mpr hlen)]

theorem extract_item {m : Value} (hm : decodeMessage mp p = some m) (ms : List Value) :
    extract mp b ms = extract mp r (ms ++ [m]) := by
  rw [extract_of_cut h, hm]

theorem extract_bad (hm : decodeMessage mp p = none) (ms : List Value) :
    extract mp b ms = (b, .error .decodeError) := by
  rw [extract_of_cut h, hm]

end

/-! ## One push -/

/-- No oversized length is in sight once the complete frames of `b` are gone. -/
def WellSized (b : List UInt8) : Prop :=
  4 ≤ (drain (cutter MAX_FRAME_SIZE) b).2.length →
    readLe32 (drain (cutter MAX_FRAME_SIZE) b).2 ≤ MAX_FRAME_SIZE

private theorem wellSized_of_cut (h : cut MAX_FRAME_SIZE b = some (p, r)) :
    WellSized b ↔ WellSized r := by
  rw [WellSized, WellSized, drain_of_some (cutter MAX_FRAME_SIZE) h]

/-- If every complete frame decodes, all of them are delivered and the rest is kept. -/
theorem extract_of_forall_decode {b : List UInt8} (hsize : WellSized b)
    (hb : ∀ p ∈ (drain (cutter MAX_FRAME_SIZE) b).1, (decodeMessage mp p).isSome)
    (ms : List Value) :
    extract mp b ms = ((drain (cutter MAX_FRAME_SIZE) b).2,
      .ok (ms ++ (drain (cutter MAX_FRAME_SIZE) b).1.filterMap (decodeMessage mp))) := by
  induction b using drain_induction (cutter MAX_FRAME_SIZE) generalizing ms with
  | wait b h =>
    rw [WellSized, drain_of_none _ h] at hsize
    rw [extract_wait h hsize, drain_of_none _ h, List.filterMap_nil, List.append_nil]
  | item b p r h ih =>
    rw [drain_of_some _ h] at hb ⊢
    obtain ⟨m, hm⟩ := Option.isSome_iff_exists.mp (hb p List.mem_cons_self)
    rw [extract_item h hm, ih ((wellSized_of_cut h).mp hsize)
      fun q hq ↦ hb q (List.mem_cons_of_mem p hq), List.filterMap_cons_some hm,
      List.append_assoc, List.singleton_append]

/-- A complete frame that does not decode makes the push throw, and stays at the front of the
buffer. -/
theorem extract_of_bad {b bad : List UInt8} {good rest : List (List UInt8)}
    (hsplit : (drain (cutter MAX_FRAME_SIZE) b).1 = good ++ bad :: rest)
    (hgood : ∀ p ∈ good, (decodeMessage mp p).isSome) (hbad : decodeMessage mp bad = none)
    (ms : List Value) :
    ∃ b' r, extract mp b ms = (b', .error .decodeError) ∧
      cut MAX_FRAME_SIZE b' = some (bad, r) := by
  induction b using drain_induction (cutter MAX_FRAME_SIZE) generalizing good ms with
  | wait b h =>
    rw [drain_of_none _ h] at hsplit
    exact absurd hsplit (by simp)
  | item b p r h ih =>
    rw [drain_of_some _ h] at hsplit
    cases good with
    | nil =>
      rw [List.nil_append, List.cons.injEq] at hsplit
      obtain ⟨rfl, -⟩ := hsplit
      exact ⟨b, r, extract_bad h hbad ms, h⟩
    | cons g good =>
      rw [List.cons_append, List.cons.injEq] at hsplit
      obtain ⟨rfl, hsplit⟩ := hsplit
      obtain ⟨m, hm⟩ := Option.isSome_iff_exists.mp (hgood p List.mem_cons_self)
      rw [extract_item h hm]
      exact ih hsplit (fun q hq ↦ hgood q (List.mem_cons_of_mem p hq)) _

/-! ## After a throw -/

theorem push_of_bad {r : FrameReader} {bad rest : List UInt8}
    (h : cut MAX_FRAME_SIZE r.buffer = some (bad, rest)) (hbad : decodeMessage mp bad = none)
    (c : List UInt8) : push mp r c = (⟨r.buffer ++ c⟩, .error .decodeError) := by
  have hcut : cut MAX_FRAME_SIZE (r.buffer ++ c) = some (bad, rest ++ c) :=
    (cutter MAX_FRAME_SIZE).stable c h
  rw [push, extract_bad hcut hbad]

/-- **A bad frame at the front blocks the reader for good.** -/
theorem delivered_pushAll_of_bad {r : FrameReader} {bad rest : List UInt8}
    (h : cut MAX_FRAME_SIZE r.buffer = some (bad, rest)) (hbad : decodeMessage mp bad = none)
    (cs : List (List UInt8)) : delivered (pushAll (push mp) r cs).2 = [] := by
  induction cs generalizing r rest with
  | nil => rfl
  | cons c cs ih =>
    have hcut : cut MAX_FRAME_SIZE (r.buffer ++ c) = some (bad, rest ++ c) :=
      (cutter MAX_FRAME_SIZE).stable c h
    rw [pushAll, push_of_bad h hbad, delivered_error_cons]
    exact ih hcut

end FrameReader

end Lasterm
