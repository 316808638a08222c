import Lasterm.Library.LengthPrefix

/-!
# The agent's frame reader

`framing.rs`, the other end of the stream. The two readers share the format and the size limit, and
differ in what they do with a payload that does not decode: this one puts an `INVALID_MESSAGE` error
in its place and moves on (`extract_item` has no failing case), so every push over well-sized
frames returns (`push_eq_ok`).
-/

namespace Lasterm.Agent

open Incremental LengthPrefix

/-! ## Messages from the hub -/

/-- `HubToAgent` of `protocol.rs`. -/
inductive HubToAgent where
  | auth (token : String)
  | spawn (requestId : String) (channelId shell : Option String) (args : Option (List String))
      (cwd : Option String) (env : Option (List (String × String))) (cols rows : UInt16)
      (directProcess elevated : Option Bool)
      (elevationSecret elevationMethod customCommand : Option String)
  | input (channelId : String) (data : List UInt8)
  | resize (channelId : String) (cols rows : UInt16)
  | snapshotReq (channelId : String)
  | attach (channelId : String)
  | destroy (channelId : String)
  | heartbeat (ts : String)
  | error (code message : String) (channelId : Option String)
  deriving DecidableEq

/-- `rmp_serde`, outside the repository: both directions can fail, with a text. -/
structure Serde (T : Type*) where
  toVecNamed : T → Except String (List UInt8)
  fromSlice : List UInt8 → Except String T

/-- `std::io::Error` of kind `InvalidData`. -/
structure InvalidData where
  message : String

/-! ## Encoding -/

def MAX_FRAME_SIZE : ℕ := 10 * 1024 * 1024

theorem MAX_FRAME_SIZE_lt : MAX_FRAME_SIZE < 2 ^ 32 := by decide

/-- The length is cut to 32 bits before it is compared with the limit. -/
def encodeFrame {T : Type*} (serde : Serde T) (msg : T) : Except InvalidData (List UInt8) :=
  match serde.toVecNamed msg with
  | .error e => .error ⟨e⟩
  | .ok payload =>
    let len := payload.length % 2 ^ 32
    if MAX_FRAME_SIZE < len then
      .error ⟨"frame too large: " ++ toString len ++ " bytes (max " ++
        toString MAX_FRAME_SIZE ++ ")"⟩
    else .ok (le32 len ++ payload)

theorem encodeFrame_eq_ok {T : Type*} {serde : Serde T} {msg : T} {payload : List UInt8}
    (h : serde.toVecNamed msg = .ok payload) (hlen : payload.length ≤ MAX_FRAME_SIZE) :
    encodeFrame serde msg = .ok (frame payload) := by
  have hmod : payload.length % 2 ^ 32 = payload.length :=
    Nat.mod_eq_of_lt (lt_of_le_of_lt hlen MAX_FRAME_SIZE_lt)
  simp only [encodeFrame, h, hmod, if_neg (not_lt.mpr hlen), frame]

/-! ## Reading -/

structure FrameReader where
  buf : List UInt8

namespace FrameReader

variable (serde : Serde HubToAgent)

/-- A new reader. -/
def new : FrameReader := ⟨[]⟩

/-- The message a payload is read as; what does not decode becomes an error message. -/
def readMessage (payload : List UInt8) : HubToAgent :=
  match serde.fromSlice payload with
  | .ok msg => msg
  | .error e => .error "INVALID_MESSAGE" ("undecodable frame: " ++ e) none

/-- The `loop` of `push`: the buffer it leaves, and the messages or the error. -/
def extract (buf : List UInt8) (messages : List HubToAgent) :
    List UInt8 × Except InvalidData (List HubToAgent) :=
  if buf.length < 4 then (buf, .ok messages)
  else if MAX_FRAME_SIZE < readLe32 buf then (buf, .error ⟨"frame too large"⟩)
  else if buf.length < 4 + readLe32 buf then (buf, .ok messages)
  else
    extract (buf.drop (4 + readLe32 buf))
      (messages ++ [readMessage serde ((buf.drop 4).take (readLe32 buf))])
termination_by buf.length
decreasing_by
  rw [List.length_drop]
  omega

def push (r : FrameReader) (data : List UInt8) :
    FrameReader × Except InvalidData (List HubToAgent) :=
  (⟨(extract serde (r.buf ++ data) []).1⟩, (extract serde (r.buf ++ data) []).2)

variable {serde}

theorem extract_wait {b : List UInt8} (h : cut MAX_FRAME_SIZE b = none)
    (hsize : 4 ≤ b.length → readLe32 b ≤ MAX_FRAME_SIZE) (ms : List HubToAgent) :
    extract serde b ms = (b, .ok ms) := by
  rw [cut] at h
  rw [extract]
  by_cases h4 : b.length < 4
  · rw [if_pos h4]
  · rw [if_neg h4, if_neg (not_lt.mpr (hsize (not_lt.mp h4))), if_pos]
    by_contra hlen
    rw [if_neg (by have := hsize (not_lt.mp h4); omega)] at h
    cases h

theorem extract_item {b p r : List UInt8} (h : cut MAX_FRAME_SIZE b = some (p, r))
    (ms : List HubToAgent) :
    extract serde b ms = extract serde r (ms ++ [readMessage serde p]) := by
  obtain ⟨h4, hmax, hlen, rfl, rfl⟩ := cut_eq_some_iff.mp h
  conv_lhs => rw [extract]
  rw [if_neg (not_lt.mpr h4), if_neg (not_lt.mpr hmax), if_neg (not_lt.mpr hlen)]

/-- Every complete frame is delivered, and the rest is kept. -/
theorem extract_eq {b : List UInt8}
    (hsize : 4 ≤ (drain (cutter MAX_FRAME_SIZE) b).2.length →
      readLe32 (drain (cutter MAX_FRAME_SIZE) b).2 ≤ MAX_FRAME_SIZE) (ms : List HubToAgent) :
    extract serde b ms = ((drain (cutter MAX_FRAME_SIZE) b).2,
      .ok (ms ++ (drain (cutter MAX_FRAME_SIZE) b).1.map (readMessage serde))) := by
  induction b using drain_induction (cutter MAX_FRAME_SIZE) generalizing ms with
  | wait b h =>
    rw [drain_of_none _ h] at hsize ⊢
    rw [extract_wait h hsize, List.map_nil, List.append_nil]
  | item b p r h ih =>
    rw [drain_of_some _ h] at hsize ⊢
    rw [extract_item h, ih hsize, List.map_cons, List.append_assoc, List.singleton_append]

/-- A push of bytes from a stream of well-sized frames returns. -/
theorem push_eq_ok {r : FrameReader} {c rest : List UInt8} {ps : List (List UInt8)}
    (hps : ∀ p ∈ ps, p.length ≤ MAX_FRAME_SIZE) (h : (r.buf ++ c) ++ rest = ps.flatMap frame) :
    push serde r c = (⟨(drain (cutter MAX_FRAME_SIZE) (r.buf ++ c)).2⟩,
      .ok ((drain (cutter MAX_FRAME_SIZE) (r.buf ++ c)).1.map (readMessage serde))) := by
  obtain ⟨qs, rs, hsplit, -, -, hrest, -⟩ := drain_frames_take MAX_FRAME_SIZE_lt hps h
  have hrs : ∀ p ∈ rs, p.length ≤ MAX_FRAME_SIZE := fun p hp ↦
    hps p (hsplit ▸ List.mem_append_right qs hp)
  rw [push, extract_eq fun h4 ↦ readLe32_le_of_frames MAX_FRAME_SIZE_lt hrs hrest h4,
    List.nil_append]

/-- A new reader that is handed whole frames returns them all and keeps nothing. -/
theorem push_frames {ps : List (List UInt8)} (hps : ∀ p ∈ ps, p.length ≤ MAX_FRAME_SIZE) :
    push serde new (ps.flatMap frame) = (new, .ok (ps.map (readMessage serde))) := by
  have hstream : (new.buf ++ ps.flatMap frame) ++ [] = ps.flatMap frame := by
    rw [new, List.nil_append, List.append_nil]
  rw [push_eq_ok hps hstream, new, List.nil_append, drain_frames MAX_FRAME_SIZE_lt hps]

end FrameReader

end Lasterm.Agent
