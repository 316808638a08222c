import Lasterm.Agent.Framing
import Lasterm.Hub.SendQueue
import Lasterm.Shared.DataKeys
import Lasterm.Shared.Framing

/-!
# Streams of frames

Both ends of the hub–agent connection read the same stream, the hub with `framing.ts` and the agent
with `framing.rs`. On a stream whose frames all decode, the two readers are the same function of the
payloads, however the socket cuts the stream into reads. So what the hub's reader delivers is what
the codec leaves of each message, and that is the message itself exactly if the keys of its overlays
are plain (`frameReaders_round_trip_iff`): the framing loses nothing, the key conversion does.

They part where a frame does not decode. The agent's reader puts an error message in its place. The
hub's reader throws: the messages of the same push are gone with it, and the bad frame stays at the
front of the buffer. `firstBad_delivered` computes what is left of the run, and
`delivered_eq_decodable_iff` turns it into the exact condition on the stream and on its cuts under
which nothing is lost.
-/

namespace Lasterm

open Incremental LengthPrefix

/-- Every push of the run returned. -/
def Returned {ε μ : Type*} (results : List (Except ε (List μ))) : Prop :=
  ∀ r ∈ results, ∃ ms, r = .ok ms

theorem delivered_map_ok {β ε μ : Type*} (f : β → List μ) (l : List β) :
    delivered (l.map fun x ↦ (.ok (f x) : Except ε (List μ))) = l.flatMap f := by
  induction l with
  | nil => rfl
  | cons x l ih => rw [List.map_cons, delivered_ok_cons, ih, List.flatMap_cons]

theorem returned_map_ok {β ε μ : Type*} (f : β → List μ) (l : List β) :
    Returned (l.map fun x ↦ (.ok (f x) : Except ε (List μ))) := by
  intro r hr
  obtain ⟨x, -, rfl⟩ := List.mem_map.mp hr
  exact ⟨f x, rfl⟩

/-! ## Payload streams that decode -/

/-- The bytes still to be read are whole frames with payloads that satisfy `good`. -/
private def FramesOf (good : List UInt8 → Prop) (b : List UInt8) : Prop :=
  ∃ ps : List (List UInt8), (∀ p ∈ ps, p.length ≤ MAX_FRAME_SIZE ∧ good p) ∧ b = ps.flatMap frame

/-- What is left after draining is again whole frames, and no oversized length shows in it. -/
private theorem framesOf_drain {good : List UInt8 → Prop} {b rest : List UInt8}
    (h : FramesOf good (b ++ rest)) :
    FrameReader.WellSized b ∧ (∀ p ∈ (drain (cutter MAX_FRAME_SIZE) b).1, good p) ∧
      FramesOf good ((drain (cutter MAX_FRAME_SIZE) b).2 ++ rest) := by
  obtain ⟨ps, hps, hframes⟩ := h
  obtain ⟨qs, rs, hsplit, hfst, -, hrest, -⟩ :=
    drain_frames_take MAX_FRAME_SIZE_lt (fun p hp ↦ (hps p hp).1) hframes
  have hrs : ∀ p ∈ rs, p.length ≤ MAX_FRAME_SIZE ∧ good p := fun p hp ↦
    hps p (hsplit ▸ List.mem_append_right qs hp)
  refine ⟨fun h4 ↦ readLe32_le_of_frames MAX_FRAME_SIZE_lt (fun p hp ↦ (hrs p hp).1) hrest h4,
    ?_, rs, hrs, hrest⟩
  rw [hfst]
  exact fun p hp ↦ (hps p (hsplit ▸ List.mem_append_left rs hp)).2

variable {ps : List (List UInt8)} {mp : MsgPack}

/-- What the two readers do is decided by `feed` on the whole stream. -/
private theorem feed_frames (hps : ∀ p ∈ ps, p.length ≤ MAX_FRAME_SIZE)
    {cs : List (List UInt8)} (hcs : cs.flatten = ps.flatMap frame) :
    (feed (cutter MAX_FRAME_SIZE) [] cs).1.flatten = ps ∧
      (feed (cutter MAX_FRAME_SIZE) [] cs).2 = [] := by
  have hfeed := feed_eq_drain_flatten (cutter MAX_FRAME_SIZE) [] cs (cutter_cut_nil _)
  rw [List.nil_append, hcs, drain_frames MAX_FRAME_SIZE_lt hps, Prod.mk.injEq] at hfeed
  exact hfeed

/-- The hub's reader on a stream that decodes throughout. -/
theorem FrameReader.pushAll_frames (mp : MsgPack) {ps cs : List (List UInt8)}
    (hps : ∀ p ∈ ps, p.length ≤ MAX_FRAME_SIZE)
    (hdec : ∀ p ∈ ps, (decodeMessage mp p).isSome) (hcs : cs.flatten = ps.flatMap frame) :
    (pushAll (push mp) new cs).1.buffer = [] ∧ Returned (pushAll (push mp) new cs).2 ∧
      delivered (pushAll (push mp) new cs).2 = ps.filterMap (decodeMessage mp) := by
  obtain ⟨hflat, hleft⟩ := feed_frames hps hcs
  have hrun := pushAll_eq_feed (cutter MAX_FRAME_SIZE) (push mp) buffer
    (fun xs ↦ .ok (xs.filterMap (decodeMessage mp)))
    (FramesOf fun p ↦ (decodeMessage mp p).isSome) ?_ new cs
    ⟨ps, fun p hp ↦ ⟨hps p hp, hdec p hp⟩, hcs⟩
  · rw [hrun.1, hrun.2, delivered_map_ok, List.flatMap_def, ← List.filterMap_flatten]
    rw [new] at hrun ⊢
    rw [hflat]
    exact ⟨hleft, returned_map_ok _ _, rfl⟩
  · intro s c rest h
    obtain ⟨hsize, hgood, hrest⟩ := framesOf_drain h
    rw [push, extract_of_forall_decode hsize hgood, List.nil_append]
    exact ⟨rfl, rfl, hrest⟩

/-- The agent's reader on any stream of well-sized frames. -/
theorem Agent.FrameReader.pushAll_frames (serde : Agent.Serde Agent.HubToAgent)
    {ps cs : List (List UInt8)} (hps : ∀ p ∈ ps, p.length ≤ Agent.MAX_FRAME_SIZE)
    (hcs : cs.flatten = ps.flatMap frame) :
    (pushAll (push serde) new cs).1.buf = [] ∧ Returned (pushAll (push serde) new cs).2 ∧
      delivered (pushAll (push serde) new cs).2 = ps.map (readMessage serde) := by
  obtain ⟨hflat, hleft⟩ := feed_frames hps hcs
  have hrun := pushAll_eq_feed (cutter Agent.MAX_FRAME_SIZE) (push serde) buf
    (fun xs ↦ .ok (xs.map (readMessage serde))) (FramesOf fun _ ↦ True) ?_ new cs
    ⟨ps, fun p hp ↦ ⟨hps p hp, trivial⟩, hcs⟩
  · rw [hrun.1, hrun.2, delivered_map_ok, List.flatMap_def, ← List.map_flatten]
    rw [new] at hrun ⊢
    exact ⟨hleft, returned_map_ok _ _, congrArg (List.map (readMessage serde)) hflat⟩
  · intro s c rest h
    obtain ⟨-, -, hrest⟩ := framesOf_drain h
    obtain ⟨qs, hqs, hframes⟩ := h
    rw [push_eq_ok (fun p hp ↦ (hqs p hp).1) hframes]
    exact ⟨rfl, rfl, hrest⟩

/-! ## The round trip -/

private theorem mapM_ok {μ ε β : Type*} (f : μ → Except ε β) (g : μ → β) (l : List μ)
    (h : ∀ m ∈ l, f m = .ok (g m)) : l.mapM f = .ok (l.map g) := by
  induction l with
  | nil => rfl
  | cons m l ih =>
    rw [List.mapM_cons, h m List.mem_cons_self, ih fun x hx ↦ h x (List.mem_cons_of_mem m hx)]
    rfl

/-- The hub's reader on the frames of messages that the MessagePack library restores. -/
theorem FrameReader.pushAll_messages {msgs : List DataMessage}
    (hmp : ∀ m ∈ msgs, mp.decode (encodeMessage mp m.value) = some (toSnakeCase m.value false))
    (hsize : ∀ m ∈ msgs, (encodeMessage mp m.value).length ≤ MAX_FRAME_SIZE)
    {chunks : List (List UInt8)}
    (hchunks : chunks.flatten = (msgs.map fun m ↦ frame (encodeMessage mp m.value)).flatten) :
    Returned (pushAll (push mp) new chunks).2 ∧
      delivered (pushAll (push mp) new chunks).2 = msgs.map (fun m ↦ returned m.value false) ∧
      (pushAll (push mp) new chunks).1.bufferedBytes = 0 := by
  have hdec : ∀ m ∈ msgs,
      decodeMessage mp (encodeMessage mp m.value) = some (returned m.value false) := by
    intro m hm
    rw [decodeMessage, hmp m hm, Option.map_some, returned]
  have hstream : chunks.flatten = (msgs.map fun m ↦ encodeMessage mp m.value).flatMap frame := by
    rw [hchunks, List.flatMap_map, List.flatMap_def]
  obtain ⟨hbuf, hret, hdel⟩ := pushAll_frames mp (by simpa using hsize)
    (by simpa using fun m hm ↦ Option.isSome_iff_exists.mpr ⟨_, hdec m hm⟩) hstream
  refine ⟨hret, ?_, by rw [bufferedBytes, hbuf, List.length_nil]⟩
  rw [hdel, List.filterMap_map, ← List.filterMap_eq_map]
  exact List.filterMap_congr fun m hm ↦ hdec m hm

/-- **The round trip, and when it is one.** A list of messages that the MessagePack library restores
comes out of the reader of its own side, whatever the pieces it arrives in, with nothing left over;
it is as it went into `encodeFrame` exactly if every key of an overlay is plain. The agent's
messages always come out as they went in; and on any stream of frames that both sides can decode,
the two readers give the decoding of the same payloads in the same order. -/
theorem frameReaders_round_trip_iff (mp : MsgPack) (serde : Agent.Serde Agent.HubToAgent)
    (msgs : List DataMessage) (cmds : List Agent.HubToAgent)
    (hmp : ∀ m ∈ msgs, mp.decode (encodeMessage mp m.value) = some (toSnakeCase m.value false))
    (hsize : ∀ m ∈ msgs, (encodeMessage mp m.value).length ≤ MAX_FRAME_SIZE)
    (hserde : ∀ m ∈ cmds, ∃ payload, serde.toVecNamed m = .ok payload ∧
      serde.fromSlice payload = .ok m ∧ payload.length ≤ Agent.MAX_FRAME_SIZE) :
    (∃ frames, (msgs.mapM fun m ↦ encodeFrame mp m.value) = .ok frames ∧
      ∀ chunks : List (List UInt8), chunks.flatten = frames.flatten →
        Returned (pushAll (FrameReader.push mp) FrameReader.new chunks).2 ∧
        (pushAll (FrameReader.push mp) FrameReader.new chunks).1.bufferedBytes = 0 ∧
        (delivered (pushAll (FrameReader.push mp) FrameReader.new chunks).2
          = msgs.map DataMessage.value ↔ ∀ m ∈ msgs, PlainOverlays m.value .ordinary)) ∧
    (∃ frames, (cmds.mapM fun m ↦ Agent.encodeFrame serde m) = .ok frames ∧
      ∀ chunks : List (List UInt8), chunks.flatten = frames.flatten →
        Returned (pushAll (Agent.FrameReader.push serde) Agent.FrameReader.new chunks).2 ∧
        delivered (pushAll (Agent.FrameReader.push serde) Agent.FrameReader.new chunks).2 = cmds ∧
        (pushAll (Agent.FrameReader.push serde) Agent.FrameReader.new chunks).1.buf = []) ∧
    (∀ ps : List (List UInt8), (∀ p ∈ ps, p.length ≤ MAX_FRAME_SIZE) →
      (∀ p ∈ ps, (decodeMessage mp p).isSome ∧ ∃ m, serde.fromSlice p = .ok m) →
      ∀ chunks chunks' : List (List UInt8), chunks.flatten = ps.flatMap frame →
        chunks'.flatten = ps.flatMap frame →
        (delivered (pushAll (FrameReader.push mp) FrameReader.new chunks).2).map some
          = ps.map (decodeMessage mp) ∧
        (delivered (pushAll (Agent.FrameReader.push serde) Agent.FrameReader.new chunks').2).map
          Except.ok = ps.map serde.fromSlice) := by
  refine ⟨?_, ?_, ?_⟩
  · refine ⟨msgs.map fun m ↦ frame (encodeMessage mp m.value),
      mapM_ok _ _ _ fun m hm ↦ encodeFrame_eq_ok (hsize m hm), fun chunks hchunks ↦ ?_⟩
    obtain ⟨hret, hdel, hbuf⟩ := FrameReader.pushAll_messages hmp hsize hchunks
    refine ⟨hret, hbuf, ?_⟩
    rw [hdel, List.map_inj_left]
    exact forall₂_congr fun m _ ↦ returned_eq_iff m.value .ordinary m.typed
  · choose! payload hser hde hlen using hserde
    refine ⟨cmds.map fun m ↦ frame (payload m),
      mapM_ok _ _ _ fun m hm ↦ Agent.encodeFrame_eq_ok (hser m hm) (hlen m hm), ?_⟩
    intro chunks hchunks
    have hstream : chunks.flatten = (cmds.map payload).flatMap frame := by
      rw [hchunks, List.flatMap_map, List.flatMap_def]
    obtain ⟨hbuf, hret, hdel⟩ := Agent.FrameReader.pushAll_frames serde
      (by simpa using hlen) hstream
    refine ⟨hret, ?_, hbuf⟩
    rw [hdel, List.map_map]
    refine (List.map_congr_left fun m hm ↦ ?_).trans (List.map_id cmds)
    rw [Function.comp_apply, Agent.FrameReader.readMessage, hde m hm]
    rfl
  · intro ps hps hboth chunks chunks' hchunks hchunks'
    obtain ⟨-, -, hhub⟩ := FrameReader.pushAll_frames mp hps (fun p hp ↦ (hboth p hp).1) hchunks
    obtain ⟨-, -, hagent⟩ :=
      Agent.FrameReader.pushAll_frames serde hps hchunks'
    constructor
    · rw [hhub, List.map_filterMap_some_eq_filter_map_isSome, List.filter_eq_self]
      intro x hx
      obtain ⟨p, hp, rfl⟩ := List.mem_map.mp hx
      exact (hboth p hp).1
    · rw [hagent, List.map_map]
      refine List.map_congr_left fun p hp ↦ ?_
      obtain ⟨m, hm⟩ := (hboth p hp).2
      rw [Function.comp_apply, Agent.FrameReader.readMessage, hm]

/-- A short text in MessagePack, behind its length. -/
def fixstr (s : String) : List UInt8 :=
  UInt8.ofNat (0xa0 + s.length) :: s.toList.map fun c ↦ UInt8.ofNat c.toNat

/-- The bytes of `helloWithColour`: five fields, and one entry in the list and in each map. -/
def helloBytes (colour : String) : List UInt8 :=
  0x85 :: fixstr "type" ++ fixstr "HELLO" ++ fixstr "version" ++ 0x01 :: fixstr "agent_version" ++
    fixstr "0.2.0" ++ fixstr "capabilities" ++ 0x91 :: fixstr "multiplex" ++
    fixstr "visual_hints" ++ 0x81 :: fixstr "theme_overlay" ++ 0x81 :: fixstr colour ++
    fixstr "#555555"

/-- MessagePack on these announcements. -/
def MsgPack.helloOnly : MsgPack where
  encode
    | .obj [_, _, _, _, ("visual_hints", .obj [("theme_overlay", .obj [(colour, _)])])] =>
      helloBytes colour
    | _ => []
  decode payload := (["black", "bright_black"].find? fun colour ↦ payload = helloBytes colour).map
    fun colour ↦ toSnakeCase (helloWithColour colour) false

def DataMessage.hello (colour : String) : DataMessage :=
  ⟨helloWithColour colour, messageValue_helloWithColour colour⟩

/-- The library restores the announcement of a theme with `bright_black`, and the reader delivers
another one. -/
theorem hello_not_delivered :
    let m := DataMessage.hello "bright_black"
    MsgPack.helloOnly.decode (encodeMessage MsgPack.helloOnly m.value)
        = some (toSnakeCase m.value false) ∧
      (encodeMessage MsgPack.helloOnly m.value).length ≤ MAX_FRAME_SIZE ∧
      ∃ bytes, encodeFrame MsgPack.helloOnly m.value = .ok bytes ∧
        delivered (pushAll (FrameReader.push MsgPack.helloOnly) FrameReader.new [bytes]).2
          ≠ [m.value] := by
  intro m
  have hmp : MsgPack.helloOnly.decode (encodeMessage MsgPack.helloOnly m.value)
      = some (toSnakeCase m.value false) := rfl
  have hsize : (encodeMessage MsgPack.helloOnly m.value).length ≤ MAX_FRAME_SIZE := by decide
  refine ⟨hmp, hsize, _, encodeFrame_eq_ok hsize, fun h ↦ ?_⟩
  obtain ⟨-, hdel, -⟩ := @FrameReader.pushAll_messages MsgPack.helloOnly [m]
    (List.forall_mem_singleton.mpr hmp) (List.forall_mem_singleton.mpr hsize) _ rfl
  have harrives : helloWithColour "brightBlack" = helloWithColour "bright_black" :=
    List.head_eq_of_cons_eq (hdel.symm.trans h)
  simp [helloWithColour] at harrives

/-- `rmp_serde` on heartbeats with a short ASCII time stamp. -/
def Agent.Serde.heartbeatOnly : Agent.Serde Agent.HubToAgent where
  toVecNamed
    | .heartbeat ts => .ok ([0x82, 0xa4, 0x74, 0x79, 0x70, 0x65, 0xa9, 0x48, 0x45, 0x41, 0x52, 0x54,
        0x42, 0x45, 0x41, 0x54, 0xa2, 0x74, 0x73] ++ fixstr ts)
    | _ => .error "unsupported"
  fromSlice payload :=
    if payload.take 19 = [0x82, 0xa4, 0x74, 0x79, 0x70, 0x65, 0xa9, 0x48, 0x45, 0x41, 0x52, 0x54,
        0x42, 0x45, 0x41, 0x54, 0xa2, 0x74, 0x73] then
      .ok (.heartbeat (String.ofList ((payload.drop 20).map fun b ↦ Char.ofNat b.toNat)))
    else .error "invalid type"

theorem frameReaders_round_trip_hello :
    (∃ frames, ([DataMessage.hello "black", DataMessage.hello "brightBlack"].mapM fun m ↦
        encodeFrame MsgPack.helloOnly m.value) = .ok frames ∧
      ∀ chunks : List (List UInt8), chunks.flatten = frames.flatten →
        delivered (pushAll (FrameReader.push MsgPack.helloOnly) FrameReader.new chunks).2
          = [helloWithColour "black", helloWithColour "brightBlack"]) ∧
    ∃ frames, ([Agent.HubToAgent.heartbeat "t"].mapM fun m ↦
        Agent.encodeFrame Agent.Serde.heartbeatOnly m) = .ok frames ∧
      ∀ chunks : List (List UInt8), chunks.flatten = frames.flatten →
        delivered (pushAll (Agent.FrameReader.push Agent.Serde.heartbeatOnly) Agent.FrameReader.new
          chunks).2 = [Agent.HubToAgent.heartbeat "t"] := by
  have hplain : ∀ key : String, '_' ∉ key.toList → key ≠ "_Proto__" → PlainKey key := by
    intro key hkey hproto
    exact ⟨fun c _ _ h ↦ hkey (h.subset List.mem_cons_self), hproto⟩
  have hoverlay : ∀ key, PlainKey key → PlainOverlays (helloWithColour key) .ordinary := by
    intro key hkey
    exact ⟨trivial, trivial, trivial, ⟨trivial, trivial⟩,
      ⟨List.forall_mem_singleton.mpr hkey, trivial⟩, trivial⟩
  obtain ⟨⟨frames, hframes, hhub⟩, ⟨frames', hframes', hagent⟩, -⟩ :=
    frameReaders_round_trip_iff MsgPack.helloOnly Agent.Serde.heartbeatOnly
      [DataMessage.hello "black", DataMessage.hello "brightBlack"] [Agent.HubToAgent.heartbeat "t"]
      (List.forall_mem_cons.mpr ⟨rfl, List.forall_mem_singleton.mpr rfl⟩)
      (List.forall_mem_cons.mpr ⟨by decide, List.forall_mem_singleton.mpr (by decide)⟩)
      (List.forall_mem_singleton.mpr ⟨_, rfl, rfl, by decide⟩)
  refine ⟨⟨frames, hframes, fun chunks h ↦ (hhub chunks h).2.2.mpr ?_⟩,
    frames', hframes', fun chunks h ↦ (hagent chunks h).2.1⟩
  refine List.forall_mem_cons.mpr ⟨hoverlay _ (hplain _ (by decide) (by decide)), ?_⟩
  exact List.forall_mem_singleton.mpr (hoverlay _ (hplain _ (by decide) (by decide)))

/-! ## Streams with a bad frame -/

/-- The bad frame stands alone: behind it every frame is bad, and some read ends after the frames
before it and before its own end. Its own end is reached by a later read, then, which has nothing
good to lose. The first bad frame is unique, so `∀` and `∃` over the decomposition say the same. -/
def BadFrameAlone (mp : MsgPack) (ps chunks : List (List UInt8)) : Prop :=
  ∀ good bad rest, ps = good ++ bad :: rest → (∀ p ∈ good, (decodeMessage mp p).isSome) →
    decodeMessage mp bad = none →
      (∀ p ∈ rest, decodeMessage mp p = none) ∧
      ∃ j, (good.flatMap frame).length ≤ (chunks.take j).flatten.length ∧
        (chunks.take j).flatten.length < ((good ++ [bad]).flatMap frame).length

private theorem length_flatMap_frame_append (ps qs : List (List UInt8)) :
    ((ps ++ qs).flatMap frame).length = (ps.flatMap frame).length + (qs.flatMap frame).length := by
  rw [List.flatMap_append, List.length_append]

/-- A buffer that holds no complete frame has not got past any frame of the stream it begins. -/
private theorem eq_nil_of_length_le {good rest : List (List UInt8)} {b c : List UInt8}
    (hps : ∀ p ∈ good, p.length ≤ MAX_FRAME_SIZE) (hwait : cut MAX_FRAME_SIZE b = none)
    (h : b ++ c = (good ++ rest).flatMap frame)
    (hlen : (good.flatMap frame).length ≤ b.length) : good = [] := by
  cases good with
  | nil => rfl
  | cons g good =>
    rw [List.cons_append, List.flatMap_cons] at h
    have hshort := length_lt_of_cut_eq_none MAX_FRAME_SIZE_lt (hps g List.mem_cons_self) hwait h
    rw [List.flatMap_cons, List.length_append, length_frame] at hlen
    omega

/-- The complete frames `xs` of a stream reach past the frame `bad`, or end before it. -/
private theorem complete_or_before {good rest xs ys : List (List UInt8)} {bad : List UInt8}
    (h : good ++ bad :: rest = xs ++ ys) :
    (∃ l, xs = good ++ bad :: l) ∨ ∃ l, good = xs ++ l ∧ ys = l ++ bad :: rest := by
  rcases List.append_eq_append_iff.mp h with ⟨l, hxs, hbad⟩ | ⟨l, hgood, hys⟩
  · cases l with
    | nil =>
      refine Or.inr ⟨[], ?_, ?_⟩
      · rw [hxs, List.append_nil, List.append_nil]
      · rw [hbad, List.nil_append, List.nil_append]
    | cons x l =>
      rw [List.cons_append, List.cons.injEq] at hbad
      obtain ⟨rfl, -⟩ := hbad
      exact Or.inl ⟨l, hxs⟩
  · exact Or.inr ⟨l, hgood, hys⟩

/-- **What the hub's reader delivers around the first bad frame**: a prefix of the good ones before
it, all of them exactly when some read ends between the last of them and the end of the bad one. -/
theorem firstBad_delivered (r : FrameReader) (cs : List (List UInt8))
    {good rest : List (List UInt8)} {bad : List UInt8}
    (hps : ∀ p ∈ good ++ bad :: rest, p.length ≤ MAX_FRAME_SIZE)
    (hgood : ∀ p ∈ good, (decodeMessage mp p).isSome) (hbad : decodeMessage mp bad = none)
    (hwait : cut MAX_FRAME_SIZE r.buffer = none)
    (h : r.buffer ++ cs.flatten = (good ++ bad :: rest).flatMap frame) :
    ∃ qs, qs <+: good ∧
      delivered (pushAll (FrameReader.push mp) r cs).2 = qs.filterMap (decodeMessage mp) ∧
      (qs = good ↔ ∃ j, (good.flatMap frame).length ≤ (r.buffer ++ (cs.take j).flatten).length ∧
        (r.buffer ++ (cs.take j).flatten).length < ((good ++ [bad]).flatMap frame).length) := by
  induction cs generalizing r good with
  | nil =>
    -- the whole stream is in the buffer, so the buffer cannot be waiting
    have hwhole : r.buffer ++ [] = ((good ++ bad :: rest) ++ []).flatMap frame := by
      rw [List.append_nil (good ++ bad :: rest)]
      exact h
    have hnil := eq_nil_of_length_le hps hwait hwhole (by rw [← h]; simp)
    exact absurd hnil (by simp)
  | cons c cs ih =>
    rw [List.flatten_cons, ← List.append_assoc] at h
    obtain ⟨xs, ys, hsplit, hfst, hbuf, hrest, hhead⟩ :=
      drain_frames_take MAX_FRAME_SIZE_lt hps h
    rcases complete_or_before hsplit with ⟨l, hxs⟩ | ⟨l, hgd, hys⟩
    · -- this push throws, and so does every later one
      obtain ⟨b', s, hthrow, hfront⟩ := FrameReader.extract_of_bad (hfst.trans hxs) hgood hbad []
      refine ⟨[], List.nil_prefix, ?_, ?_⟩
      · rw [pushAll, FrameReader.push, hthrow, delivered_error_cons]
        exact FrameReader.delivered_pushAll_of_bad (r := ⟨b'⟩) hfront hbad cs
      · constructor
        · rintro rfl
          refine ⟨0, Nat.zero_le _, ?_⟩
          rw [List.take_zero, List.flatten_nil, List.append_nil]
          rw [List.append_assoc] at h
          simpa using length_lt_of_cut_eq_none MAX_FRAME_SIZE_lt (hps bad (by simp)) hwait h
        · rintro ⟨j, hlow, hhigh⟩
          cases j with
          | zero =>
            rw [List.take_zero, List.flatten_nil, List.append_nil] at hlow
            rw [List.append_assoc] at h
            exact (eq_nil_of_length_le (fun p hp ↦ hps p (List.mem_append_left _ hp)) hwait h
              hlow).symm
          | succ j =>
            exfalso
            have hlen : ((good ++ [bad]).flatMap frame).length ≤ (r.buffer ++ c).length := by
              rw [hbuf, List.length_append, hxs, List.append_cons good bad l,
                length_flatMap_frame_append (good ++ [bad]) l]
              omega
            rw [List.take_succ_cons, List.flatten_cons, ← List.append_assoc,
              List.length_append] at hhigh
            omega
    · -- everything complete so far is good: this push returns it
      subst hgd
      have hsize : FrameReader.WellSized (r.buffer ++ c) := fun h4 ↦
        readLe32_le_of_frames MAX_FRAME_SIZE_lt
          (fun p hp ↦ hps p (by rw [hsplit]; exact List.mem_append_right xs hp)) hrest h4
      have hpush := FrameReader.extract_of_forall_decode hsize
        (show ∀ p ∈ (drain (cutter MAX_FRAME_SIZE) (r.buffer ++ c)).1,
          (decodeMessage mp p).isSome by
          rw [hfst]
          exact fun p hp ↦ hgood p (List.mem_append_left l hp)) []
      rw [hfst, List.nil_append] at hpush
      set left := (drain (cutter MAX_FRAME_SIZE) (r.buffer ++ c)).2 with hleft
      obtain ⟨qs, hpre, hdel, hiff⟩ := @ih ⟨left⟩ l
        (fun p hp ↦ hps p (by rw [hsplit, hys]; exact List.mem_append_right xs hp))
        (fun p hp ↦ hgood p (List.mem_append_right xs hp))
        (cut_drain_snd (cutter MAX_FRAME_SIZE) _) (by rw [← hys]; exact hrest)
      refine ⟨xs ++ qs, (List.prefix_append_right_inj xs).mpr hpre, ?_, ?_⟩
      · rw [pushAll, FrameReader.push, hpush, delivered_ok_cons, hdel, List.filterMap_append]
      · rw [List.append_cancel_left_eq, hiff]
        have hlen : ∀ j, (r.buffer ++ ((c :: cs).take (j + 1)).flatten).length
            = (xs.flatMap frame).length + (left ++ (cs.take j).flatten).length := by
          intro j
          rw [List.take_succ_cons, List.flatten_cons, ← List.append_assoc, hbuf,
            List.append_assoc, List.length_append]
        constructor
        · rintro ⟨j, hlow, hhigh⟩
          refine ⟨j + 1, ?_, ?_⟩
          · rw [hlen, length_flatMap_frame_append]
            exact Nat.add_le_add_left hlow _
          · rw [hlen, List.append_assoc, length_flatMap_frame_append]
            exact Nat.add_lt_add_left hhigh _
        · rintro ⟨j, hlow, hhigh⟩
          cases j with
          | zero =>
            rw [List.take_zero, List.flatten_nil, List.append_nil] at hlow
            rw [List.append_assoc] at h
            have hnil := eq_nil_of_length_le (fun p hp ↦ hps p (List.mem_append_left _ hp)) hwait h
              hlow
            obtain ⟨rfl, rfl⟩ := List.append_eq_nil_iff.mp hnil
            refine ⟨0, Nat.zero_le _, ?_⟩
            have hshort := hhead bad (by rw [hys]; rfl)
            simpa using hshort
          | succ j =>
            rw [hlen, length_flatMap_frame_append] at hlow
            rw [hlen, List.append_assoc, length_flatMap_frame_append] at hhigh
            exact ⟨j, Nat.le_of_add_le_add_left hlow, Nat.lt_of_add_lt_add_left hhigh⟩

private theorem filterMap_eq_nil_iff_decode :
    ps.filterMap (decodeMessage mp) = [] ↔ ∀ p ∈ ps, decodeMessage mp p = none :=
  List.filterMap_eq_nil_iff

private theorem length_filterMap_of_isSome (h : ∀ p ∈ ps, (decodeMessage mp p).isSome) :
    (ps.filterMap (decodeMessage mp)).length = ps.length := by
  rw [List.length_filterMap_eq_countP, List.countP_eq_length]
  exact h

/-- The first payload that does not decode, and what stands before it. -/
private theorem exists_firstBad (h : ¬∀ p ∈ ps, (decodeMessage mp p).isSome) :
    ∃ good bad rest, ps = good ++ bad :: rest ∧ (∀ p ∈ good, (decodeMessage mp p).isSome) ∧
      decodeMessage mp bad = none := by
  induction ps with
  | nil => exact absurd (by simp) h
  | cons p ps ih =>
    cases hp : decodeMessage mp p with
    | none => exact ⟨[], p, ps, rfl, by simp, hp⟩
    | some m =>
      have hps : ¬∀ q ∈ ps, (decodeMessage mp q).isSome := fun hall ↦
        h (List.forall_mem_cons.mpr ⟨by rw [hp]; rfl, hall⟩)
      obtain ⟨good, bad, rest, rfl, hgood, hbad⟩ := ih hps
      exact ⟨p :: good, bad, rest, rfl, List.forall_mem_cons.mpr ⟨by rw [hp]; rfl, hgood⟩, hbad⟩

/-- Two decompositions at the first bad payload are the same one. -/
private theorem firstBad_unique {good good' rest rest' : List (List UInt8)}
    {bad bad' : List UInt8} (h : good ++ bad :: rest = good' ++ bad' :: rest')
    (hgood : ∀ p ∈ good, (decodeMessage mp p).isSome) (hbad : decodeMessage mp bad = none)
    (hgood' : ∀ p ∈ good', (decodeMessage mp p).isSome) (hbad' : decodeMessage mp bad' = none) :
    good = good' ∧ bad = bad' ∧ rest = rest' := by
  rcases complete_or_before h with ⟨l, hl⟩ | ⟨l, hl, hrest⟩
  · have hmem : bad ∈ good' := by rw [hl]; simp
    have hsome := hgood' bad hmem
    rw [hbad] at hsome
    cases hsome
  · cases l with
    | nil =>
      rw [List.nil_append, List.cons.injEq] at hrest
      exact ⟨by rw [hl, List.append_nil], hrest.1.symm, hrest.2.symm⟩
    | cons x l =>
      rw [List.cons_append, List.cons.injEq] at hrest
      have hsome := hgood bad' (by rw [hl, hrest.1]; simp)
      rw [hbad'] at hsome
      cases hsome

/-- **When no good message is lost.** On a stream of well-sized frames the hub's reader delivers
every decodable message exactly when the first bad frame stands alone; the agent's reader always
does, with an error message in the place of each bad frame. -/
theorem delivered_eq_decodable_iff (mp : MsgPack) (serde : Agent.Serde Agent.HubToAgent)
    (ps chunks : List (List UInt8)) (hps : ∀ p ∈ ps, p.length ≤ MAX_FRAME_SIZE)
    (hchunks : chunks.flatten = ps.flatMap frame) :
    (delivered (pushAll (FrameReader.push mp) FrameReader.new chunks).2
        = ps.filterMap (decodeMessage mp) ↔ BadFrameAlone mp ps chunks) ∧
      delivered (pushAll (Agent.FrameReader.push serde) Agent.FrameReader.new chunks).2
        = ps.map (Agent.FrameReader.readMessage serde) := by
  refine ⟨?_, (Agent.FrameReader.pushAll_frames serde hps hchunks).2.2⟩
  by_cases hall : ∀ p ∈ ps, (decodeMessage mp p).isSome
  · refine iff_of_true (FrameReader.pushAll_frames mp hps hall hchunks).2.2 ?_
    rintro good bad rest rfl - hbad
    have hsome := hall bad (by simp)
    rw [hbad] at hsome
    cases hsome
  · obtain ⟨good, bad, rest, rfl, hgood, hbad⟩ := exists_firstBad hall
    obtain ⟨qs, hpre, hdel, hiff⟩ := firstBad_delivered FrameReader.new chunks
      hps hgood hbad (cutter_cut_nil MAX_FRAME_SIZE) hchunks
    have hqs : ∀ p ∈ qs, (decodeMessage mp p).isSome := fun p hp ↦ hgood p (hpre.subset hp)
    have hcount : delivered (pushAll (FrameReader.push mp) FrameReader.new chunks).2
        = (good ++ bad :: rest).filterMap (decodeMessage mp) ↔
          qs = good ∧ ∀ p ∈ rest, decodeMessage mp p = none := by
      rw [hdel, List.filterMap_append, List.filterMap_cons_none hbad,
        ← filterMap_eq_nil_iff_decode]
      constructor
      · intro heq
        have hlen := congrArg List.length heq
        rw [List.length_append, length_filterMap_of_isSome hqs, length_filterMap_of_isSome hgood]
          at hlen
        have hle := hpre.length_le
        exact ⟨hpre.eq_of_length (by omega), List.length_eq_zero_iff.mp (by omega)⟩
      · rintro ⟨rfl, hrest⟩
        rw [hrest, List.append_nil]
    rw [hcount, hiff]
    constructor
    · rintro ⟨hgap, hrest⟩ good' bad' rest' heq hgood' hbad'
      obtain ⟨rfl, rfl, rfl⟩ := firstBad_unique heq hgood hbad hgood' hbad'
      exact ⟨hrest, hgap⟩
    · intro halone
      obtain ⟨hrest, hgap⟩ := halone good bad rest rfl hgood hbad
      exact ⟨hgap, hrest⟩

/-- MessagePack on objects with the one key `type` and a short ASCII text behind it: a map of one
entry, the key and the text, each text behind its length. -/
def MsgPack.typeOnly : MsgPack where
  encode
    | .obj [("type", .str s)] => [0x81, 0xa4, 0x74, 0x79, 0x70, 0x65] ++
        fixstr s
    | _ => []
  decode
    | 0x81 :: 0xa4 :: 0x74 :: 0x79 :: 0x70 :: 0x65 :: n :: text =>
      if n.toNat = 0xa0 + text.length then
        some (.obj [("type", .str (String.ofList (text.map fun b ↦ Char.ofNat b.toNat)))])
      else none
    | _ => none

/-- The payload of `{ type: "PING" }`. -/
def pingPayload : List UInt8 := encodeMessage MsgPack.typeOnly (.obj [("type", .str "PING")])

/-- The good frame and the bad one in two reads. The byte `0xc1` is the one that MessagePack never
uses. -/
theorem delivered_eq_decodable_iff_ping :
    delivered (pushAll (FrameReader.push MsgPack.typeOnly) FrameReader.new
        [frame pingPayload, frame [0xc1]]).2
      = [pingPayload, [0xc1]].filterMap (decodeMessage MsgPack.typeOnly) := by
  refine (delivered_eq_decodable_iff MsgPack.typeOnly Agent.Serde.heartbeatOnly
    [pingPayload, [0xc1]] _ (by decide) rfl).1.mpr ?_
  intro good bad rest heq hgood hbad
  have hping : ∀ p ∈ [pingPayload], (decodeMessage MsgPack.typeOnly p).isSome := by
    intro p hp
    rw [List.mem_singleton.mp hp]
    rfl
  have hfirst : [pingPayload] ++ [0xc1] :: [] = good ++ bad :: rest := heq
  obtain ⟨rfl, rfl, rfl⟩ := firstBad_unique hfirst hping rfl hgood hbad
  exact ⟨by simp, 1, by decide, by decide⟩

/-- All three frames in one read: the push throws and both good messages are gone. -/
theorem badFrame_loses_neighbours :
    delivered (pushAll (FrameReader.push MsgPack.typeOnly) FrameReader.new
        [frame pingPayload ++ frame [0xc1] ++ frame pingPayload]).2
      ≠ [pingPayload, [0xc1], pingPayload].filterMap (decodeMessage MsgPack.typeOnly) := by
  have hdrain : (drain (cutter MAX_FRAME_SIZE)
      (frame pingPayload ++ frame [0xc1] ++ frame pingPayload)).1
        = [pingPayload] ++ [0xc1] :: [pingPayload] := by
    have hsized : ∀ p ∈ [pingPayload, [0xc1], pingPayload], p.length ≤ MAX_FRAME_SIZE := by decide
    exact congrArg Prod.fst (drain_frames MAX_FRAME_SIZE_lt hsized)
  have hping : ∀ p ∈ [pingPayload], (decodeMessage MsgPack.typeOnly p).isSome := by
    intro p hp
    rw [List.mem_singleton.mp hp]
    rfl
  obtain ⟨b, r, hthrow, -⟩ := FrameReader.extract_of_bad hdrain hping rfl []
  have hnone : delivered (pushAll (FrameReader.push MsgPack.typeOnly) FrameReader.new
      [frame pingPayload ++ frame [0xc1] ++ frame pingPayload]).2 = [] := by
    rw [pushAll, FrameReader.push, FrameReader.new, List.nil_append, hthrow]
    rfl
  rw [hnone]
  intro h
  exact absurd (congrArg List.length h) (by decide)

/-! ## The queue in front of the stream -/

/-- **What the agent reads was sent**, in the order in which it was sent and once: the messages of
the frames that were written, up to what has come in. `qs` are the payloads of the frames that the
queue has not lost and does not hold. -/
theorem agent_reads_sublist (serde : Agent.Serde Agent.HubToAgent) {ps reads : List (List UInt8)}
    {es : List Hub.SendEvent} {s : Hub.SendQueue}
    (hrun : Runs.run Hub.SendQueue.step Hub.SendQueue.new es = some s)
    (hsent : Hub.SendQueue.sentData es = ps.map frame)
    (hps : ∀ p ∈ ps, p.length ≤ Agent.MAX_FRAME_SIZE)
    (hreads : reads.flatten <+: s.written.flatMap Ledger.Numbered.value) :
    Returned (pushAll (Agent.FrameReader.push serde) Agent.FrameReader.new reads).2 ∧
    ∃ qs : List (List UInt8), qs.Sublist ps ∧ s.written.map Ledger.Numbered.value = qs.map frame ∧
      delivered (pushAll (Agent.FrameReader.push serde) Agent.FrameReader.new reads).2 <+:
        qs.map (Agent.FrameReader.readMessage serde) ∧
      (reads.flatten = s.written.flatMap Ledger.Numbered.value →
        delivered (pushAll (Agent.FrameReader.push serde) Agent.FrameReader.new reads).2 =
          qs.map (Agent.FrameReader.readMessage serde)) := by
  have hwritten : (s.written.map Ledger.Numbered.value).Sublist (ps.map frame) := by
    have hinv : Hub.SendQueue.Inv es s :=
      Runs.run_history Hub.SendQueue.Inv .new (fun _ _ _ _ hrun h hstep ↦ h.step hrun hstep) hrun
    have horder := (List.sublist_append_left _ _).trans hinv.accounts.order
    rw [← hsent, ← Ledger.map_value_numbered (Hub.SendQueue.sentData es)]
    exact horder.map _
  obtain ⟨qs, hqs, hframes⟩ := List.sublist_map_iff.mp hwritten
  have hsized : ∀ p ∈ qs, p.length ≤ Agent.MAX_FRAME_SIZE := fun p hp ↦ hps p (hqs.subset hp)
  have hstream : s.written.flatMap Ledger.Numbered.value = qs.flatMap frame := by
    rw [List.flatMap_def, hframes, ← List.flatMap_def]
  -- the rest comes in one more read
  obtain ⟨rest, hrest⟩ := hreads
  have hall : (reads ++ [rest]).flatten = qs.flatMap frame := by
    rw [List.flatten_append, List.flatten_singleton, hrest, hstream]
  obtain ⟨-, hreturned, hdelivered⟩ := Agent.FrameReader.pushAll_frames serde hsized hall
  rw [pushAll_concat] at hreturned hdelivered
  refine ⟨fun r hr ↦ hreturned r (List.mem_append_left _ hr), qs, hqs, hframes, ?_, fun heq ↦ ?_⟩
  · rw [← hdelivered, delivered, delivered, List.flatMap_append]
    exact List.prefix_append _ _
  · exact (Agent.FrameReader.pushAll_frames serde hsized (heq.trans hstream)).2.2

theorem agent_reads_sublist_pressed : ∃ qs : List (List UInt8), qs.Sublist [[1], [2]] ∧
    delivered (pushAll (Agent.FrameReader.push Agent.Serde.heartbeatOnly) Agent.FrameReader.new
        [[1, 0], [0, 0, 1]]).2 <+:
      qs.map (Agent.FrameReader.readMessage Agent.Serde.heartbeatOnly) := by
  obtain ⟨-, qs, hqs, -, hreads, -⟩ := @agent_reads_sublist Agent.Serde.heartbeatOnly [[1], [2]]
    [[1, 0], [0, 0, 1]] [.send (frame [1]), .returns false, .send (frame [2])] _ rfl rfl (by decide)
    (by decide)
  exact ⟨qs, hqs, hreads⟩

end Lasterm
