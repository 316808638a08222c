import Mathlib.Data.List.Perm.Basic
import Lasterm.Library.OrderedMap

/-!
# The batch loop

`batch.rs`: reader tasks send every piece of output to one loop, which collects it for each channel
and passes it on every 16 ms, or sooner when there is enough.

The loop sits between two queues: `rx`, into which the readers send, and `tx`, out of which the
writer takes. `inFlight` is what is on the way between the two for one channel. The loop's own steps
do not change it (`inFlight_recv`, `inFlight_tick`): bytes of a channel stay in order and none is
lost, but nothing says when they come out.
-/

namespace Lasterm.Agent

/-- Output of a channel, as a reader task sends it. -/
structure OutputEvent where
  channelId : String
  seq : ℕ
  data : List UInt8

/-- Output of a channel, ready to be sent to the hub. -/
structure BatchedOutput where
  channelId : String
  /-- The `seq` of the last event in it. -/
  seq : ℕ
  data : List UInt8
  deriving DecidableEq

def BATCH_MAX_BYTES : ℕ := 4096

structure ChannelBuffer where
  data : List UInt8
  lastSeq : ℕ

/-- The loop with its two queues. -/
structure BatchLoop where
  rx : List OutputEvent
  buffers : OrderedMap String ChannelBuffer
  tx : List BatchedOutput

namespace BatchLoop

def new : BatchLoop := ⟨[], .empty, []⟩

/-- `output_tx.send`. -/
def send (b : BatchLoop) (e : OutputEvent) : BatchLoop := { b with rx := b.rx ++ [e] }

/-- The arm `event = rx.recv()`. -/
def recv (b : BatchLoop) : Option BatchLoop :=
  match b.rx with
  | [] => none
  | e :: rx =>
    let old := (b.buffers.get e.channelId).getD ⟨[], 0⟩
    let buf : ChannelBuffer := ⟨old.data ++ e.data, e.seq⟩
    if BATCH_MAX_BYTES ≤ buf.data.length then
      some ⟨rx, b.buffers.set e.channelId ⟨[], buf.lastSeq⟩,
        b.tx ++ [⟨e.channelId, buf.lastSeq, buf.data⟩]⟩
    else some ⟨rx, b.buffers.set e.channelId buf, b.tx⟩

/-- The channels a tick finds data for. -/
def filled (b : BatchLoop) : List String :=
  (b.buffers.entries.filter fun e ↦ e.2.data ≠ []).map Prod.fst

/-- The body of the loop over the channels of a tick. -/
def flushChannel (b : BatchLoop) (id : String) : BatchLoop :=
  match b.buffers.get id with
  | none => b
  | some buf =>
    if buf.data = [] then b
    else ⟨b.rx, b.buffers.set id ⟨[], buf.lastSeq⟩, b.tx ++ [⟨id, buf.lastSeq, buf.data⟩]⟩

/-- The arm `interval.tick()`. The order in which a hash map is walked is any order. -/
def tick (b : BatchLoop) (ids : List String) : Option BatchLoop :=
  if ids.Perm b.filled then some (ids.foldl flushChannel b) else none

/-- `batched_rx.recv()` in the writer. -/
def take (b : BatchLoop) : Option (BatchedOutput × BatchLoop) :=
  match b.tx with
  | [] => none
  | out :: tx => some (out, { b with tx := tx })

/-! ## Conservation -/

/-- The bytes of a channel among the events of a queue. -/
def eventBytes (c : String) (es : List OutputEvent) : List UInt8 :=
  (es.filter fun e ↦ e.channelId = c).flatMap OutputEvent.data

/-- The bytes of a channel among batches. -/
def batchBytes (c : String) (bs : List BatchedOutput) : List UInt8 :=
  (bs.filter fun e ↦ e.channelId = c).flatMap BatchedOutput.data

/-- The bytes of a channel in the loop's buffer. -/
def bufferBytes (b : BatchLoop) (c : String) : List UInt8 :=
  ((b.buffers.get c).map ChannelBuffer.data).getD []

/-- What is on the way for a channel, first out first. -/
def inFlight (b : BatchLoop) (c : String) : List UInt8 :=
  batchBytes c b.tx ++ b.bufferBytes c ++ eventBytes c b.rx

theorem eventBytes_append (c : String) (es es' : List OutputEvent) :
    eventBytes c (es ++ es') = eventBytes c es ++ eventBytes c es' := by
  rw [eventBytes, List.filter_append, List.flatMap_append, eventBytes, eventBytes]

theorem batchBytes_append (c : String) (bs bs' : List BatchedOutput) :
    batchBytes c (bs ++ bs') = batchBytes c bs ++ batchBytes c bs' := by
  rw [batchBytes, List.filter_append, List.flatMap_append, batchBytes, batchBytes]

theorem eventBytes_singleton (c : String) (e : OutputEvent) :
    eventBytes c [e] = if e.channelId = c then e.data else [] := by
  rw [eventBytes]
  split
  · rename_i h
    rw [List.filter_cons_of_pos (by simp [h]), List.filter_nil, List.flatMap_singleton]
  · rename_i h
    rw [List.filter_cons_of_neg (by simp [h]), List.filter_nil, List.flatMap_nil]

theorem batchBytes_singleton (c : String) (e : BatchedOutput) :
    batchBytes c [e] = if e.channelId = c then e.data else [] := by
  rw [batchBytes]
  split
  · rename_i h
    rw [List.filter_cons_of_pos (by simp [h]), List.filter_nil, List.flatMap_singleton]
  · rename_i h
    rw [List.filter_cons_of_neg (by simp [h]), List.filter_nil, List.flatMap_nil]

variable (b : BatchLoop)

theorem inFlight_send (e : OutputEvent) (c : String) :
    (b.send e).inFlight c = b.inFlight c ++ if e.channelId = c then e.data else [] := by
  rw [inFlight, send, eventBytes_append, eventBytes_singleton, ← List.append_assoc]
  rfl

/-- Moving the buffer of a channel to the end of `tx`. -/
theorem batchBytes_append_buffer (c id : String) (buf : ChannelBuffer) :
    batchBytes c (b.tx ++ [⟨id, buf.lastSeq, buf.data⟩]) ++
        (((b.buffers.set id ⟨[], buf.lastSeq⟩).get c).map ChannelBuffer.data).getD []
      = batchBytes c b.tx ++ (((b.buffers.set id buf).get c).map ChannelBuffer.data).getD [] := by
  rw [batchBytes_append, batchBytes_singleton, OrderedMap.get_set, OrderedMap.get_set]
  by_cases hc : id = c
  · simp [hc]
  · simp [hc]

theorem inFlight_recv {b b' : BatchLoop} (h : b.recv = some b') (c : String) :
    b'.inFlight c = b.inFlight c := by
  rw [recv] at h
  cases hrx : b.rx with
  | nil => rw [hrx] at h; cases h
  | cons e rx =>
    rw [hrx] at h
    dsimp only at h
    -- the buffer of the channel with the event behind it
    have hbuf : (((b.buffers.set e.channelId
          ⟨((b.buffers.get e.channelId).getD ⟨[], 0⟩).data ++ e.data, e.seq⟩).get c).map
            ChannelBuffer.data).getD []
        = b.bufferBytes c ++ if e.channelId = c then e.data else [] := by
      rw [OrderedMap.get_set, bufferBytes]
      by_cases hc : e.channelId = c
      · subst hc
        cases b.buffers.get e.channelId <;> simp
      · simp [hc]
    have hsplit : eventBytes c (e :: rx)
        = (if e.channelId = c then e.data else []) ++ eventBytes c rx := by
      rw [← List.singleton_append, eventBytes_append, eventBytes_singleton]
    split at h
    · cases h
      have hmove := batchBytes_append_buffer b c e.channelId
        ⟨((b.buffers.get e.channelId).getD ⟨[], 0⟩).data ++ e.data, e.seq⟩
      rw [hbuf] at hmove
      rw [inFlight, bufferBytes, hmove, inFlight, hrx, hsplit]
      simp only [List.append_assoc]
    · cases h
      rw [inFlight, bufferBytes, hbuf, inFlight, hrx, hsplit]
      simp only [List.append_assoc]

theorem inFlight_flushChannel (id c : String) : (b.flushChannel id).inFlight c = b.inFlight c := by
  rw [flushChannel]
  split
  · rfl
  · rename_i buf hget
    split
    · rfl
    · have hmove := batchBytes_append_buffer b c id buf
      have hsame : ((b.buffers.set id buf).get c) = b.buffers.get c := by
        rw [OrderedMap.get_set]
        split
        · rename_i hc
          rw [← hc, hget]
        · rfl
      rw [hsame] at hmove
      rw [inFlight, bufferBytes, hmove, inFlight, bufferBytes]

theorem inFlight_foldl_flushChannel (ids : List String) (c : String) :
    (ids.foldl flushChannel b).inFlight c = b.inFlight c := by
  induction ids generalizing b with
  | nil => rfl
  | cons id ids ih => exact (ih (b.flushChannel id)).trans (inFlight_flushChannel b id c)

theorem inFlight_tick {b b' : BatchLoop} {ids : List String} (h : b.tick ids = some b')
    (c : String) :
    b'.inFlight c = b.inFlight c := by
  rw [tick] at h
  split at h
  · cases h
    exact inFlight_foldl_flushChannel b ids c
  · cases h

theorem inFlight_take {b b' : BatchLoop} {out : BatchedOutput} (h : b.take = some (out, b'))
    (c : String) :
    b.inFlight c = (if out.channelId = c then out.data else []) ++ b'.inFlight c := by
  rw [take] at h
  split at h
  · cases h
  · rename_i out' tx htx
    obtain ⟨rfl, rfl⟩ := Prod.mk.inj (Option.some.inj h)
    rw [inFlight, htx, ← List.singleton_append, batchBytes_append, batchBytes_singleton,
      inFlight]
    simp only [List.append_assoc]
    rfl

end BatchLoop

end Lasterm.Agent
