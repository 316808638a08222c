import Mathlib.Data.List.Infix
import Lasterm.Agent.Batch
import Lasterm.Library.Runs

/-!
# From the terminal to the frame queue

`handler.rs`: a reader task for each channel, the batch loop, the writer that turns batches into
OUTPUT frames, and the handlers of the hub's requests. All of them put frames into one queue, in
which they are sent in order.

Output goes through the batch loop. The replies to SNAPSHOT_REQ and ATTACH, and CHANNEL_EXIT, do
not: a handler that has its snapshot sends its frame at once. An `AgentEvent` is one uninterrupted
piece of one task, so that a run is any interleaving of the tasks.

Everything a step does to the output of a channel is said once, in `Flows`: bytes go into the mirror
and into the pipeline together, and come out of it in order. Over a run (`run_flows`) the frames
added and what is still on the way are what was on the way before and what was read since. Whether
the frames behind a reply continue its snapshot is then a question about the moment of the reply
only (`output_after_reply_iff`).

A mirror is represented by what it was fed. The terminal it emulates, and the text of a snapshot,
are functions of that.
-/

namespace Lasterm.Agent

open Runs (Ensures)

/-! ## Terminals -/

/-- What a mirror is fed. -/
inductive MirrorOp where
  | process (data : List UInt8)
  | resize (cols rows : ℕ)
  deriving DecidableEq

structure HeadlessMirror where
  ops : List MirrorOp

/-- A snapshot shows the terminal after all the mirror was fed. -/
structure SnapshotInfo where
  ops : List MirrorOp
  deriving DecidableEq

/-- The output among what a mirror was fed. -/
def MirrorOp.bytes : List MirrorOp → List UInt8
  | [] => []
  | .process data :: ops => data ++ bytes ops
  | .resize _ _ :: ops => bytes ops

namespace HeadlessMirror

def new : HeadlessMirror := ⟨[]⟩

def process (m : HeadlessMirror) (data : List UInt8) : HeadlessMirror := ⟨m.ops ++ [.process data]⟩

def resize (m : HeadlessMirror) (cols rows : ℕ) : HeadlessMirror := ⟨m.ops ++ [.resize cols rows]⟩

def snapshot (m : HeadlessMirror) : SnapshotInfo := ⟨m.ops⟩

/-- The output applied to the mirror. -/
def bytes (m : HeadlessMirror) : List UInt8 := MirrorOp.bytes m.ops

end HeadlessMirror

/-- The output a snapshot reflects. -/
def SnapshotInfo.bytes (i : SnapshotInfo) : List UInt8 := MirrorOp.bytes i.ops

theorem MirrorOp.bytes_append (ops ops' : List MirrorOp) :
    bytes (ops ++ ops') = bytes ops ++ bytes ops' := by
  induction ops with
  | nil => rfl
  | cons op ops ih =>
    cases op with
    | process data => rw [List.cons_append, bytes, ih, bytes, List.append_assoc]
    | resize cols rows => rw [List.cons_append, bytes, ih, bytes]

@[simp] theorem HeadlessMirror.bytes_process (m : HeadlessMirror) (data : List UInt8) :
    (m.process data).bytes = m.bytes ++ data := by
  rw [bytes, process, MirrorOp.bytes_append, bytes, MirrorOp.bytes, MirrorOp.bytes, List.append_nil]

@[simp] theorem HeadlessMirror.bytes_resize (m : HeadlessMirror) (cols rows : ℕ) :
    (m.resize cols rows).bytes = m.bytes := by
  rw [bytes, resize, MirrorOp.bytes_append, bytes, MirrorOp.bytes, MirrorOp.bytes, List.append_nil]

/-- The query `ESC [ 6 n`. -/
def DSR : List UInt8 := [0x1b, 0x5b, 0x36, 0x6e]

/-- The loop of `strip_dsr`. -/
def stripLoop : List UInt8 → List UInt8
  | [] => []
  | b :: rest => if DSR <+: b :: rest then stripLoop (rest.drop 3) else b :: stripLoop rest
termination_by data => data.length
decreasing_by all_goals simp; try omega

def stripDsr (data : List UInt8) : List UInt8 := if DSR <:+: data then stripLoop data else data

variable (data : List UInt8)

theorem length_stripLoop_le : (stripLoop data).length ≤ data.length := by
  fun_induction stripLoop data with
  | case1 => exact Nat.le_refl _
  | case2 b rest h ih =>
    rw [List.length_drop] at ih
    rw [List.length_cons]
    omega
  | case3 b rest h ih => exact Nat.succ_le_succ ih

theorem length_stripLoop_lt {data : List UInt8} (h : DSR <:+: data) :
    (stripLoop data).length < data.length := by
  fun_induction stripLoop data with
  | case1 => exact absurd (List.infix_nil.mp h) (by decide)
  | case2 b rest hpre ih =>
    have hle := length_stripLoop_le (rest.drop 3)
    rw [List.length_drop] at hle
    rw [List.length_cons]
    omega
  | case3 b rest hpre ih =>
    rcases List.infix_cons_iff.mp h with h | h
    · exact absurd h hpre
    · exact Nat.succ_lt_succ (ih h)

theorem length_stripDsr_le : (stripDsr data).length ≤ data.length := by
  rw [stripDsr]
  split
  · exact length_stripLoop_le data
  · exact Nat.le_refl _

/-- Nothing but a query is taken out, and a query shortens the data. -/
theorem length_stripDsr_eq_iff : (stripDsr data).length = data.length ↔ ¬ DSR <:+: data := by
  rw [stripDsr]
  split
  · rename_i h
    exact iff_of_false (Nat.ne_of_lt (length_stripLoop_lt h)) (not_not_intro h)
  · rename_i h
    exact iff_of_true rfl h

/-! ## Messages and state -/

/-- The requests that are answered with a snapshot. -/
inductive SnapshotRequest where
  | snapshotReq
  | attach
  deriving DecidableEq

inductive ChannelCommand where
  | snapshot (req : SnapshotRequest)
  | resize (cols rows : ℕ)
  deriving DecidableEq

/-- The frames that matter here. Titles, bells and notifications carry no output. -/
inductive AgentToHub where
  | spawnOk (channelId : String)
  | output (channelId : String) (seq : ℕ) (data : List UInt8)
  | snapshotRes (channelId : String) (snapshot : SnapshotInfo) (lastSeq : ℕ)
  | attachOk (channelId : String) (snapshot : SnapshotInfo) (lastSeq : ℕ)
  | channelNotFound (channelId : String)
  | log (channelId : String)
  | channelExit (channelId : String)
  deriving DecidableEq

/-- Where a reader task is: in its loop, behind it, behind the removal of its command sender, or at
its end. -/
inductive ReaderPhase where
  | reading
  | closing
  | waiting
  | done
  deriving DecidableEq

/-- A reader task. -/
structure Reader where
  phase : ReaderPhase
  seq : ℕ
  mirror : HeadlessMirror
  cmds : List ChannelCommand

structure PtyChannelState where
  seq : ℕ

/-- The tasks of an agent and what they share. `replies` holds the handlers that have their snapshot
and have not sent it yet. -/
structure AgentState where
  channels : String → Option PtyChannelState
  cmdSenders : String → Bool
  readers : String → Option Reader
  batch : BatchLoop
  replies : List (SnapshotRequest × String × SnapshotInfo)
  frames : List AgentToHub

namespace AgentState

def new : AgentState := ⟨fun _ ↦ none, fun _ ↦ false, fun _ ↦ none, .new, [], []⟩

def sendFrame (s : AgentState) (frame : AgentToHub) : AgentState :=
  { s with frames := s.frames ++ [frame] }

def setReader (s : AgentState) (c : String) (r : Reader) : AgentState :=
  { s with readers := Function.update s.readers c (some r) }

/-- The frame a handler sends. Its `lastSeq` is the `seq` of the channel's registration. -/
def replyFrame (s : AgentState) (req : SnapshotRequest) (c : String) (info : SnapshotInfo) :
    AgentToHub :=
  let lastSeq := ((s.channels c).map PtyChannelState.seq).getD 0
  match req with
  | .snapshotReq => .snapshotRes c info lastSeq
  | .attach => .attachOk c info lastSeq

end AgentState

/-- One uninterrupted piece of one task. -/
inductive AgentEvent where
  /-- A successful SPAWN. -/
  | spawn (c : String)
  /-- The reader gets bytes from the terminal. -/
  | read (c : String) (raw : List UInt8)
  /-- The reader takes the next command. -/
  | serve (c : String)
  /-- The reader sees the end of the terminal, or the loss of its sender, and leaves its loop. -/
  | eof (c : String)
  /-- The reader removes its command sender. -/
  | cleanup (c : String)
  /-- The reader takes its channel out of the registry and sends CHANNEL_EXIT. -/
  | exit (c : String)
  /-- DESTROY takes the channel out of the registry. -/
  | destroy (c : String)
  /-- A handler passes a snapshot request to the reader. -/
  | request (req : SnapshotRequest) (c : String)
  /-- A handler passes a resize to the reader. -/
  | resize (c : String) (cols rows : ℕ)
  /-- A handler sends the snapshot it got. -/
  | reply (i : ℕ)
  | batchRecv
  | batchTick (ids : List String)
  /-- The writer turns a batch into a frame. -/
  | write

namespace AgentState

variable (s : AgentState)

/-- A reader in its loop gets `raw` from the terminal. -/
def read (c : String) (r : Reader) (raw : List UInt8) : AgentState :=
  let seq := r.seq + 1
  let data := stripDsr raw
  if data = [] then s.setReader c { r with seq := seq }
  else { s.setReader c { r with seq := seq, mirror := r.mirror.process data } with
    batch := s.batch.send ⟨c, seq, data⟩ }

/-- A reader in its loop takes a command. -/
def serve (c : String) (r : Reader) : ChannelCommand → AgentState
  | .snapshot req => { s with replies := s.replies ++ [(req, c, r.mirror.snapshot)] }
  | .resize cols rows => s.setReader c { r with mirror := r.mirror.resize cols rows }

/-- Pass a command to the reader; a request for an unknown channel is answered only for ATTACH. -/
def command (c : String) (cmd : ChannelCommand) : AgentState :=
  match s.cmdSenders c, s.readers c with
  | true, some r => s.setReader c { r with cmds := r.cmds ++ [cmd] }
  | _, _ => if cmd = .snapshot .attach then s.sendFrame (.channelNotFound c) else s

/-- The reader of a channel, if it is in a given phase. -/
def readerIn (c : String) (phase : ReaderPhase) : Option Reader :=
  (s.readers c).filter fun r ↦ r.phase = phase

/-- A terminal is spawned once for each id: the reuse of an id is another matter. -/
def step : AgentEvent → Option AgentState
  | .spawn c =>
    match s.readers c with
    | some _ => none
    | none =>
      some (({ s with
        channels := Function.update s.channels c (some ⟨0⟩)
        cmdSenders := Function.update s.cmdSenders c true }.sendFrame (.spawnOk c)).setReader c
          ⟨.reading, 0, .new, []⟩)
  | .read c raw => do
    let r ← s.readerIn c .reading
    if raw = [] ∨ 4096 < raw.length then none else some (s.read c r raw)
  | .serve c => do
    let r ← s.readerIn c .reading
    match r.cmds with
    | [] => none
    | cmd :: cmds =>
      some ((s.setReader c { r with cmds := cmds }).serve c { r with cmds := cmds } cmd)
  | .eof c => do
    let r ← s.readerIn c .reading
    some ((s.setReader c { r with phase := .closing }).sendFrame (.log c))
  | .cleanup c => do
    let r ← s.readerIn c .closing
    some { s.setReader c { r with phase := .waiting } with
      cmdSenders := Function.update s.cmdSenders c false }
  | .exit c => do
    let r ← s.readerIn c .waiting
    some ({ s.setReader c { r with phase := .done } with
      channels := Function.update s.channels c none }.sendFrame (.channelExit c))
  | .destroy c => some { s with channels := Function.update s.channels c none }
  | .request req c => some (s.command c (.snapshot req))
  | .resize c cols rows => some (s.command c (.resize cols rows))
  | .reply i =>
    match s.replies[i]? with
    | none => none
    | some (req, c, info) =>
      some ({ s with replies := s.replies.eraseIdx i }.sendFrame (s.replyFrame req c info))
  | .batchRecv => do
    let batch ← s.batch.recv
    some { s with batch := batch }
  | .batchTick ids => do
    let batch ← s.batch.tick ids
    some { s with batch := batch }
  | .write => do
    let (out, batch) ← s.batch.take
    some ({ s with batch := batch }.sendFrame (.output out.channelId out.seq out.data))

/-! ## The flow of output -/

/-- The output applied to the mirror of a channel. -/
def applied (c : String) : List UInt8 :=
  ((s.readers c).map fun r ↦ r.mirror.bytes).getD []

end AgentState

/-- The output of a channel in frames. -/
def outputBytes (c : String) (frames : List AgentToHub) : List UInt8 :=
  frames.flatMap fun
    | .output c' _ data => if c' = c then data else []
    | _ => []

theorem outputBytes_append (c : String) (fs fs' : List AgentToHub) :
    outputBytes c (fs ++ fs') = outputBytes c fs ++ outputBytes c fs' := List.flatMap_append

/-- The output of a channel that an event brings in. -/
def AgentEvent.output (c : String) : AgentEvent → List UInt8
  | .read c' raw => if c' = c then stripDsr raw else []
  | _ => []

/-- What happens to the output of a channel: `data` goes into the mirror and into the pipeline, and
what comes out of the pipeline goes into frames. -/
def Flows (c : String) (s : AgentState) (data : List UInt8) (s' : AgentState) : Prop :=
  ∃ frames, s'.frames = s.frames ++ frames ∧ s'.applied c = s.applied c ++ data ∧
    outputBytes c frames ++ s'.batch.inFlight c = s.batch.inFlight c ++ data

namespace Flows

variable {c : String} {s s' s'' : AgentState} {data data' : List UInt8}

theorem refl (c : String) (s : AgentState) : Flows c s [] s :=
  ⟨[], (List.append_nil _).symm, (List.append_nil _).symm, (List.append_nil _).symm⟩

theorem trans (h : Flows c s data s') (h' : Flows c s' data' s'') :
    Flows c s (data ++ data') s'' := by
  obtain ⟨fs, hfs, happ, hfl⟩ := h
  obtain ⟨fs', hfs', happ', hfl'⟩ := h'
  refine ⟨fs ++ fs', ?_, ?_, ?_⟩
  · rw [hfs', hfs, List.append_assoc]
  · rw [happ', happ, List.append_assoc]
  · rw [outputBytes_append, List.append_assoc, hfl', ← List.append_assoc, hfl, List.append_assoc]

/-- Frames without output, and no change to mirror and pipeline. -/
theorem of_frames (frames : List AgentToHub) (hframes : s'.frames = s.frames ++ frames)
    (hout : outputBytes c frames = []) (happ : s'.applied c = s.applied c)
    (hbatch : s'.batch.inFlight c = s.batch.inFlight c) : Flows c s [] s' :=
  ⟨frames, hframes, by rw [happ, List.append_nil], by
    rw [hout, hbatch, List.nil_append, List.append_nil]⟩

end Flows

namespace AgentState

variable {s s' : AgentState} {c c' : String} {r r' : Reader} {e : AgentEvent}

theorem readerIn_eq_some {phase : ReaderPhase} (h : s.readerIn c phase = some r) :
    s.readers c = some r ∧ r.phase = phase := by
  obtain ⟨hr, hphase⟩ := Option.filter_eq_some_iff.mp h
  exact ⟨hr, by simpa using hphase⟩

@[simp] theorem readers_setReader_self (s : AgentState) (c : String) (r : Reader) :
    (s.setReader c r).readers c = some r := Function.update_self _ _ _

theorem readers_setReader_of_ne (s : AgentState) (h : c ≠ c') (r : Reader) :
    (s.setReader c r).readers c' = s.readers c' := Function.update_of_ne (Ne.symm h) _ _

theorem applied_setReader (s : AgentState) (c c' : String) (r : Reader) :
    (s.setReader c r).applied c' = if c = c' then r.mirror.bytes else s.applied c' := by
  by_cases hc : c = c'
  · rw [if_pos hc, ← hc, applied, readers_setReader_self, Option.map_some, Option.getD_some]
  · rw [if_neg hc, applied, readers_setReader_of_ne s hc, applied]

/-- A change to a reader that leaves what its mirror was fed. -/
theorem applied_setReader_of_bytes_eq (h : s.readers c = some r)
    (hr : r'.mirror.bytes = r.mirror.bytes)
    (c' : String) : (s.setReader c r').applied c' = s.applied c' := by
  rw [applied_setReader]
  split
  · rename_i hc
    rw [applied, ← hc, h, hr, Option.map_some, Option.getD_some]
  · rfl

theorem flows_spawn : Ensures (Flows c s []) (s.step (.spawn c')) := by
  rw [step]
  split
  · exact .of_none
  · rename_i hnone
    refine .of_some (Flows.of_frames [.spawnOk c'] rfl rfl ?_ rfl)
    rw [applied_setReader]
    split
    · rename_i hc
      rw [applied, ← hc, hnone]
      rfl
    · rfl

theorem step_read {raw : List UInt8} (h : s.step (.read c raw) = some s') :
    ∃ r, s.readers c = some r ∧ r.phase = .reading ∧ (raw ≠ [] ∧ raw.length ≤ 4096) ∧
      s' = s.read c r raw := by
  rw [step, Option.bind_eq_bind, Option.bind_eq_some_iff] at h
  obtain ⟨r, hr, h⟩ := h
  obtain ⟨hr, hphase⟩ := readerIn_eq_some hr
  split at h
  · cases h
  · rename_i hsize
    rw [not_or, not_lt] at hsize
    exact ⟨r, hr, hphase, hsize, (Option.some.inj h).symm⟩

theorem flows_read {raw : List UInt8} (h : s.step (.read c' raw) = some s') :
    Flows c s (AgentEvent.output c (.read c' raw)) s' := by
  obtain ⟨r, hr, -, -, rfl⟩ := step_read h
  rw [read, AgentEvent.output]
  by_cases hdata : stripDsr raw = []
  · rw [if_pos hdata, hdata, ite_self]
    exact Flows.of_frames [] (List.append_nil _).symm rfl
      (applied_setReader_of_bytes_eq hr (by rfl) c) rfl
  · rw [if_neg hdata]
    refine ⟨[], (List.append_nil _).symm, ?_, ?_⟩
    · have happ := applied_setReader s c' c
        { r with seq := r.seq + 1, mirror := r.mirror.process (stripDsr raw) }
      refine happ.trans ?_
      by_cases hc : c' = c
      · rw [if_pos hc, if_pos hc, HeadlessMirror.bytes_process, applied, ← hc, hr,
          Option.map_some, Option.getD_some]
      · rw [if_neg hc, if_neg hc, List.append_nil]
    · exact BatchLoop.inFlight_send s.batch ⟨c', r.seq + 1, stripDsr raw⟩ c

theorem step_serve (h : s.step (.serve c) = some s') :
    ∃ r cmd cmds, s.readers c = some r ∧ r.phase = .reading ∧ r.cmds = cmd :: cmds ∧
      s' = (s.setReader c { r with cmds := cmds }).serve c { r with cmds := cmds } cmd := by
  rw [step, Option.bind_eq_bind, Option.bind_eq_some_iff] at h
  obtain ⟨r, hr, h⟩ := h
  obtain ⟨hr, hphase⟩ := readerIn_eq_some hr
  split at h
  · cases h
  · rename_i cmd cmds hcmds
    exact ⟨r, cmd, cmds, hr, hphase, hcmds, (Option.some.inj h).symm⟩

theorem flows_serve (h : s.step (.serve c') = some s') : Flows c s [] s' := by
  obtain ⟨r, cmd, cmds, hr, -, -, rfl⟩ := step_serve h
  refine Flows.of_frames [] ?_ rfl ?_ ?_
  · cases cmd <;> exact (List.append_nil _).symm
  · cases cmd with
    | snapshot req => exact applied_setReader_of_bytes_eq hr (by rfl) c
    | resize cols rows =>
      have hset : ((s.setReader c' { r with cmds := cmds }).setReader c'
          { r with cmds := cmds, mirror := r.mirror.resize cols rows }).applied c
            = (s.setReader c' { r with cmds := cmds }).applied c :=
        applied_setReader_of_bytes_eq (readers_setReader_self _ _ _)
          (HeadlessMirror.bytes_resize _ cols rows) c
      exact hset.trans (applied_setReader_of_bytes_eq hr (by rfl) c)
  · cases cmd <;> rfl

/-- A reader goes on to another phase. -/
theorem flows_phase {phase : ReaderPhase} {frames : List AgentToHub} {s₁ : AgentState}
    (hr : s.readers c' = some r)
    (hreaders : s₁.readers = (s.setReader c' { r with phase := phase }).readers)
    (hframes : s₁.frames = s.frames ++ frames) (hout : outputBytes c frames = [])
    (hbatch : s₁.batch = s.batch) : Flows c s [] s₁ := by
  refine Flows.of_frames _ hframes hout ?_ (by rw [hbatch])
  have happ : s₁.applied c = (s.setReader c' { r with phase := phase }).applied c := by
    rw [applied, hreaders, applied]
  exact happ.trans (applied_setReader_of_bytes_eq hr (by rfl) c)

theorem flows_command (s : AgentState) (c c' : String) (cmd : ChannelCommand) :
    Flows c s [] (s.command c' cmd) := by
  rw [command]
  split
  · rename_i r hsender hr
    exact Flows.of_frames []
      (List.append_nil _).symm rfl (applied_setReader_of_bytes_eq hr (by rfl) c) rfl
  · split
    · exact Flows.of_frames [.channelNotFound c'] rfl rfl rfl rfl
    · exact Flows.refl c s

theorem outputBytes_replyFrame (s : AgentState) (req : SnapshotRequest) (c c' : String)
    (info : SnapshotInfo) : outputBytes c [s.replyFrame req c' info] = [] := by
  cases req <;> rfl

/-- **One step.** -/
theorem step_flows {c : String} :
    Ensures (Flows c s (e.output c)) (s.step e) := by
  cases e with
  | spawn c' => exact flows_spawn
  | read c' raw => exact fun _ h ↦ flows_read h
  | serve c' => exact fun _ h ↦ flows_serve h
  | eof c' | exit c' =>
    refine .bind fun r hr ↦ .of_some ?_
    exact flows_phase (readerIn_eq_some hr).1 rfl rfl rfl rfl
  | cleanup c' =>
    refine .bind fun r hr ↦ .of_some ?_
    exact flows_phase (readerIn_eq_some hr).1 rfl (List.append_nil _).symm rfl rfl
  | destroy c' => exact .of_some (Flows.of_frames [] (List.append_nil _).symm rfl rfl rfl)
  | request req c' | resize c' cols rows => exact .of_some (flows_command s c c' _)
  | reply i =>
    rw [step]
    split
    · exact .of_none
    · exact .of_some (Flows.of_frames _ rfl (outputBytes_replyFrame s _ c _ _) rfl rfl)
  | batchRecv =>
    refine .bind fun batch hbatch ↦ .of_some ?_
    exact Flows.of_frames [] (List.append_nil _).symm rfl rfl (BatchLoop.inFlight_recv hbatch c)
  | batchTick ids =>
    refine .bind fun batch hbatch ↦ .of_some ?_
    exact Flows.of_frames [] (List.append_nil _).symm rfl rfl (BatchLoop.inFlight_tick hbatch c)
  | write =>
    refine .bind fun ⟨out, batch⟩ hbatch ↦ .of_some ?_
    refine ⟨[.output out.channelId out.seq out.data], rfl, (List.append_nil _).symm, ?_⟩
    have htake := BatchLoop.inFlight_take hbatch c
    have hout : outputBytes c [.output out.channelId out.seq out.data]
        = if out.channelId = c then out.data else [] := List.append_nil _
    rw [hout]
    exact htake.symm.trans (List.append_nil _).symm

/-- **Whole runs.** -/
theorem run_flows {events : List AgentEvent} (h : Runs.run step s events = some s') (c : String) :
    Flows c s (events.flatMap (AgentEvent.output c)) s' := by
  induction events generalizing s with
  | nil =>
    obtain rfl := Option.some.inj h
    exact Flows.refl c s
  | cons e events ih =>
    rw [Runs.run_cons, Option.bind_eq_some_iff] at h
    obtain ⟨t, ht, h⟩ := h
    rw [List.flatMap_cons]
    exact (step_flows ht).trans (ih h)

/-! ## Replies -/

/-- A reply is made from the mirror as it is. -/
theorem mem_replies_of_step :
    Ensures (fun s' ↦ ∀ x ∈ s'.replies, x ∈ s.replies ∨ x.2.2.bytes = s.applied x.2.1)
      (s.step e) := by
  cases e with
  | serve c =>
    intro s' h x hx
    obtain ⟨r, cmd, cmds, hr, -, -, rfl⟩ := step_serve h
    cases cmd with
    | resize cols rows => exact .inl hx
    | snapshot req =>
      rcases List.mem_append.mp hx with hx | hx
      · exact .inl hx
      · obtain rfl := List.mem_singleton.mp hx
        refine .inr ?_
        rw [applied, hr]
        rfl
  | reply i =>
    rw [step]
    split
    · exact .of_none
    · exact .of_some fun x hx ↦ .inl (List.mem_of_mem_eraseIdx hx)
  | spawn c =>
    rw [step]
    split
    · exact .of_none
    · exact .of_some fun x ↦ .inl
  | read c raw =>
    intro s' h
    obtain ⟨r, -, -, -, rfl⟩ := step_read h
    rw [read]
    split <;> exact fun x ↦ .inl
  | request req c | resize c cols rows =>
    refine .of_some ?_
    rw [command]
    split
    · exact fun x ↦ .inl
    · split <;> exact fun x ↦ .inl
  | destroy c => exact .of_some fun x ↦ .inl
  | eof c | cleanup c | exit c | batchRecv | batchTick ids | write =>
    exact .bind fun _ _ ↦ .of_some fun x ↦ .inl

/-- No reply reflects more than has been applied. -/
def RepliesApplied (s : AgentState) : Prop :=
  ∀ x ∈ s.replies, x.2.2.bytes.length ≤ (s.applied x.2.1).length

theorem repliesApplied_step (hinv : s.RepliesApplied) (h : s.step e = some s') :
    s'.RepliesApplied := by
  intro x hx
  obtain ⟨-, -, happ, -⟩ := step_flows (c := x.2.1) h
  rw [happ, List.length_append]
  rcases mem_replies_of_step h x hx with hx | hx
  · exact Nat.le_trans (hinv x hx) (Nat.le_add_right _ _)
  · rw [hx]
    exact Nat.le_add_right _ _

theorem repliesApplied_run {events : List AgentEvent} (h : Runs.run step new events = some s) :
    s.RepliesApplied :=
  Runs.run_invariant RepliesApplied (fun _ _ _ hinv hstep ↦ repliesApplied_step hinv hstep)
    (by simp [RepliesApplied, new]) h

/-- **When output continues the snapshot.** A handler sends its snapshot of channel `c`, after any
run; any run follows. The OUTPUT frames behind the reply, with what is still on the way, are what
was applied to the mirror after the snapshot was taken, exactly when this held of what was on the
way at the moment of the reply. -/
theorem output_after_reply_iff {events events' : List AgentEvent} {s₀ s₁ s₂ : AgentState} {i : ℕ}
    {req : SnapshotRequest} {c : String} {info : SnapshotInfo}
    (hrun : Runs.run step new events = some s₀) (hi : s₀.replies[i]? = some (req, c, info))
    (hreply : s₀.step (.reply i) = some s₁) (hrun' : Runs.run step s₁ events' = some s₂) :
    outputBytes c (s₂.frames.drop s₁.frames.length) ++ s₂.batch.inFlight c
        = (s₂.applied c).drop info.bytes.length ↔
      s₀.batch.inFlight c = (s₀.applied c).drop info.bytes.length := by
  have hle : info.bytes.length ≤ (s₀.applied c).length :=
    repliesApplied_run hrun _ (List.mem_of_getElem? hi)
  rw [step, hi] at hreply
  cases hreply
  obtain ⟨frames, hframes, happ, hflow⟩ := run_flows hrun' c
  rw [hframes, List.drop_left, hflow, happ]
  have happ₀ : (sendFrame { s₀ with replies := s₀.replies.eraseIdx i }
      (s₀.replyFrame req c info)).applied c = s₀.applied c := rfl
  rw [happ₀, List.drop_append_of_le_length hle]
  exact List.append_left_inj _

/-- A prompt whose frame is out before the snapshot is asked for. -/
theorem output_after_reply_iff_of_drained : ∃ s₀ s₁ s₂ : AgentState,
    Runs.run step new [.spawn "c", .read "c" [36], .batchRecv, .batchTick ["c"], .write,
      .request .attach "c", .serve "c"] = some s₀ ∧
    s₀.replies[0]? = some (.attach, "c", ⟨[.process [36]]⟩) ∧ s₀.step (.reply 0) = some s₁ ∧
    Runs.run step s₁ [.read "c" [32]] = some s₂ ∧
    (outputBytes "c" (s₂.frames.drop s₁.frames.length) ++ s₂.batch.inFlight "c"
        = (s₂.applied "c").drop (SnapshotInfo.bytes ⟨[.process [36]]⟩).length ↔
      s₀.batch.inFlight "c" =
        (s₀.applied "c").drop (SnapshotInfo.bytes ⟨[.process [36]]⟩).length) := by
  refine ⟨_, _, _, rfl, rfl, rfl, rfl, ?_⟩
  exact @output_after_reply_iff [.spawn "c", .read "c" [36], .batchRecv, .batchTick ["c"], .write,
    .request .attach "c", .serve "c"] [.read "c" [32]] _ _ _ 0 .attach "c" ⟨[.process [36]]⟩
    rfl rfl rfl rfl

/-- A prompt is printed and the snapshot is asked for before the batch loop has passed it on: it
comes in the snapshot and again behind it. -/
theorem reply_overtakes_output :
    ¬ ∀ (events events' : List AgentEvent) (s₀ s₁ s₂ : AgentState) (i : ℕ) (req : SnapshotRequest)
      (c : String) (info : SnapshotInfo), Runs.run step new events = some s₀ →
      s₀.replies[i]? = some (req, c, info) → s₀.step (.reply i) = some s₁ →
      Runs.run step s₁ events' = some s₂ →
      outputBytes c (s₂.frames.drop s₁.frames.length) ++ s₂.batch.inFlight c
        = (s₂.applied c).drop info.bytes.length := by
  intro h
  have hprompt := h [.spawn "c", .read "c" [36], .request .snapshotReq "c", .serve "c"]
    [.batchRecv, .batchTick ["c"], .write] _ _ _ 0 .snapshotReq "c" ⟨[.process [36]]⟩
    rfl rfl rfl rfl
  revert hprompt
  decide

/-! ## Frames and registrations -/

/-- The frames a step sends. -/
def emits (s : AgentState) : AgentEvent → List AgentToHub
  | .spawn c => [.spawnOk c]
  | .eof c => [.log c]
  | .exit c => [.channelExit c]
  | .request .attach c =>
    if s.cmdSenders c = true ∧ (s.readers c).isSome then [] else [.channelNotFound c]
  | .reply i => (s.replies[i]?.map fun x ↦ s.replyFrame x.1 x.2.1 x.2.2).toList
  | .write => (s.batch.tx.head?.map fun out ↦ .output out.channelId out.seq out.data).toList
  | .read _ _ | .serve _ | .cleanup _ | .destroy _ | .request .snapshotReq _ | .resize _ _ _
  | .batchRecv | .batchTick _ => []

theorem frames_command_snapshot (s : AgentState) (c : String) :
    (s.command c (.snapshot .attach)).frames = s.frames ++ s.emits (.request .attach c) := by
  rw [command, emits]
  cases hsender : s.cmdSenders c <;> cases hr : s.readers c <;> simp [sendFrame, setReader]

theorem frames_command_of_ne {cmd : ChannelCommand} (h : cmd ≠ .snapshot .attach) :
    (s.command c cmd).frames = s.frames := by
  rw [command]
  split
  · rfl
  · rw [if_neg h]

theorem frames_step :
    Ensures (fun s' ↦ s'.frames = s.frames ++ s.emits e) (s.step e) := by
  cases e with
  | spawn c =>
    rw [step]
    split
    · exact .of_none
    · exact .of_some rfl
  | read c raw =>
    intro s' h
    obtain ⟨r, -, -, -, rfl⟩ := step_read h
    rw [read]
    split <;> exact (List.append_nil _).symm
  | serve c =>
    intro s' h
    obtain ⟨r, cmd, cmds, -, -, -, rfl⟩ := step_serve h
    cases cmd <;> exact (List.append_nil _).symm
  | eof c | exit c => exact .bind fun _ _ ↦ .of_some rfl
  | cleanup c | batchRecv | batchTick ids =>
    exact .bind fun _ _ ↦ .of_some (List.append_nil _).symm
  | destroy c => exact .of_some (List.append_nil _).symm
  | request req c =>
    refine .of_some ?_
    cases req with
    | attach => exact frames_command_snapshot s c
    | snapshotReq =>
      rw [frames_command_of_ne (by decide)]
      exact (List.append_nil _).symm
  | resize c cols rows =>
    refine .of_some ?_
    rw [frames_command_of_ne (by simp)]
    exact (List.append_nil _).symm
  | reply i =>
    rw [step]
    split
    · exact .of_none
    · rename_i req c info hi
      refine .of_some ?_
      rw [emits, hi]
      rfl
  | write =>
    refine .bind fun ⟨out, batch⟩ hbatch ↦ .of_some ?_
    rw [BatchLoop.take] at hbatch
    split at hbatch
    · cases hbatch
    · rename_i out' tx htx
      obtain ⟨rfl, rfl⟩ := Prod.mk.inj (Option.some.inj hbatch)
      rw [emits, htx]
      rfl

/-- A registration is made with `seq` 0, and a step makes it, removes it or leaves it. -/
theorem channels_step (c : String) :
    Ensures
      (fun s' ↦ s'.channels c = s.channels c ∨ s'.channels c = some ⟨0⟩ ∨ s'.channels c = none)
      (s.step e) := by
  cases e with
  | spawn c' =>
    rw [step]
    split
    · exact .of_none
    · refine .of_some ?_
      by_cases hc : c' = c
      · subst hc
        exact .inr (.inl (Function.update_self _ _ _))
      · exact .inl (Function.update_of_ne (Ne.symm hc) _ _)
  | exit c' =>
    refine .bind fun _ _ ↦ .of_some ?_
    by_cases hc : c' = c
    · subst hc
      exact .inr (.inr (Function.update_self _ _ _))
    · exact .inl (Function.update_of_ne (Ne.symm hc) _ _)
  | destroy c' =>
    refine .of_some ?_
    by_cases hc : c' = c
    · subst hc
      exact .inr (.inr (Function.update_self _ _ _))
    · exact .inl (Function.update_of_ne (Ne.symm hc) _ _)
  | read c' raw =>
    intro s' h
    obtain ⟨r, -, -, -, rfl⟩ := step_read h
    rw [read]
    split <;> exact .inl rfl
  | serve c' =>
    intro s' h
    obtain ⟨r, cmd, cmds, -, -, -, rfl⟩ := step_serve h
    cases cmd <;> exact .inl rfl
  | eof c' | cleanup c' | batchRecv | batchTick ids | write =>
    exact .bind fun _ _ ↦ .of_some (.inl rfl)
  | request req c' | resize c' cols rows =>
    refine .of_some ?_
    rw [command]
    split
    · exact .inl rfl
    · split <;> exact .inl rfl
  | reply i =>
    rw [step]
    split
    · exact .of_none
    · exact .of_some (.inl rfl)

/-- **The `seq` of a registration is never counted**: all the numbers that go out with snapshots
are 0. -/
structure SeqZero (s : AgentState) : Prop where
  channels : ∀ c ch, s.channels c = some ch → ch.seq = 0
  attachOk : ∀ c info n, .attachOk c info n ∈ s.frames → n = 0

theorem SeqZero.replyFrame (h : s.SeqZero) {req : SnapshotRequest} {c c' : String}
    {info info' : SnapshotInfo} {n : ℕ} (heq : .attachOk c info n = s.replyFrame req c' info') :
    n = 0 := by
  have hzero : ((s.channels c').map PtyChannelState.seq).getD 0 = 0 := by
    cases hch : s.channels c' with
    | none => rfl
    | some ch => exact h.channels c' ch hch
  cases req with
  | snapshotReq => cases heq
  | attach => exact (AgentToHub.attachOk.inj heq).2.2.trans hzero

theorem seqZero_step (h : s.SeqZero) (hstep : s.step e = some s') :
    s'.SeqZero := by
  refine ⟨fun c ch hch ↦ ?_, fun c info n hmem ↦ ?_⟩
  · rcases channels_step c hstep with heq | heq | heq
    · exact h.channels c ch (heq ▸ hch)
    · rw [heq, Option.some.injEq] at hch
      rw [← hch]
    · rw [heq] at hch
      cases hch
  · rw [frames_step hstep] at hmem
    rcases List.mem_append.mp hmem with hmem | hmem
    · exact h.attachOk c info n hmem
    · cases e with
      | reply i =>
        rw [emits, Option.mem_toList, Option.map_eq_some_iff] at hmem
        obtain ⟨x, -, hx⟩ := hmem
        exact h.replyFrame hx.symm
      | write =>
        rw [emits, Option.mem_toList, Option.map_eq_some_iff] at hmem
        obtain ⟨out, -, hout⟩ := hmem
        cases hout
      | request req c' =>
        cases req with
        | snapshotReq => cases hmem
        | attach =>
          rw [emits] at hmem
          split at hmem
          · cases hmem
          · simp at hmem
      | spawn _ | eof _ | exit _ => simp [emits] at hmem
      | read _ _ | serve _ | cleanup _ | destroy _ | resize _ _ _ | batchRecv | batchTick _ =>
        cases hmem

theorem seqZero_new : new.SeqZero := ⟨by simp [new], by simp [new]⟩

end AgentState

end Lasterm.Agent
