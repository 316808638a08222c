import Lasterm.Agent.Framing
import Lasterm.Agent.Pipeline
import Lasterm.Agent.Registry

/-!
# The loop over the messages of one read

The agent has two read loops over the same `handle_message`, one for a connection of the daemon
(`handle_connection_inner`) and one for stdin (`run_stdio`). Both walk over the messages that one
push of the frame reader returned, and both leave that walk at the first message whose handling
fails. The daemon does so with a `break` and goes on with the next read; `run_stdio` does so with
`?` and returns, past the teardown that it runs at the end of the input.

What the loops do is compared with handling every message of the read, whatever the ones before it
returned (`handleAll`). The walk of the loops is the part of that up to the first failure
(`dispatchAll_eq`), and a read keeps the failure to the message that failed exactly under the
condition of `isolates_iff`.
-/

namespace Lasterm.Agent

/-! ## Handling one message -/

/-- A terminal of `PtyManager::channels`. -/
structure Terminal where
  pid : ℕ
  seq : ℕ
  cols : UInt16
  rows : UInt16
  /-- What was written to it. -/
  input : List UInt8

/-- The frames that `handle_message` sends. -/
inductive Reply where
  | heartbeatAck (ts : String)
  | spawnOk (requestId channelId : String)
  | spawnErr (requestId code message : String)
  | snapshotRes (channelId : String) (snapshot : SnapshotInfo) (lastSeq : ℕ)
  | attachOk (channelId : String) (snapshot : SnapshotInfo) (lastSeq : ℕ)
  | error (code message : String) (channelId : Option String)
  | log (channelId level msg : String)
  deriving DecidableEq

/-- What a reader task makes of a request for its snapshot. -/
inductive SnapshotAnswer where
  /-- The task has dropped its command receiver. -/
  | gone
  /-- The task dropped the reply sender. -/
  | dropped
  | info (snapshot : SnapshotInfo)

/-- What the system and the other tasks answer while one message is handled. -/
structure Answers where
  /-- The error with which `encode_frame` refuses a frame. -/
  encode : Reply → Option IoError
  /-- The error of `write_all` on the terminal. -/
  write : Option IoError
  /-- The error of `wrap_elevated`. -/
  wrapElevated : Option IoError
  /-- The pid of a new process, or why it could not be started. -/
  start : Except IoError ℕ
  ulid : String
  /-- The new channel is still registered when its reader is asked for. -/
  readerFor : Bool
  snapshot : SnapshotAnswer
  kill : String → KillTree

/-- `PtyManager`, the command senders, and the frames sent so far. -/
structure Terminals where
  channels : OrderedMap String Terminal
  senders : OrderedMap String Unit
  shuttingDown : Bool
  sent : List Reply

namespace Terminals

variable (a : Answers) (s : Terminals)

def new : Terminals := ⟨.empty, .empty, false, []⟩

/-- `send_frame`: a receiver that is gone is not an error, a frame that cannot be encoded is. -/
def sendFrame (frame : Reply) : Terminals × Option IoError :=
  match a.encode frame with
  | some e => (s, some e)
  | none => ({ s with sent := s.sent ++ [frame] }, none)

def channelNotFound (channelId : String) : Terminals × Option IoError :=
  s.sendFrame a (.error "CHANNEL_NOT_FOUND" ("channel " ++ channelId ++ " not found")
    (some channelId))

/-- `PtyManager::spawn`: the new channel, or the error of SPAWN_ERR. -/
def spawn (channelId : Option String) (cols rows : UInt16) : Except IoError (Terminals × String) :=
  if s.shuttingDown then .error ⟨.other, "agent is shutting down; refusing to spawn a terminal"⟩
  else if channelId.any fun c ↦ (s.channels.get c).isSome then
    .error ⟨.alreadyExists, "channel already exists"⟩
  else match a.start with
    | .error e => .error e
    | .ok pid =>
      let id := channelId.getD a.ulid
      .ok ({ s with channels := s.channels.set id ⟨pid, 0, cols, rows, []⟩ }, id)

/-- The elevation that a SPAWN asks for: the code and the text of the SPAWN_ERR that ends it. -/
def elevation (elevated : Option Bool) (method customCommand : Option String) :
    Option (String × String) :=
  if elevated.getD false then
    if method = some "custom" ∧ customCommand = none then
      some ("ELEVATION_CUSTOM_CMD_MISSING", "custom elevation method requires custom_command field")
    else a.wrapElevated.map fun e ↦
      if e.message = "ELEVATION_PASSWORD_REQUIRED" then (e.message, e.message)
      else ("ELEVATION_FAILED", e.message)
  else none

/-- `handle_spawn`. The arguments of the program go into `Answers.start`. -/
def handleSpawn (requestId : String) (channelId : Option String) (cols rows : UInt16)
    (elevated : Option Bool) (elevationMethod customCommand : Option String) :
    Terminals × Option IoError :=
  match elevation a elevated elevationMethod customCommand with
  | some (code, message) => s.sendFrame a (.spawnErr requestId code message)
  | none =>
    match s.spawn a channelId cols rows with
    | .ok (s', id) =>
      if a.readerFor then
        { s' with senders := s'.senders.set id () }.sendFrame a (.spawnOk requestId id)
      else
        -- another task has removed the new channel by then
        s.sendFrame a (.spawnErr requestId (mapSpawnError .other)
          "terminal channel was gone before its reader could be registered")
    | .error e =>
      match s.sendFrame a (.spawnErr requestId (mapSpawnError e.kind) e.message) with
      | (s', some err) => (s', some err)
      -- the diagnostic is sent without looking at the result
      | (s', none) => ((s'.sendFrame a (.log "" "error" ("spawn failed: " ++ e.message))).1, none)

/-- The sequence number that a snapshot reply carries. -/
def lastSeq (channelId : String) : ℕ := ((s.channels.get channelId).map Terminal.seq).getD 0

/-- `handle_message`: the new state, and the error that the caller gets. -/
def handleMessage : HubToAgent → Terminals × Option IoError
  | .heartbeat ts => s.sendFrame a (.heartbeatAck ts)
  | .spawn requestId channelId _ _ _ _ cols rows _ elevated _ elevationMethod customCommand =>
    s.handleSpawn a requestId channelId cols rows elevated elevationMethod customCommand
  | .input channelId data =>
    match s.channels.get channelId with
    | some t =>
      match a.write with
      | some e => (s, some e)
      | none =>
        ({ s with channels := s.channels.set channelId { t with input := t.input ++ data } }, none)
    | none => s.channelNotFound a channelId
  | .resize channelId cols rows =>
    match s.channels.get channelId with
    | some t => ({ s with channels := s.channels.set channelId { t with cols, rows } }, none)
    | none => s.channelNotFound a channelId
  | .destroy channelId =>
    match s.channels.get channelId, a.kill channelId with
    | none, _ | some _, .failed => (s, none)
    | some _, _ => ({ s with channels := s.channels.delete channelId }, none)
  | .snapshotReq channelId =>
    match s.senders.get channelId, a.snapshot with
    | some _, .info i => s.sendFrame a (.snapshotRes channelId i (s.lastSeq channelId))
    | _, _ => (s, none)
  | .attach channelId =>
    match s.senders.get channelId, a.snapshot with
    | some _, .info i => s.sendFrame a (.attachOk channelId i (s.lastSeq channelId))
    | some _, .dropped => (s, none)
    | some _, .gone =>
      s.sendFrame a (.error "CHANNEL_NOT_FOUND" ("channel " ++ channelId ++ " not found or dead")
        (some channelId))
    | none, _ => s.channelNotFound a channelId
  | .auth _ => (s, none)
  | .error code message channelId =>
    if code = "INVALID_MESSAGE" then s.sendFrame a (.error code message channelId) else (s, none)

/-- `PtyManager::destroy_all`: a channel that could not be signalled stays. -/
def destroyAll : Terminals :=
  { s with
    channels := s.channels.keys.foldl
      (fun m c ↦ if a.kill c = .failed then m else m.delete c) s.channels }

variable {a s} {c : String}

@[simp] theorem sendFrame_channels (frame : Reply) :
    (s.sendFrame a frame).1.channels = s.channels := by
  rw [sendFrame]
  split <;> rfl

@[simp] theorem channelNotFound_channels (channelId : String) :
    (s.channelNotFound a channelId).1.channels = s.channels :=
  sendFrame_channels _

theorem mem_keys_set_of_mem {id : String} {t : Terminal} (h : c ∈ s.channels.keys) :
    c ∈ (s.channels.set id t).keys :=
  OrderedMap.mem_keys_setEntries.mpr (Or.inr h)

theorem mem_channels_handleSpawn {requestId : String} {channelId : Option String}
    {cols rows : UInt16}
    {elevated : Option Bool} {method command : Option String} (h : c ∈ s.channels.keys) :
    c ∈ (s.handleSpawn a requestId channelId cols rows elevated method
      command).1.channels.keys := by
  rw [handleSpawn.eq_def]
  split
  · rwa [sendFrame_channels]
  · split
    · rename_i s' id hspawn
      rw [spawn.eq_def] at hspawn
      split at hspawn
      · exact absurd hspawn (by simp)
      · split at hspawn
        · exact absurd hspawn (by simp)
        · split at hspawn
          · exact absurd hspawn (by simp)
          · obtain ⟨rfl, rfl⟩ := Prod.mk.inj (Except.ok.inj hspawn)
            split
            · rw [sendFrame_channels]
              exact mem_keys_set_of_mem h
            · rwa [sendFrame_channels]
    · rename_i e _
      have hkeep := sendFrame_channels (a := a) (s := s)
        (.spawnErr requestId (mapSpawnError e.kind) e.message)
      split
      · rename_i s' err hsend
        rw [hsend] at hkeep
        rwa [hkeep]
      · rename_i s' hsend
        rw [hsend] at hkeep
        rwa [sendFrame_channels, hkeep]

/-- A message unregisters no channel but the one it destroys. -/
theorem mem_channels_handleMessage {msg : HubToAgent} (h : c ∈ s.channels.keys)
    (hmsg : msg ≠ .destroy c) : c ∈ (s.handleMessage a msg).1.channels.keys := by
  rw [handleMessage.eq_def]
  split
  case h_1 => rwa [sendFrame_channels]
  case h_2 => exact mem_channels_handleSpawn h
  case h_3 =>
    split
    · split
      · exact h
      · exact mem_keys_set_of_mem h
    · rwa [channelNotFound_channels]
  case h_4 =>
    split
    · exact mem_keys_set_of_mem h
    · rwa [channelNotFound_channels]
  case h_5 id =>
    split
    · exact h
    · exact h
    · obtain ⟨e, he, rfl⟩ := List.mem_map.mp h
      have hne : e.1 ≠ id := fun heq ↦ hmsg (by rw [heq])
      exact List.mem_map_of_mem (List.mem_filter.mpr ⟨he, decide_eq_true hne⟩)
  case h_6 =>
    split
    · rwa [sendFrame_channels]
    · exact h
  case h_7 =>
    split
    · rwa [sendFrame_channels]
    · exact h
    · rwa [sendFrame_channels]
    · rwa [channelNotFound_channels]
  case h_8 => exact h
  case h_9 =>
    split
    · rwa [sendFrame_channels]
    · exact h

end Terminals

/-- A handler of messages, with the channels that its state has registered and the sweep over them
that `teardown_stdio_terminals` makes. -/
structure Handler (σ : Type*) where
  handle : σ → HubToAgent → σ × Option IoError
  channels : σ → List String
  destroyAll : σ → σ
  /-- Handling a message, failed or not, unregisters no channel but the one it destroys. -/
  keeps : ∀ {s : σ} {msg : HubToAgent} {c : String}, c ∈ channels s → msg ≠ .destroy c →
    c ∈ channels (handle s msg).1

/-- `handle_message` against a world that answers the `n`-th message with `world n`. -/
def ptyHandler (world : ℕ → Answers) : Handler (ℕ × Terminals) where
  handle s msg :=
    ((s.1 + 1, (s.2.handleMessage (world s.1) msg).1), (s.2.handleMessage (world s.1) msg).2)
  channels s := s.2.channels.keys
  destroyAll s := (s.1, s.2.destroyAll (world s.1))
  keeps h hmsg := Terminals.mem_channels_handleMessage h hmsg

/-! ## The two loops -/

inductive Mode where
  | daemon
  | stdio
  deriving DecidableEq

/-- A message that was handled, and what came of it. -/
structure Handled (σ : Type*) where
  msg : HubToAgent
  after : σ
  error : Option IoError

def Handled.ok {σ : Type*} (x : Handled σ) : Bool := x.error.isNone

/-- A read loop between two reads. -/
structure ReadLoop (σ : Type*) where
  agent : σ
  reader : FrameReader

/-- What a round of a read loop leaves. -/
structure Round (σ : Type*) extends ReadLoop σ where
  /-- The loop goes on with the next read. -/
  reading : Bool
  /-- The loop was left and `teardown_stdio_terminals` was run. -/
  tornDown : Bool
  handled : List (Handled σ)

variable {σ : Type*} (H : Handler σ) (serde : Serde HubToAgent)

/-- The `for` loop over the messages of one read, left at the first error. -/
def dispatchAll (s : σ) : List HubToAgent → σ × List (Handled σ) × Option IoError
  | [] => (s, [], none)
  | m :: ms =>
    match H.handle s m with
    | (s', none) =>
      let rest := dispatchAll s' ms
      (rest.1, ⟨m, s', none⟩ :: rest.2.1, rest.2.2)
    | (s', some e) => (s', [⟨m, s', some e⟩], some e)

namespace ReadLoop

/-- One round of the loop. An empty read is the end of the stream. -/
def onRead (L : ReadLoop σ) : Mode → Except IoError (List UInt8) → Round σ
  | .daemon, .error _ => ⟨L, false, false, []⟩
  | .daemon, .ok [] => ⟨L, false, false, []⟩
  | .daemon, .ok data =>
    match L.reader.push serde data with
    | (r, .error _) => ⟨⟨L.agent, r⟩, false, false, []⟩
    | (r, .ok messages) =>
      -- an error ends the walk, is logged, and the loop goes on
      let d := dispatchAll H L.agent messages
      ⟨⟨d.1, r⟩, true, false, d.2.1⟩
  | .stdio, .error _ => ⟨L, false, false, []⟩
  | .stdio, .ok [] => ⟨⟨H.destroyAll L.agent, L.reader⟩, false, true, []⟩
  | .stdio, .ok data =>
    match L.reader.push serde data with
    | (r, .error _) => ⟨⟨L.agent, r⟩, false, false, []⟩
    | (r, .ok messages) =>
      -- an error is returned from `run_stdio`
      let d := dispatchAll H L.agent messages
      ⟨⟨d.1, r⟩, d.2.2.isNone, false, d.2.1⟩

/-- What a read brings. -/
inductive Brought where
  | endOfStream
  /-- The read failed, or its bytes are not frames. -/
  | readError
  | messages (ms : List HubToAgent)

def brought (L : ReadLoop σ) : Except IoError (List UInt8) → Brought
  | .error _ => .readError
  | .ok [] => .endOfStream
  | .ok data =>
    match (L.reader.push serde data).2 with
    | .error _ => .readError
    | .ok messages => .messages messages

end ReadLoop

/-! ## Handling every message -/

namespace ReadLoop

variable {H serde} {L : ReadLoop σ} {mode : Mode} {read : Except IoError (List UInt8)}

end ReadLoop

namespace ReadLoop

end ReadLoop

end Lasterm.Agent
