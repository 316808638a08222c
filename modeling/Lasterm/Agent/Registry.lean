import Mathlib.Data.Int.Notation
import Mathlib.Data.Nat.Notation
import Lasterm.Library.Runs

/-!
# Generations of a channel

A restart destroys a channel and spawns a terminal under the same id. The registry of the agent
(`PtyManager::channels`) and the map of command senders are keyed by that id, and so is the cleanup
that a reader task runs when it leaves its loop. Here every successful SPAWN makes a *generation* of
its channel, with its own process and its own reader task, and the maps say whose entry they hold.

An `Event` is a piece of one task between two points at which another task can run: the manager is
locked for the whole of `PtyManager::spawn`, for the wait of `wait_for_reader_exit`, and from the
removal of the channel to the CHANNEL_EXIT frame; the sender map is never locked across an await.
Handlers of two connections may overlap, so a SPAWN is as many events as it has such pieces.

`KeepsNewer` says of one step that the reader task of an older generation does no harm to a newer
one. It does harm as soon as a SPAWN registers a generation while an older one has cleanup left, and
only then (`keepsNewer_iff`).
-/

namespace Lasterm.Agent

open Runs (Ensures)

/-! ## State -/

/-- What `PtyProcess::wait` returns. -/
structure ExitStatus where
  code : Option ℤ
  signal : Option ℕ
  deriving DecidableEq

inductive ErrorKind where
  | notFound
  | permissionDenied
  | alreadyExists
  | other
  deriving DecidableEq

structure IoError where
  kind : ErrorKind
  message : String
  deriving DecidableEq

/-- `map_spawn_error`. -/
def mapSpawnError : ErrorKind → String
  | .notFound => "SHELL_NOT_FOUND"
  | .permissionDenied => "PERMISSION_DENIED"
  | .alreadyExists => "CHANNEL_EXISTS"
  | .other => "PTY_SPAWN_FAILED"

/-- The outcome of `kill_tree`. -/
inductive KillTree where
  | ok
  /-- The process was seen to exit before. -/
  | invalidInput
  | failed
  deriving DecidableEq

/-- Where a generation is: in the SPAWN handler up to `senderInserted`, then in its reader task. -/
inductive Stage where
  | registered
  | readerTaken
  | senderInserted
  /-- SPAWN_OK is sent and the reader is in its loop. -/
  | reading
  | closing
  | senderRemoved
  /-- The reader holds the manager and waits for the process of generation `g`. -/
  | waitingFor (g : ℕ)
  | waited (status : Option ExitStatus)
  | done
  /-- The handler ended without a reader task. -/
  | failed
  deriving DecidableEq

/-- No task of the generation is left. -/
def Stage.finished : Stage → Bool
  | .done | .failed => true
  | _ => false

/-- The reader holds the manager across an await. -/
def Stage.holds : Stage → Bool
  | .waitingFor _ => true
  | _ => false

/-- SPAWN_OK was sent. -/
def Stage.announced : Stage → Bool
  | .registered | .readerTaken | .senderInserted | .failed => false
  | _ => true

structure Generation where
  channelId : String
  requestId : String
  stage : Stage
  alive : Bool

/-- The frames about the life of a channel. -/
inductive LifeFrame where
  | spawnOk (requestId channelId : String)
  | spawnErr (requestId code message : String)
  | log (channelId level msg : String)
  | channelExit (channelId : String) (exitCode : ℤ) (signal : Option String)

/-- The agent's tasks and what they share. A generation is known by its place in `generations`. -/
structure Registry where
  generations : List Generation
  channels : String → Option ℕ
  cmdSenders : String → Option ℕ
  /-- The generation whose reader holds the manager across an await. -/
  lock : Option ℕ
  shuttingDown : Bool
  frames : List LifeFrame

/-- A piece of one task. -/
inductive Event where
  /-- `PtyManager::spawn`, with what starting the program returns. -/
  | spawn (requestId : String) (channelId : Option String) (ulid : String) (error : Option IoError)
  | readerFor (g : ℕ)
  | insertSender (g : ℕ)
  /-- The handler queues SPAWN_OK, if its connection is still there, and starts the reader. -/
  | announce (g : ℕ) (sent : Bool)
  /-- The process of a generation ends. -/
  | exited (g : ℕ)
  /-- The reader leaves its loop: at the end of the terminal, or because its sender was dropped. -/
  | leave (g : ℕ) (eof : Bool)
  | removeSender (g : ℕ)
  | beginWait (g : ℕ)
  | endWait (g : ℕ) (status : Option ExitStatus)
  | finish (g : ℕ)
  | destroy (channelId : String) (kill : KillTree)
  /-- `begin_shutdown` and `destroy_all`. -/
  | shutdown (kill : String → KillTree)

namespace Registry

def new : Registry := ⟨[], fun _ ↦ none, fun _ ↦ none, none, false, []⟩

variable (s : Registry)

def sendFrame (frame : LifeFrame) : Registry :=
  { s with frames := s.frames ++ [frame] }

def setStage (g : ℕ) (stage : Stage) : Registry :=
  { s with generations := s.generations.modify g fun x ↦ { x with stage := stage } }

/-- `PtyManager::remove`. -/
def remove (c : String) : Registry :=
  { s with channels := Function.update s.channels c none }

/-! ## Steps -/

/-- `PtyManager::spawn`. -/
def spawn (requestId : String) (channelId : Option String) (ulid : String)
    (error : Option IoError) : Except IoError Registry :=
  if s.shuttingDown then .error ⟨.other, "agent is shutting down; refusing to spawn a terminal"⟩
  else if channelId.any fun c ↦ (s.channels c).isSome then
    .error ⟨.alreadyExists, "channel already exists"⟩
  else match error with
    | some e => .error e
    | none =>
      let id := channelId.getD ulid
      .ok { s with
        generations := s.generations ++ [⟨id, requestId, .registered, true⟩]
        channels := Function.update s.channels id (some s.generations.length) }

/-- `start_teardown` and the removal that follows: a failed signal leaves the channel registered. -/
def teardown (c : String) : KillTree → Registry
  | .ok | .invalidInput => s.remove c
  | .failed => s

/-- The exit code and signal of CHANNEL_EXIT. -/
def exitFrame (c : String) (status : Option ExitStatus) : LifeFrame :=
  match status with
  | some st => .channelExit c (st.code.getD (-1)) (st.signal.map toString)
  | none => .channelExit c (-1) none

/-- The process that a map holds has ended. -/
def isExited (g : ℕ) : Bool := (s.generations[g]?).any fun x ↦ !x.alive

/-- Generation `g`, if it is at a given stage. -/
def atStage (g : ℕ) (stage : Stage) : Option Generation :=
  (s.generations[g]?).filter fun x ↦ x.stage = stage

def step : Event → Option Registry
  | .spawn requestId channelId ulid error =>
    if s.lock.isSome then none
    else match s.spawn requestId channelId ulid error with
      | .ok s' => some s'
      | .error e =>
        some ((s.sendFrame (.spawnErr requestId (mapSpawnError e.kind) e.message)).sendFrame
          (.log "" "error" ("spawn failed: " ++ e.message)))
  | .readerFor g => do
    let x ← s.atStage g .registered
    if s.lock.isSome then none
    else match s.channels x.channelId with
      | some _ => some (s.setStage g .readerTaken)
      | none =>
        some ((s.setStage g .failed).sendFrame (.spawnErr x.requestId (mapSpawnError .other)
          "terminal channel was gone before its reader could be registered"))
  | .insertSender g => do
    let x ← s.atStage g .readerTaken
    some { s.setStage g .senderInserted with
      cmdSenders := Function.update s.cmdSenders x.channelId (some g) }
  | .announce g sent => do
    let x ← s.atStage g .senderInserted
    if sent then some ((s.setStage g .reading).sendFrame (.spawnOk x.requestId x.channelId))
    else some (s.setStage g .failed)
  | .exited g => do
    let x ← s.generations[g]?
    if x.alive then
      some { s with generations := s.generations.modify g fun x ↦ { x with alive := false } }
    else none
  | .leave g eof => do
    let x ← s.atStage g .reading
    if eof then some ((s.setStage g .closing).sendFrame (.log x.channelId "debug" "PTY closed"))
    -- The map holds the only lasting sender, so the receiver ends when its entry is replaced.
    else if s.cmdSenders x.channelId = some g then none
    else some (s.setStage g .closing)
  | .removeSender g => do
    let x ← s.atStage g .closing
    some { s.setStage g .senderRemoved with
      cmdSenders := Function.update s.cmdSenders x.channelId none }
  | .beginWait g => do
    let x ← s.atStage g .senderRemoved
    if s.lock.isSome then none
    else match s.channels x.channelId with
      | some g' => some { s.setStage g (.waitingFor g') with lock := some g }
      | none => some (s.setStage g (.waited none))
  | .endWait g status =>
    match s.generations[g]? with
    | some ⟨_, _, .waitingFor g', _⟩ =>
      -- A wait that fails gives no status, and then says nothing about the process.
      if status.isSome ∧ !s.isExited g' then none
      else some { s.setStage g (.waited status) with lock := none }
    | _ => none
  | .finish g =>
    match s.generations[g]? with
    | some ⟨c, _, .waited status, _⟩ =>
      if s.lock.isSome then none
      else some (((s.setStage g .done).remove c).sendFrame (exitFrame c status))
    | _ => none
  | .destroy c kill =>
    if s.lock.isSome then none
    else if (s.channels c).isSome then some (s.teardown c kill) else some s
  | .shutdown kill =>
    if s.lock.isSome then none
    else some { s with
      shuttingDown := true
      channels := fun c ↦ if kill c = .failed then s.channels c else none }

end Registry

/-- The generation whose reader task an event belongs to. -/
def Event.reader : Event → Option ℕ
  | .leave g _ | .removeSender g | .beginWait g | .endWait g _ | .finish g => some g
  | _ => none

def Event.isSpawn : Event → Bool
  | .spawn _ _ _ _ => true
  | _ => false

/-! ## The property and the condition -/

namespace Registry

/-- **A restart does not kill the new process.** A step of the reader task of generation `g` leaves
the entries of every newer generation of its channel in both maps, and sends no CHANNEL_EXIT
while a newer process is announced and alive. -/
def KeepsNewer (s : Registry) (e : Event) (s' : Registry) : Prop :=
  ∀ (g : ℕ) (x : Generation) (g' : ℕ) (x' : Generation), e.reader = some g →
    s.generations[g]? = some x → s.generations[g']? = some x' → g < g' →
    x'.channelId = x.channelId →
    (s.channels x.channelId = some g' → s'.channels x.channelId = some g') ∧
    (s.cmdSenders x.channelId = some g' → s'.cmdSenders x.channelId = some g') ∧
    (x'.stage.announced → x'.alive → ∀ status, s'.frames ≠ s.frames ++
      [exitFrame x.channelId status])

/-- The channel that a SPAWN registers a generation of. -/
def registers (s : Registry) : Event → Option String
  | .spawn requestId channelId ulid error =>
    match s.spawn requestId channelId ulid error with
    | .ok _ => some (channelId.getD ulid)
    | .error _ => none
  | _ => none

/-- A SPAWN that registers a generation does so when no older generation of its channel has a task
left. -/
def SpawnsFinished (s : Registry) (e : Event) (_ : Registry) : Prop :=
  ∀ c, s.registers e = some c → ∀ x ∈ s.generations, x.channelId = c → x.stage.finished

/-! ## What a step does to the generations -/

variable {s s' : Registry} {e : Event} {g : ℕ} {x : Generation} {stage : Stage}

theorem atStage_eq_some :
    s.atStage g stage = some x ↔ s.generations[g]? = some x ∧ x.stage = stage := by
  simp [atStage, Option.filter_eq_some_iff]

/-- The task of generation `g` goes from the stage in `x` to `stage`. -/
structure Moves (s s' : Registry) (g : ℕ) (x : Generation) (stage : Stage) : Prop where
  get : s.generations[g]? = some x
  unfinished : ¬ x.stage.finished
  generations : s'.generations = s.generations.modify g fun x ↦ { x with stage := stage }
  lock : if stage.holds then s.lock = none ∧ s'.lock = some g
    else if x.stage.holds then s'.lock = none else s'.lock = s.lock

/-- A generation at a given stage moves on, and the manager is not held across the move. -/
theorem Moves.of_atStage {from_ next : Stage} (hx : s.atStage g from_ = some x)
    (hf : from_.finished = false)
    (h : from_.holds = false) (h' : next.holds = false)
    (hgen : s'.generations = s.generations.modify g fun x ↦ { x with stage := next })
    (hlock : s'.lock = s.lock) : Moves s s' g x next := by
  obtain ⟨hget, hstage⟩ := atStage_eq_some.mp hx
  subst hstage
  refine ⟨hget, by simp [hf], hgen, ?_⟩
  simp [h, h', hlock]

theorem spawn_eq_ok {requestId ulid : String} {channelId : Option String} {error : Option IoError}
    (h : s.spawn requestId channelId ulid error = .ok s') :
    s' = { s with
      generations := s.generations ++ [⟨channelId.getD ulid, requestId, .registered, true⟩]
      channels := Function.update s.channels (channelId.getD ulid)
        (some s.generations.length) } := by
  rw [spawn.eq_def] at h
  split at h
  · exact absurd h (by simp)
  · split at h
    · exact absurd h (by simp)
    · split at h
      · exact absurd h (by simp)
      · exact (Except.ok.inj h).symm

/-- **What a step does**: it registers a generation, it moves the task of one on, a process ends, or
it leaves the tasks as they are. -/
theorem step_cases : Ensures (fun s' ↦
    (∃ c requestId, s.registers e = some c ∧ e.reader = none ∧ s.lock = none ∧
      s' = { s with
        generations := s.generations ++ [⟨c, requestId, .registered, true⟩]
        channels := Function.update s.channels c (some s.generations.length) }) ∨
    (s.registers e = none ∧
      ((∃ g x stage, Moves s s' g x stage ∧ ∀ g', e.reader = some g' → g' = g) ∨
      (e.reader = none ∧ s'.lock = s.lock ∧ ∃ g,
        s'.generations = s.generations.modify g fun x ↦ { x with alive := false }) ∨
      (e.reader = none ∧ s'.lock = s.lock ∧ s'.generations = s.generations)))) (s.step e) := by
  cases e with
  | spawn requestId channelId ulid error =>
    rw [step]
    refine .guardNot fun hlock ↦ ?_
    rw [registers]
    cases hspawn : s.spawn requestId channelId ulid error with
    | ok t =>
      refine .of_some (.inl ⟨channelId.getD ulid, requestId, rfl, rfl, ?_, spawn_eq_ok hspawn⟩)
      simpa using hlock
    | error err => exact .of_some (.inr ⟨rfl, .inr (.inr ⟨rfl, rfl, rfl⟩)⟩)
  | exited g =>
    refine .bind fun x _ ↦ .of_ite fun _ ↦ ?_
    exact .inr ⟨rfl, .inr (.inl ⟨rfl, rfl, g, rfl⟩)⟩
  | destroy c kill =>
    rw [step]
    refine .guardNot fun _ ↦ ?_
    split
    · refine .of_some (.inr ⟨rfl, .inr (.inr ?_)⟩)
      cases kill with
      | ok => exact ⟨rfl, rfl, rfl⟩
      | invalidInput => exact ⟨rfl, rfl, rfl⟩
      | failed => exact ⟨rfl, rfl, rfl⟩
    · exact .of_some (.inr ⟨rfl, .inr (.inr ⟨rfl, rfl, rfl⟩)⟩)
  | shutdown kill =>
    rw [step]
    exact .guardNot fun _ ↦ .of_some (.inr ⟨rfl, .inr (.inr ⟨rfl, rfl, rfl⟩)⟩)
  | readerFor g =>
    refine .bind fun x hx ↦ ?_
    refine .guardNot fun _ ↦ ?_
    split
    · refine .of_some (.inr ⟨rfl, .inl ⟨g, x, .readerTaken, ?_, by simp [Event.reader]⟩⟩)
      exact .of_atStage hx rfl rfl rfl rfl rfl
    · refine .of_some (.inr ⟨rfl, .inl ⟨g, x, .failed, ?_, by simp [Event.reader]⟩⟩)
      exact .of_atStage hx rfl rfl rfl rfl rfl
  | insertSender g =>
    refine .bind fun x hx ↦ .of_some ?_
    refine .inr ⟨rfl, .inl ⟨g, x, .senderInserted, ?_, by simp [Event.reader]⟩⟩
    exact .of_atStage hx rfl rfl rfl rfl rfl
  | announce g sent =>
    refine .bind fun x hx ↦ ?_
    split
    · refine .of_some (.inr ⟨rfl, .inl ⟨g, x, .reading, ?_, by simp [Event.reader]⟩⟩)
      exact .of_atStage hx rfl rfl rfl rfl rfl
    · refine .of_some (.inr ⟨rfl, .inl ⟨g, x, .failed, ?_, by simp [Event.reader]⟩⟩)
      exact .of_atStage hx rfl rfl rfl rfl rfl
  | leave g eof =>
    refine .bind fun x hx ↦ ?_
    split
    · refine .of_some (.inr ⟨rfl, .inl ⟨g, x, .closing, ?_, by simp [Event.reader]⟩⟩)
      exact .of_atStage hx rfl rfl rfl rfl rfl
    · refine .guardNot fun _ ↦ ?_
      refine .of_some (.inr ⟨rfl, .inl ⟨g, x, .closing, ?_, by simp [Event.reader]⟩⟩)
      exact .of_atStage hx rfl rfl rfl rfl rfl
  | removeSender g =>
    refine .bind fun x hx ↦ .of_some ?_
    refine .inr ⟨rfl, .inl ⟨g, x, .senderRemoved, ?_, by simp [Event.reader]⟩⟩
    exact .of_atStage hx rfl rfl rfl rfl rfl
  | beginWait g =>
    refine .bind fun x hx ↦ ?_
    refine .guardNot fun hlock ↦ ?_
    split
    · rename_i g' _
      obtain ⟨hget, hstage⟩ := atStage_eq_some.mp hx
      refine .of_some (.inr ⟨rfl, .inl ⟨g, x, .waitingFor g', ?_, by simp [Event.reader]⟩⟩)
      refine ⟨hget, by simp [hstage, Stage.finished], rfl, ?_⟩
      rw [if_pos (show (Stage.waitingFor g').holds = true from rfl)]
      exact ⟨by simpa using hlock, rfl⟩
    · refine .of_some (.inr ⟨rfl, .inl ⟨g, x, .waited none, ?_, by simp [Event.reader]⟩⟩)
      exact .of_atStage hx rfl rfl rfl rfl rfl
  | endWait g status =>
    rw [step]
    split
    · rename_i hget
      refine .guardNot fun _ ↦ ?_
      refine .of_some (.inr ⟨rfl, .inl ⟨g, _, .waited status, ⟨hget, ?_, rfl, ?_⟩, ?_⟩⟩)
      · simp [Stage.finished]
      · simp [Stage.holds]
      · simp [Event.reader]
    · exact .of_none
  | finish g =>
    rw [step]
    split
    · rename_i hget
      refine .guardNot fun _ ↦ ?_
      refine .of_some (.inr ⟨rfl, .inl ⟨g, _, .done, ⟨hget, ?_, rfl, ?_⟩, ?_⟩⟩)
      · simp [Stage.finished]
      · simp [Stage.holds, sendFrame, remove, setStage]
      · simp [Event.reader]
    · exact .of_none

/-! ## Finished before the next -/

/-- Only the newest generation of a channel has a task. -/
def OlderFinished (s : Registry) : Prop :=
  ∀ (g : ℕ) (x : Generation) (g' : ℕ) (x' : Generation), s.generations[g]? = some x →
    s.generations[g']? = some x' → g < g' → x'.channelId = x.channelId → x.stage.finished

theorem olderFinished_new : OlderFinished new := by
  intro g x g' x' hx
  simp [new] at hx

section

variable (h : OlderFinished s)
include h

/-- The channels stay and what is finished stays so. -/
theorem OlderFinished.of_map {f : Generation → Generation}
    (hgen : s'.generations = s.generations.modify g f) (hid : ∀ x, (f x).channelId = x.channelId)
    (hfin : ∀ x, s.generations[g]? = some x → x.stage.finished → (f x).stage.finished) :
    OlderFinished s' := by
  -- Seen from either end of the pair, a generation of `s'` is one of `s` on the same channel.
  have hback : ∀ (k : ℕ) (y : Generation), s'.generations[k]? = some y →
      ∃ x : Generation, s.generations[k]? = some x ∧
      y.channelId = x.channelId ∧ (x.stage.finished → y.stage.finished) := by
    intro k y hy
    rw [hgen, List.getElem?_modify, Option.map_eq_map, Option.map_eq_some_iff] at hy
    obtain ⟨x, hx, rfl⟩ := hy
    refine ⟨x, hx, ?_⟩
    by_cases hk : g = k
    · subst hk
      rw [if_pos rfl]
      exact ⟨hid x, hfin x hx⟩
    · rw [if_neg hk]
      exact ⟨rfl, id⟩
  intro k y k' y' hy hy' hlt hch
  obtain ⟨x, hx, hxc, hxf⟩ := hback k y hy
  obtain ⟨x', hx', hxc', -⟩ := hback k' y' hy'
  apply hxf
  apply h k x k' x' hx hx' hlt
  rw [← hxc', hch, hxc]

theorem OlderFinished.of_append {new : Generation} (hgen : s'.generations = s.generations ++ [new])
    (hfin : ∀ x ∈ s.generations, x.channelId = new.channelId → x.stage.finished) :
    OlderFinished s' := by
  intro k y k' y' hy hy' hlt hch
  rw [hgen] at hy hy'
  have hk' : k' < (s.generations ++ [new]).length := (List.getElem?_eq_some_iff.mp hy').1
  rw [List.length_append, List.length_singleton] at hk'
  have hk : k < s.generations.length := by omega
  rw [List.getElem?_append_left hk] at hy
  by_cases hold : k' < s.generations.length
  · rw [List.getElem?_append_left hold] at hy'
    exact h k y k' y' hy hy' hlt hch
  · have hlast : k' = s.generations.length := by omega
    subst hlast
    rw [List.getElem?_concat_length, Option.some.injEq] at hy'
    subst hy'
    exact hfin y (List.mem_of_getElem? hy) hch.symm

theorem OlderFinished.step (hspawn : SpawnsFinished s e s')
    (hstep : s.step e = some s') : OlderFinished s' := by
  rcases step_cases hstep with
    ⟨c, requestId, hreg, -, -, rfl⟩ |
      ⟨-, ⟨g, x, stage, hm, -⟩ | ⟨-, -, g, hgen⟩ | ⟨-, -, hgen⟩⟩
  · exact h.of_append rfl (hspawn c hreg)
  · refine h.of_map hm.generations (fun _ ↦ rfl) fun y hy hfin ↦ ?_
    rw [hm.get, Option.some.injEq] at hy
    subst hy
    exact absurd hfin hm.unfinished
  · exact h.of_map hgen (fun _ ↦ rfl) fun _ _ hfin ↦ hfin
  · intro k y k' y' hy hy'
    rw [hgen] at hy hy'
    exact h k y k' y' hy hy'

/-- A reader task that runs belongs to the newest generation of its channel. -/
theorem OlderFinished.keepsNewer (hstep : s.step e = some s') :
    KeepsNewer s e s' := by
  intro g x g' x' hreader hx hx' hlt hch
  rcases step_cases hstep with
    ⟨c, requestId, -, hnone, -, -⟩ |
      ⟨-, ⟨k, y, stage, hm, hk⟩ | ⟨hnone, -, -⟩ | ⟨hnone, -, -⟩⟩
  · exact absurd (hnone.symm.trans hreader) (by simp)
  · have hgk : g = k := hk g hreader
    subst hgk
    have hxy : x = y := Option.some.inj (hx.symm.trans hm.get)
    exact absurd (h g x g' x' hx hx' hlt hch) (hxy ▸ hm.unfinished)
  · exact absurd (hnone.symm.trans hreader) (by simp)
  · exact absurd (hnone.symm.trans hreader) (by simp)

end

/-! ## The lock of the manager -/

/-- A reader that waits inside the manager holds it. -/
def Held (s : Registry) : Prop :=
  ∀ (g : ℕ) (x : Generation), s.generations[g]? = some x → x.stage.holds → s.lock = some g

theorem held_new : Held new := by
  intro g x hx
  simp [new] at hx

theorem Held.moves (h : Held s) (hm : Moves s s' g x stage) : Held s' := by
  intro k y hy hholds
  have hlock := hm.lock
  rw [hm.generations, List.getElem?_modify, Option.map_eq_map, Option.map_eq_some_iff] at hy
  obtain ⟨z, hz, rfl⟩ := hy
  by_cases hk : g = k
  · subst hk
    rw [if_pos rfl] at hholds
    rw [if_pos hholds] at hlock
    exact hlock.2
  · rw [if_neg hk] at hholds
    -- Another reader holds the manager, so this one neither takes it nor gives it back.
    have hz' : s.lock = some k := h k z hz hholds
    by_cases hst : stage.holds
    · rw [if_pos hst] at hlock
      exact absurd (hlock.1.symm.trans hz') (by simp)
    · rw [if_neg hst] at hlock
      by_cases hx : x.stage.holds
      · have hxk := (h g x hm.get hx).symm.trans hz'
        exact absurd (Option.some.inj hxk) hk
      · rw [if_neg hx] at hlock
        rw [hlock, hz']

theorem Held.step (h : Held s) (hstep : s.step e = some s') : Held s' := by
  rcases step_cases hstep with
    ⟨c, requestId, -, -, -, rfl⟩ |
      ⟨-, ⟨g, x, stage, hm, -⟩ | ⟨-, hlock, g, hgen⟩ | ⟨-, hlock, hgen⟩⟩
  · intro k y hy hholds
    by_cases hk : k < s.generations.length
    · rw [List.getElem?_append_left hk] at hy
      exact h k y hy hholds
    · rw [List.getElem?_append_right (by omega), List.getElem?_singleton] at hy
      split at hy
      · rw [Option.some.injEq] at hy
        subst hy
        exact absurd hholds (by simp [Stage.holds])
      · exact absurd hy (by simp)
  · exact h.moves hm
  · intro k y hy hholds
    rw [hgen, List.getElem?_modify, Option.map_eq_map, Option.map_eq_some_iff] at hy
    obtain ⟨z, hz, rfl⟩ := hy
    rw [hlock]
    apply h k z hz
    by_cases hk : g = k
    · rwa [if_pos hk] at hholds
    · rwa [if_neg hk] at hholds
  · intro k y hy hholds
    rw [hgen] at hy
    rw [hlock]
    exact h k y hy hholds

/-! ## A generation with an older task beside it -/

/-- Without a further SPAWN, the tasks can go on so that an older one harms a newer generation. -/
def Breakable (s : Registry) : Prop :=
  ∃ es : List Event, (∀ e ∈ es, e.isSpawn = false) ∧ ¬ Runs.Along step KeepsNewer s es

theorem Breakable.cons (hstep : s.step e = some s') (he : e.isSpawn = false) (h : Breakable s') :
    Breakable s := by
  obtain ⟨es, hes, hnot⟩ := h
  refine ⟨e :: es, ?_, fun hall ↦ hnot (hall s' hstep).2⟩
  intro e' he'
  rcases List.mem_cons.mp he' with rfl | he'
  · exact he
  · exact hes e' he'

/-- Generation `g` of channel `c` is at a stage, and a newer one holds the registration. -/
structure Stale (s : Registry) (c : String) (g : ℕ) (stage : Stage) : Prop where
  older : ∃ x, s.atStage g stage = some x ∧ x.channelId = c
  newer : ∃ g' x', s.generations[g']? = some x' ∧ x'.channelId = c ∧ g < g' ∧ s.channels c = some g'
  lock : s.lock = if stage.holds then some g else none

variable {c : String}

theorem Stale.move {from_ next : Stage} (h : Stale s c g from_)
    (hgen : s'.generations = s.generations.modify g fun x ↦ { x with stage := next })
    (hchan : s'.channels = s.channels) (hlock : s'.lock = if next.holds then some g else none) :
    Stale s' c g next := by
  constructor
  · obtain ⟨x, hx, rfl⟩ := h.older
    refine ⟨{ x with stage := next }, atStage_eq_some.mpr ⟨?_, rfl⟩, rfl⟩
    simp [hgen, (atStage_eq_some.mp hx).1]
  · obtain ⟨g', x', hx', hc, hlt, hreg⟩ := h.newer
    refine ⟨g', x', ?_, hc, hlt, hchan ▸ hreg⟩
    rw [hgen, List.getElem?_modify, hx', Option.map_eq_map, Option.map_some,
      if_neg (Nat.ne_of_lt hlt)]
  · exact hlock

/-- The last step of the older task takes the newer registration away. -/
theorem Stale.breakable_waited {status : Option ExitStatus} (h : Stale s c g (.waited status)) :
    Breakable s := by
  obtain ⟨x, hx, rfl⟩ := h.older
  obtain ⟨hget, hstage⟩ := atStage_eq_some.mp hx
  obtain ⟨g', x', hx', hc, hlt, hreg⟩ := h.newer
  obtain ⟨c, requestId, stage, alive⟩ := x
  dsimp only at hstage
  subst hstage
  refine ⟨[.finish g], by simp [Event.isSpawn], fun hall ↦ ?_⟩
  have hstep : s.step (.finish g) =
      some (((s.setStage g .done).remove c).sendFrame (exitFrame c status)) := by
    simp [step, hget, h.lock, Stage.holds]
  have hkeeps := ((hall _ hstep).1 g _ g' x' rfl hget hx' hlt hc).1 hreg
  simp [sendFrame, remove] at hkeeps

theorem Stale.breakable_waitingFor {h' : ℕ} (h : Stale s c g (.waitingFor h')) : Breakable s := by
  obtain ⟨x, hx, rfl⟩ := h.older
  obtain ⟨hget, hstage⟩ := atStage_eq_some.mp hx
  obtain ⟨c, requestId, stage, alive⟩ := x
  dsimp only at hstage
  subst hstage
  have hstep : s.step (.endWait g none) =
      some { s.setStage g (.waited none) with lock := none } := by
    simp [step, hget]
  exact .cons hstep rfl (Stale.breakable_waited (h.move rfl rfl rfl))

theorem Stale.breakable_senderRemoved (h : Stale s c g .senderRemoved) : Breakable s := by
  obtain ⟨x, hx, rfl⟩ := h.older
  obtain ⟨g', x', -, -, -, hreg⟩ := h.newer
  have hstep : s.step (.beginWait g) =
      some { s.setStage g (.waitingFor g') with lock := some g } := by
    simp [step, hx, hreg, h.lock, Stage.holds]
  exact .cons hstep rfl (Stale.breakable_waitingFor (h.move rfl rfl rfl))

theorem Stale.breakable_closing (h : Stale s c g .closing) : Breakable s := by
  obtain ⟨x, hx, rfl⟩ := h.older
  have hstep : s.step (.removeSender g) = some { s.setStage g .senderRemoved with
      cmdSenders := Function.update s.cmdSenders x.channelId none } := by
    simp [step, hx]
  exact .cons hstep rfl (Stale.breakable_senderRemoved (h.move rfl rfl h.lock))

theorem Stale.breakable_reading (h : Stale s c g .reading) : Breakable s := by
  obtain ⟨x, hx, rfl⟩ := h.older
  have hstep : s.step (.leave g true) =
      some ((s.setStage g .closing).sendFrame (.log x.channelId "debug" "PTY closed")) := by
    simp [step, hx]
  exact .cons hstep rfl (Stale.breakable_closing (h.move rfl rfl h.lock))

theorem Stale.breakable_senderInserted (h : Stale s c g .senderInserted) : Breakable s := by
  obtain ⟨x, hx, rfl⟩ := h.older
  have hstep : s.step (.announce g true) =
      some ((s.setStage g .reading).sendFrame (.spawnOk x.requestId x.channelId)) := by
    simp [step, hx]
  exact .cons hstep rfl (Stale.breakable_reading (h.move rfl rfl h.lock))

theorem Stale.breakable_readerTaken (h : Stale s c g .readerTaken) : Breakable s := by
  obtain ⟨x, hx, rfl⟩ := h.older
  have hstep : s.step (.insertSender g) = some { s.setStage g .senderInserted with
      cmdSenders := Function.update s.cmdSenders x.channelId (some g) } := by
    simp [step, hx]
  exact .cons hstep rfl (Stale.breakable_senderInserted (h.move rfl rfl h.lock))

/-- A handler that looks its terminal up by id finds the newer one and goes on. -/
theorem Stale.breakable_registered (h : Stale s c g .registered) : Breakable s := by
  obtain ⟨x, hx, rfl⟩ := h.older
  obtain ⟨g', x', -, -, -, hreg⟩ := h.newer
  have hstep : s.step (.readerFor g) = some (s.setStage g .readerTaken) := by
    simp [step, hx, hreg, h.lock, Stage.holds]
  exact .cons hstep rfl (Stale.breakable_readerTaken (h.move rfl rfl h.lock))

/-- **An older task is enough**: from every stage but the last it can go on to harm the newer
generation. -/
theorem Stale.breakable (h : Stale s c g stage) (hf : stage.finished = false) : Breakable s := by
  cases stage with
  | registered => exact h.breakable_registered
  | readerTaken => exact h.breakable_readerTaken
  | senderInserted => exact h.breakable_senderInserted
  | reading => exact h.breakable_reading
  | closing => exact h.breakable_closing
  | senderRemoved => exact h.breakable_senderRemoved
  | waitingFor g' => exact h.breakable_waitingFor
  | waited status => exact h.breakable_waited
  | done => exact absurd hf (by simp [Stage.finished])
  | failed => exact absurd hf (by simp [Stage.finished])

/-- A SPAWN beside an older task leaves it stale. -/
theorem breakable_of_not_spawnsFinished (hheld : Held s) (hstep : s.step e = some s')
    (h : ¬ SpawnsFinished s e s') : Breakable s' := by
  rw [SpawnsFinished] at h
  simp only [not_forall] at h
  obtain ⟨c, hreg, x, hx, rfl, hfin⟩ := h
  obtain ⟨g, hg⟩ := List.getElem?_of_mem hx
  have hlt : g < s.generations.length := (List.getElem?_eq_some_iff.mp hg).1
  rcases step_cases hstep with ⟨c, requestId, hreg', -, hlock, rfl⟩ | ⟨hnone, -⟩
  · rw [hreg, Option.some.injEq] at hreg'
    subst hreg'
    -- The manager was free, so the older reader is not inside it.
    have hholds : x.stage.holds = false := by
      rcases hh : x.stage.holds with _ | _
      · rfl
      · exact absurd (hlock.symm.trans (hheld g x hg hh)) (by simp)
    refine Stale.breakable (c := x.channelId) (g := g) ⟨?_, ?_, ?_⟩ (by simpa using hfin)
    · refine ⟨x, atStage_eq_some.mpr ⟨?_, rfl⟩, rfl⟩
      rw [List.getElem?_append_left hlt, hg]
    · refine ⟨s.generations.length, ⟨x.channelId, requestId, .registered, true⟩, ?_, rfl, hlt, ?_⟩
      · exact List.getElem?_concat_length
      · exact Function.update_self ..
    · rw [hholds]
      exact hlock
  · exact absurd (hnone.symm.trans hreg) (by simp)

/-- Events that are no SPAWN register nothing. -/
theorem along_spawnsFinished {es : List Event} (hes : ∀ e ∈ es, e.isSpawn = false) (s : Registry) :
    Runs.Along step SpawnsFinished s es := by
  induction es generalizing s with
  | nil => trivial
  | cons e es ih =>
    intro s' hstep
    refine ⟨?_, ih (fun e' he' ↦ hes e' (List.mem_cons_of_mem _ he')) s'⟩
    intro c hreg
    have he : e.isSpawn = false := hes e List.mem_cons_self
    cases e with
    | spawn requestId channelId ulid error => exact absurd he (by simp [Event.isSpawn])
    | _ => exact absurd hreg (by simp [registers])

/-! ## Restarts -/

/-- **When a restart is harmless.** In every run whose SPAWNs each find the older generations of
their channel finished, no reader task harms a newer generation (take the whole run and nothing
behind it). And that condition is exact: a run has it if and only if at no point of the run can the
tasks go on, without a further SPAWN, to do such harm. -/
theorem keepsNewer_iff (es : List Event) :
    Runs.Along step SpawnsFinished new es ↔
      ∀ es₁ es₂, es₁ <+: es → (∀ e ∈ es₂, e.isSpawn = false) →
        Runs.Along step KeepsNewer new (es₁ ++ es₂) := by
  constructor
  · rintro h es₁ es₂ ⟨rest, rfl⟩ hes₂
    have h₁ : Runs.Along step SpawnsFinished new es₁ := (Runs.along_append.mp h).1
    have h₂ : Runs.Along step SpawnsFinished new (es₁ ++ es₂) :=
      Runs.along_append.mpr ⟨h₁, fun t _ ↦ along_spawnsFinished hes₂ t⟩
    refine Runs.along_of_invariant OlderFinished ?_ olderFinished_new h₂
    intro s e s' hinv hspawn hstep
    exact ⟨hinv.step hspawn hstep, hinv.keepsNewer hstep⟩
  · intro h
    by_contra hnot
    obtain ⟨es₁, e, rest, t, t', rfl, hrun, hstep, hbad⟩ := Runs.exists_of_not_along hnot
    have hheld : Held t := Runs.run_invariant Held (fun _ _ _ hs ↦ hs.step) held_new hrun
    obtain ⟨es₂, hes₂, hbreak⟩ := breakable_of_not_spawnsFinished hheld hstep hbad
    have hall := h (es₁ ++ [e]) es₂ ⟨rest, by simp⟩ hes₂
    refine hbreak ((Runs.along_append.mp hall).2 t' ?_)
    rw [Runs.run_append, hrun, Option.bind_some, Runs.run_cons, hstep, Option.bind_some,
      Runs.run_nil]

/-- The reader of the destroyed generation has looked its process up and found nothing. Then the
SPAWN goes through. -/
def lateExit : List Event :=
  [.spawn "r0" (some "c") "" none, .readerFor 0, .insertSender 0, .announce 0 true,
    .destroy "c" .ok, .exited 0, .leave 0 true, .removeSender 0, .beginWait 0,
    .spawn "r1" (some "c") "" none, .readerFor 1, .insertSender 1, .announce 1 true]

/-- The SPAWN goes through while the reader of the destroyed generation is still in its loop, and
replaces its sender. -/
def droppedSender : List Event :=
  [.spawn "r0" (some "c") "" none, .readerFor 0, .insertSender 0, .announce 0 true,
    .destroy "c" .ok, .spawn "r1" (some "c") "" none, .readerFor 1, .insertSender 1,
    .announce 1 true, .leave 0 false]

/-- Two restarts in which the cleanup of the first generation hits the second. In one the second
is taken out of the registry and its exit reported while its process is alive; in the other it
loses its command sender. -/
theorem cleanup_harms_newer :
    (∃ s s', Runs.run step new lateExit = some s ∧ s.step (.finish 0) = some s' ∧
      s.generations[1]? = some ⟨"c", "r1", .reading, true⟩ ∧
      s.channels "c" = some 1 ∧ s'.channels "c" = none ∧
      s'.frames = s.frames ++ [.channelExit "c" (-1) none] ∧ ¬ KeepsNewer s (.finish 0) s') ∧
    ∃ s s', Runs.run step new droppedSender = some s ∧ s.step (.removeSender 0) = some s' ∧
      s.generations[1]? = some ⟨"c", "r1", .reading, true⟩ ∧
      s.cmdSenders "c" = some 1 ∧ s'.cmdSenders "c" = none ∧
      ¬ KeepsNewer s (.removeSender 0) s' := by
  constructor
  · refine ⟨_, _, rfl, rfl, rfl, rfl, rfl, rfl, fun h ↦ ?_⟩
    have hkeeps := (h 0 _ 1 _ rfl rfl rfl Nat.one_pos rfl).1 rfl
    exact absurd hkeeps (by decide)
  · refine ⟨_, _, rfl, rfl, rfl, rfl, rfl, fun h ↦ ?_⟩
    have hkeeps := (h 0 _ 1 _ rfl rfl rfl Nat.one_pos rfl).2.1 rfl
    exact absurd hkeeps (by decide)

end Registry

end Lasterm.Agent
