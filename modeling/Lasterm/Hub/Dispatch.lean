import Lasterm.Hub.SnapshotStore
import Lasterm.Library.Reorder

/-!
# Messages of one read

`AgentConnection.handleData` hands every message of a read to the dispatcher of `wireAgentEvents` in
one synchronous loop. A message that answers a pending request goes to the handler of the request.
The handler of a new channel acts at once. The handlers of a restart, of the respawn of a dead
channel and of an attach only settle a promise, and the code behind the `await` acts when the loop
is over: the code behind one promise after one turn of the microtask queue, that of a restart, which
awaits an async function that returned its promise, after two.

Which messages are answers, and which action each calls for, depends on the pending requests alone
(`dispatchAll`). So the messages of a read give a list of actions with delays, and the hub runs them
in the order of the delays (`read`). An action acts on each channel by itself (`run_cells`): on its
statuses and its tracking by its kind, and on its spool as on a lane.

The statuses, the tracking and the spool are compared. Session and host ids, exit codes and
what clients are told are left out. The clock stands still, so that rows carry the same time in
both runs.
-/

namespace Lasterm.Hub

/-! ## The hub -/

inductive ChannelStatus where
  | born
  | live
  | orphan
  | dead
  deriving DecidableEq

/-- The channels in memory, their rows in the database, the tracked channels of the scheduler, and
the chunker with the spool. -/
structure HubState where
  channels : ChannelId → Option ChannelStatus
  rows : ChannelId → Option ChannelStatus
  scheduler : ChannelId → Bool
  chunker : OutputChunker UInt8

/-- What a message calls for. -/
inductive Action (S : Type*) where
  /-- SPAWN_OK for a new channel. -/
  | created (c : ChannelId)
  /-- SPAWN_OK for a restart of `previous`. -/
  | restarted (c previous : ChannelId)
  /-- SPAWN_OK for the respawn of a dead channel. -/
  | respawned (c : ChannelId)
  /-- ATTACH_OK. -/
  | attached (c : ChannelId) (snapshot : S) (lastSeq : ℕ)
  /-- The agent does not know the channel of an attach. -/
  | retired (c : ChannelId)
  | output (c : ChannelId) (data : List UInt8)
  | snapshot (c : ChannelId) (snapshot : S) (lastSeq : ℕ)
  | exited (c : ChannelId)

namespace HubState

variable (h : HubState) (c : ChannelId)

/-- An INSERT of the row, which throws when there is one. -/
def createChannel (status : ChannelStatus) : Option HubState :=
  if (h.rows c).isSome then none else some { h with rows := Function.update h.rows c (some status) }

/-- An UPDATE of the row, which does nothing when there is none. -/
def updateRow (status : ChannelStatus) : HubState :=
  { h with rows := Function.update h.rows c ((h.rows c).map fun _ ↦ status) }

def setChannel (status : ChannelStatus) : HubState :=
  { h with channels := Function.update h.channels c (some status) }

/-- `StateBroadcaster.updateChannelStatus`. -/
def updateChannelStatus (status : ChannelStatus) : HubState :=
  { h with
    channels := Function.update h.channels c ((h.channels c).map fun _ ↦ status) }.updateRow c
    status

def trackChannel : HubState :=
  { h with
    scheduler := Function.update h.scheduler c true
    chunker := h.chunker.trackChannel c none }

def untrackChannel (now : ℕ) : Option HubState := do
  let chunker ← h.chunker.untrackChannel now c
  some { h with
    scheduler := Function.update h.scheduler c false
    chunker := chunker }

def retireChannel (now : ℕ) : Option HubState := do
  let h ← (h.updateChannelStatus c .dead).untrackChannel c now
  some { h with channels := Function.update h.channels c none }

variable {S : Type*} (json : SnapshotJson UInt8 S) (now : ℕ)

def storeSnapshot (snapshot : S) (lastSeq : ℕ) : Option HubState := do
  let chunker ← h.chunker.storeSnapshot json now c snapshot lastSeq
  some { h with chunker := chunker }

/-- The part of `applyRestartState` for an id that changed. -/
def replaceChannel (previous : ChannelId) : Option HubState := do
  let h ← h.retireChannel previous now
  if (h.rows c).isSome then some h else h.createChannel c .born

def applyRestartState (previous : ChannelId) : Option HubState :=
  (if c = previous then some h else h.replaceChannel c now previous).map fun h ↦
    ((h.updateRow c .live).setChannel c .live).trackChannel c

/-- One action; `none` when it throws. -/
def exec (h : HubState) : Action S → Option HubState
  | .created c => do
    let h ← h.createChannel c .born
    some (((h.setChannel c .live).updateRow c .live).trackChannel c)
  | .restarted c previous => h.applyRestartState c now previous
  | .respawned c => some (((h.updateRow c .live).setChannel c .live).trackChannel c)
  | .attached c snapshot lastSeq => h.storeSnapshot c json now snapshot lastSeq
  | .retired c => h.retireChannel c now
  | .output c data => do
    let chunker ← h.chunker.onOutput now c data
    some { h with chunker := chunker }
  | .snapshot c snapshot lastSeq => h.storeSnapshot c json now snapshot lastSeq
  | .exited c =>
    (if (h.channels c).isSome then h.updateChannelStatus c .dead else h).untrackChannel c now

end HubState

/-! ## Dispatch -/

/-- The handlers in `pendingRequests`. -/
inductive Pending where
  | spawn
  | restart (previous : ChannelId)
  | respawn (c : ChannelId)
  | attach (c : ChannelId)

abbrev PendingRequests := String → Option Pending

/-- The messages that act on channels. Titles, bells, notifications and logs do not. -/
inductive Body (S : Type*) where
  | spawnOk (channelId : ChannelId)
  | spawnErr (code message : String)
  | attachOk (channelId : ChannelId) (snapshot : S) (lastSeq : ℕ)
  | error (code message : String) (channelId : Option ChannelId)
  | output (channelId : ChannelId) (data : List UInt8)
  | snapshotRes (channelId : ChannelId) (snapshot : S) (lastSeq : ℕ)
  | channelExit (channelId : ChannelId)
  | other

structure AgentMessage (S : Type*) where
  requestId : Option String
  body : Body S

/-- `/channel .*not found/i`. -/
def saysNotFound (message : String) : Bool :=
  (message.toList.map Char.toLower).tails.any fun t ↦
    "channel ".toList.isPrefixOf t &&
      ((t.drop 8).takeWhile fun ch ↦ !(['\n', '\r', '\u2028', '\u2029'].contains ch)).tails.any
        fun u ↦ "not found".toList.isPrefixOf u

/-- `isAgentChannelNotFoundError`. -/
def isAgentChannelNotFoundError (code message : String) (channelId : Option ChannelId)
    (c : ChannelId) :
    Bool :=
  channelId.all (· == c) && (code == "CHANNEL_NOT_FOUND" || saysNotFound message)

variable {S : Type*}

/-- What a handler does with a message: whether the request is settled, and the action with its
delay. -/
def Pending.handle (body : Body S) : Pending → Bool × Option (ℕ × Action S)
  | .spawn =>
    match body with
    | .spawnOk c => (true, some (0, .created c))
    | .spawnErr _ _ => (true, none)
    | _ => (false, none)
  | .restart previous =>
    match body with
    | .spawnOk c => (true, some (2, .restarted c previous))
    | _ => (true, none)
  | .respawn c =>
    match body with
    | .spawnOk _ => (true, some (1, .respawned c))
    | .spawnErr _ _ => (true, none)
    | _ => (false, none)
  | .attach c =>
    match body with
    | .attachOk _ snapshot lastSeq => (true, some (1, .attached c snapshot lastSeq))
    | .error code message channelId =>
      (true, if isAgentChannelNotFoundError code message channelId c then some (1, .retired c)
        else none)
    | _ => (false, none)

/-- What a message that answers nothing calls for. -/
def Body.action : Body S → Option (ℕ × Action S)
  | .output c data => some (0, .output c data)
  | .snapshotRes c snapshot lastSeq => some (0, .snapshot c snapshot lastSeq)
  | .channelExit c => some (0, .exited c)
  | _ => none

/-- The channel under which an attach may wait for the message. -/
def Body.attachId : Body S → Option ChannelId
  | .attachOk c _ _ => some c
  | .error _ _ channelId => channelId
  | _ => none

/-- The key under which a handler waits for the message. An empty id is none. -/
def AgentMessage.key (p : PendingRequests) (m : AgentMessage S) : Option String :=
  match m.requestId.filter fun rid ↦ rid ≠ "" ∧ (p rid).isSome with
  | some rid => some rid
  | none =>
    (m.body.attachId.filter fun c ↦ c ≠ "" ∧ (p ("attach:" ++ c)).isSome).map ("attach:" ++ ·)

/-- The listener of `wireAgentEvents`. -/
def dispatch (p : PendingRequests) (m : AgentMessage S) : PendingRequests × Option (ℕ × Action S) :=
  match m.key p with
  | none => (p, m.body.action)
  | some key =>
    match p key with
    | none => (p, m.body.action)
    | some handler =>
      let (settled, action) := handler.handle m.body
      (if settled then Function.update p key none else p, action)

/-- The loop of `handleData`: the pending requests after it, and the actions with their delays. -/
def dispatchAll (p : PendingRequests) :
    List (AgentMessage S) → PendingRequests × List (ℕ × Action S)
  | [] => (p, [])
  | m :: ms =>
    let (p, action) := dispatch p m
    let (p, actions) := dispatchAll p ms
    (p, action.toList ++ actions)

section Reads

variable (json : SnapshotJson UInt8 S) (now : ℕ)

/-- One read, with all the code that its messages wake. -/
def read (s : PendingRequests × HubState) (ms : List (AgentMessage S)) :
    Option (PendingRequests × HubState) := do
  let (p, actions) := dispatchAll s.1 ms
  let h ← Runs.run (HubState.exec json now) s.2 ((Runs.byDelay actions).map Prod.snd)
  some (p, h)

end Reads

/-! ## One channel -/

/-- The statuses and the tracking of a channel. -/
structure View where
  status : Option ChannelStatus
  row : Option ChannelStatus
  scheduled : Bool
  deriving DecidableEq

/-- What one channel sees of the hub. -/
structure Cell where
  view : View
  lane : Lane UInt8

/-- What each channel sees. -/
def HubState.cells (h : HubState) (c : ChannelId) : Cell :=
  ⟨⟨h.channels c, h.rows c, h.scheduler c⟩, h.chunker.lanes c⟩

/-- The spool of every channel is in order, as it is in every run. -/
def HubState.Ordered (h : HubState) : Prop := ∀ c, (h.chunker.lanes c).Ordered

/-- What an action is to a channel. -/
inductive Kind where
  | idle
  | opened
  /-- Opened under a new id, with a row made for it where there is none. -/
  | replaced
  | created
  | exited
  | retired
  | output
  /-- An OUTPUT without data. -/
  | touched
  | stored
  deriving DecidableEq

def Kind.onView (v : View) : Kind → Option View
  | .idle | .output | .touched | .stored => some v
  | .opened => some ⟨some .live, v.row.map fun _ ↦ .live, true⟩
  | .replaced => some ⟨some .live, some .live, true⟩
  | .created => if v.row.isSome then none else some ⟨some .live, some .live, true⟩
  | .exited =>
    some ⟨v.status.map fun _ ↦ .dead, if v.status.isSome then v.row.map fun _ ↦ .dead
      else v.row, false⟩
  | .retired => some ⟨none, v.row.map fun _ ↦ .dead, false⟩

namespace Action

def kind (c : ChannelId) : Action S → Kind
  | .created c' => if c' = c then .created else .idle
  | .restarted c' previous =>
    if c' = c then if c' = previous then .opened else .replaced
    else if previous = c then .retired else .idle
  | .respawned c' => if c' = c then .opened else .idle
  | .attached c' _ _ | .snapshot c' _ _ => if c' = c then .stored else .idle
  | .retired c' => if c' = c then .retired else .idle
  | .output c' data => if c' = c then if data = [] then .touched else .output else .idle
  | .exited c' => if c' = c then .exited else .idle

/-- The snapshot that an action stores. -/
def stores (c : ChannelId) : Action S → Option (S × ℕ)
  | .attached c' data lastSeq | .snapshot c' data lastSeq =>
    if c' = c then some (data, lastSeq) else none
  | _ => none

variable (json : SnapshotJson UInt8 S) (now : ℕ)

def onLane (c : ChannelId) (l : Lane UInt8) : Action S → Lane UInt8
  | .created c' | .respawned c' => if c' = c then l.track else l
  | .restarted c' previous =>
    if c' = c then l.track else if previous = c then l.untrack now c else l
  | .attached c' data lastSeq | .snapshot c' data lastSeq =>
    if c' = c then l.snapshot now c (json.stringify data) lastSeq else l
  | .retired c' | .exited c' => if c' = c then l.untrack now c else l
  | .output c' data => if c' = c then l.output now c data else l

/-- One action, as channel `c` sees it. -/
def onCell (c : ChannelId) (x : Cell) (a : Action S) : Option Cell :=
  ((a.kind c).onView x.view).map fun v ↦ ⟨v, a.onLane json now c x.lane⟩

theorem ordered_onLane {c : ChannelId} {l : Lane UInt8} (h : l.Ordered) (a : Action S) :
    (a.onLane json now c l).Ordered := by
  have htrack := Lane.ordered_track h
  have huntrack := Lane.ordered_untrack h now c
  cases a with
  | created c' => rw [onLane]; split; exacts [htrack, h]
  | respawned c' => rw [onLane]; split; exacts [htrack, h]
  | restarted c' previous =>
    rw [onLane]
    split
    · exact htrack
    · split
      · exact huntrack
      · exact h
  | attached c' data n => rw [onLane]; split; exacts [Lane.ordered_snapshot h now c _ n, h]
  | snapshot c' data n => rw [onLane]; split; exacts [Lane.ordered_snapshot h now c _ n, h]
  | retired c' => rw [onLane]; split; exacts [huntrack, h]
  | exited c' => rw [onLane]; split; exacts [huntrack, h]
  | output c' data => rw [onLane]; split; exacts [Lane.ordered_output h now c data, h]

theorem onCell_ordered {c : ChannelId} {x x' : Cell} {a : Action S} (h : x.lane.Ordered)
    (hstep : a.onCell json now c x = some x') : x'.lane.Ordered := by
  rw [onCell, Option.map_eq_some_iff] at hstep
  obtain ⟨v, -, rfl⟩ := hstep
  exact ordered_onLane json now h a

end Action

/-! ## The hub acts on cells -/

section Cells

variable (json : SnapshotJson UInt8 S) (now : ℕ) {h : HubState} {c : ChannelId}

/-- The cells after an action that changes the view of one channel and its lane. -/
theorem HubState.cells_update {h h' : HubState} {x : Cell}
    (hchannels : h'.channels = Function.update h.channels c x.view.status)
    (hrows : h'.rows = Function.update h.rows c x.view.row)
    (hscheduler : h'.scheduler = Function.update h.scheduler c x.view.scheduled)
    (hlanes : h'.chunker.lanes = Function.update h.chunker.lanes c x.lane) :
    h'.cells = Function.update h.cells c x := by
  funext c'
  rw [cells, hchannels, hrows, hscheduler, hlanes]
  by_cases hc : c' = c
  · subst hc
    rw [Function.update_self, Function.update_self, Function.update_self, Function.update_self,
      Function.update_self]
  · rw [Function.update_of_ne hc, Function.update_of_ne hc, Function.update_of_ne hc,
      Function.update_of_ne hc, Function.update_of_ne hc]
    rfl

theorem HubState.cells_live (h : HubState) (c : ChannelId) :
    (((h.updateRow c .live).setChannel c .live).trackChannel c).cells =
      Function.update h.cells c
        ⟨⟨some .live, (h.rows c).map fun _ ↦ .live, true⟩, (h.chunker.lanes c).track⟩ :=
  cells_update rfl rfl rfl (OutputChunker.lanes_trackChannel h.chunker c)

theorem HubState.cells_storeSnapshot (hord : h.Ordered) (data : S)
    (n : ℕ) : ∃ h', h.storeSnapshot c json now data n = some h' ∧
      h'.cells = Function.update h.cells c
        ⟨(h.cells c).view, (h.chunker.lanes c).snapshot now c (json.stringify data) n⟩ := by
  obtain ⟨chunker, hstore, hlanes⟩ := OutputChunker.lanes_storeSnapshot json (hord c) now data n
  refine ⟨{ h with chunker := chunker }, ?_, cells_update ?_ ?_ ?_ hlanes⟩
  · rw [storeSnapshot, hstore]
    rfl
  · exact (Function.update_eq_self _ _).symm
  · exact (Function.update_eq_self _ _).symm
  · exact (Function.update_eq_self _ _).symm

theorem HubState.cells_retireChannel (hord : h.Ordered) :
    ∃ h', h.retireChannel c now = some h' ∧
      h'.cells = Function.update h.cells c
        ⟨⟨none, (h.rows c).map fun _ ↦ .dead, false⟩, (h.chunker.lanes c).untrack now c⟩ := by
  obtain ⟨chunker, huntrack, hlanes⟩ := OutputChunker.lanes_untrackChannel (hord c) now
  refine ⟨{ h with
    channels := Function.update h.channels c none
    rows := Function.update h.rows c ((h.rows c).map fun _ ↦ .dead)
    scheduler := Function.update h.scheduler c false
    chunker := chunker }, ?_, cells_update rfl rfl rfl hlanes⟩
  simp only [retireChannel, untrackChannel, updateChannelStatus, updateRow, huntrack,
    Option.bind_eq_bind, Option.bind_some, Function.update_idem]

/-- An action that does something to one channel only. -/
theorem Action.onCell_of_update {h h' : HubState} {a : Action S} {v : View}
    {l : Lane UInt8} (hcells : h'.cells = Function.update h.cells c ⟨v, l⟩)
    (hkind : ∀ c', c ≠ c' → a.kind c' = .idle)
    (hother : ∀ c', c ≠ c' → a.onLane json now c' (h.chunker.lanes c') = h.chunker.lanes c')
    (hview : (a.kind c).onView (h.cells c).view = some v)
    (hlane : a.onLane json now c (h.chunker.lanes c) = l) (c' : ChannelId) :
    a.onCell json now c' (h.cells c') = some (h'.cells c') := by
  rw [hcells]
  by_cases hc : c = c'
  · subst hc
    rw [Function.update_self, onCell, hview, Option.map_some]
    exact congrArg (fun l ↦ some (Cell.mk v l)) hlane
  · rw [Function.update_of_ne (Ne.symm hc), onCell, hkind c' hc]
    exact congrArg (fun l ↦ some (Cell.mk (h.cells c').view l)) (hother c' hc)

/-- An action throws or acts on every cell. -/
def Follows (h : HubState) (a : Action S) : Prop :=
  (h.exec json now a = none ∧ ∃ c, a.onCell json now c (h.cells c) = none) ∨
    ∃ h', h.exec json now a = some h' ∧ ∀ c, a.onCell json now c (h.cells c) = some (h'.cells c)

theorem follows_created (h : HubState) (c : ChannelId) : Follows json now h (.created c) := by
  have hkind : (Action.created c : Action S).kind c = .created := if_pos rfl
  by_cases hrow : (h.cells c).view.row.isSome
  · left
    have hcreate : h.createChannel c .born = none := if_pos hrow
    refine ⟨by rw [HubState.exec, hcreate]; rfl, c, ?_⟩
    rw [Action.onCell, hkind, Kind.onView, if_pos hrow]
    rfl
  · right
    have hcreate : h.createChannel c .born =
        some { h with rows := Function.update h.rows c (some .born) } := if_neg hrow
    refine ⟨_, by rw [HubState.exec, hcreate]; rfl, ?_⟩
    refine Action.onCell_of_update json now (c := c)
      (HubState.cells_update (x := ⟨⟨some .live, some .live, true⟩, (h.chunker.lanes c).track⟩)
        rfl ?_ rfl (OutputChunker.lanes_trackChannel h.chunker c))
      (fun c' hc ↦ if_neg hc) (fun c' hc ↦ if_neg hc) ?_ (if_pos rfl)
    · simp [HubState.trackChannel, HubState.updateRow, HubState.setChannel]
    · rw [hkind, Kind.onView, if_neg hrow]

theorem follows_respawned (h : HubState) (c : ChannelId) : Follows json now h (.respawned c) := by
  right
  have hkind : (Action.respawned c : Action S).kind c = .opened := if_pos rfl
  refine ⟨_, rfl, ?_⟩
  refine Action.onCell_of_update json now (h.cells_live c) (fun c' hc ↦ if_neg hc)
    (fun c' hc ↦ if_neg hc) ?_ (if_pos rfl)
  rw [hkind]
  rfl

theorem follows_stored (hord : h.Ordered) (c : ChannelId) (data : S) (n : ℕ) :
    Follows json now h (.attached c data n) ∧ Follows json now h (.snapshot c data n) := by
  obtain ⟨h', hstore, hcells⟩ := HubState.cells_storeSnapshot json now hord data n (c := c)
  constructor
  · refine .inr ⟨h', hstore, Action.onCell_of_update json now hcells (fun c' hc ↦ if_neg hc)
      (fun c' hc ↦ if_neg hc) ?_ (if_pos rfl)⟩
    rw [Action.kind, if_pos rfl]
    rfl
  · refine .inr ⟨h', hstore, Action.onCell_of_update json now hcells (fun c' hc ↦ if_neg hc)
      (fun c' hc ↦ if_neg hc) ?_ (if_pos rfl)⟩
    rw [Action.kind, if_pos rfl]
    rfl

theorem follows_retired (hord : h.Ordered) (c : ChannelId) :
    Follows json now h (.retired c) := by
  obtain ⟨h', hretire, hcells⟩ := HubState.cells_retireChannel now hord (c := c)
  refine .inr ⟨h', hretire, Action.onCell_of_update json now hcells (fun c' hc ↦ if_neg hc)
    (fun c' hc ↦ if_neg hc) ?_ (if_pos rfl)⟩
  rw [Action.kind, if_pos rfl]
  rfl

theorem follows_output (hord : h.Ordered) (c : ChannelId) (data : List UInt8) :
    Follows json now h (.output c data) := by
  obtain ⟨chunker, houtput, hlanes⟩ := OutputChunker.lanes_onOutput (hord c) now data
  have hcells : HubState.cells { h with chunker := chunker } = Function.update h.cells c
      ⟨(h.cells c).view, (h.chunker.lanes c).output now c data⟩ :=
    HubState.cells_update (Function.update_eq_self _ _).symm (Function.update_eq_self _ _).symm
      (Function.update_eq_self _ _).symm hlanes
  refine .inr ⟨{ h with chunker := chunker }, ?_, Action.onCell_of_update json now hcells
    (fun c' hc ↦ if_neg hc) (fun c' hc ↦ if_neg hc) ?_ (if_pos rfl)⟩
  · rw [HubState.exec, houtput]
    rfl
  · rw [Action.kind, if_pos rfl]
    split
    · rfl
    · rfl

theorem follows_exited (hord : h.Ordered) (c : ChannelId) :
    Follows json now h (.exited c) := by
  have hkind : (Action.exited c : Action S).kind c = .exited := if_pos rfl
  obtain ⟨chunker, huntrack, hlanes⟩ := OutputChunker.lanes_untrackChannel (hord c) now
  -- A channel that is not in memory keeps its row.
  by_cases hmem : (h.channels c).isSome
  · have hexec : h.exec json now (.exited c) = some { h with
        channels := Function.update h.channels c ((h.channels c).map fun _ ↦ .dead)
        rows := Function.update h.rows c ((h.rows c).map fun _ ↦ .dead)
        scheduler := Function.update h.scheduler c false
        chunker := chunker } := by
      simp only [HubState.exec, if_pos hmem, HubState.untrackChannel, HubState.updateChannelStatus,
        HubState.updateRow, huntrack, Option.bind_eq_bind, Option.bind_some]
    refine .inr ⟨_, hexec, Action.onCell_of_update json now
      (HubState.cells_update (x := ⟨⟨(h.channels c).map fun _ ↦ .dead, (h.rows c).map fun _ ↦ .dead,
        false⟩, (h.chunker.lanes c).untrack now c⟩) rfl rfl rfl hlanes)
      (fun c' hc ↦ if_neg hc) (fun c' hc ↦ if_neg hc) ?_ (if_pos rfl)⟩
    rw [hkind, Kind.onView]
    exact congrArg (fun r ↦ some (View.mk _ r false)) (if_pos hmem)
  · have hexec : h.exec json now (.exited c) = some { h with
        scheduler := Function.update h.scheduler c false
        chunker := chunker } := by
      simp only [HubState.exec, if_neg hmem, HubState.untrackChannel, huntrack, Option.bind_eq_bind,
        Option.bind_some]
    have hcells : HubState.cells { h with
        scheduler := Function.update h.scheduler c false
        chunker := chunker } = Function.update h.cells c
          ⟨⟨h.channels c, h.rows c, false⟩, (h.chunker.lanes c).untrack now c⟩ :=
      HubState.cells_update (Function.update_eq_self _ _).symm
        (Function.update_eq_self _ _).symm rfl hlanes
    refine .inr ⟨_, hexec, Action.onCell_of_update json now hcells (fun c' hc ↦ if_neg hc)
      (fun c' hc ↦ if_neg hc) ?_ (if_pos rfl)⟩
    have hnone : h.channels c = none := Option.not_isSome_iff_eq_none.mp hmem
    rw [hkind, Kind.onView]
    simp [HubState.cells, hnone]

/-- A restart under a new id retires the old channel first. -/
theorem follows_restarted (hord : h.Ordered) (c previous : ChannelId) :
    Follows json now h (.restarted c previous) := by
  right
  by_cases hc : c = previous
  · subst hc
    have hkind : (Action.restarted c c : Action S).kind c = .opened := by simp [Action.kind]
    refine ⟨_, by rw [HubState.exec, HubState.applyRestartState, if_pos rfl]; rfl, ?_⟩
    refine Action.onCell_of_update json now (h.cells_live c) (fun c' hc ↦ ?_) (fun c' hc ↦ ?_) ?_
      (if_pos rfl)
    · simp [Action.kind, hc]
    · simp [Action.onLane, hc]
    · rw [hkind]
      rfl
  · obtain ⟨h₁, hretire, hcells⟩ := HubState.cells_retireChannel now hord (c := previous)
    have hcell : h₁.cells c = h.cells c := by rw [hcells, Function.update_of_ne hc]
    -- Whether the row was there or is made now, it is live at the end.
    obtain ⟨h₂, hcreate, hrow, hlane, hcells₂⟩ : ∃ h₂, (if (h₁.rows c).isSome then some h₁
        else h₁.createChannel c .born) = some h₂ ∧ ((h₂.rows c).map fun _ ↦ ChannelStatus.live) =
          some .live ∧ h₂.chunker.lanes c = h.chunker.lanes c ∧
        ∀ c', c' ≠ c → h₂.cells c' = h₁.cells c' := by
      by_cases hrow : (h₁.rows c).isSome
      · refine ⟨h₁, if_pos hrow, ?_, congrArg Cell.lane hcell, fun _ _ ↦ rfl⟩
        obtain ⟨st, hst⟩ := Option.isSome_iff_exists.mp hrow
        rw [hst, Option.map_some]
      · refine ⟨{ h₁ with rows := Function.update h₁.rows c (some .born) },
          by rw [if_neg hrow]; exact if_neg hrow, by simp, congrArg Cell.lane hcell,
          fun c' hc' ↦ ?_⟩
        simp [HubState.cells, Function.update_of_ne hc']
    have hexec : h.exec json now (.restarted c previous) =
        some (((h₂.updateRow c .live).setChannel c .live).trackChannel c) := by
      rw [HubState.exec, HubState.applyRestartState, if_neg hc, HubState.replaceChannel, hretire,
        Option.bind_eq_bind, Option.bind_some, hcreate, Option.map_some]
    refine ⟨_, hexec, fun c' ↦ ?_⟩
    rw [h₂.cells_live c, hrow, hlane]
    by_cases hself : c' = c
    · subst hself
      have hkind : (Action.restarted c' previous : Action S).kind c' = .replaced := by
        simp [Action.kind, hc]
      rw [Function.update_self, Action.onCell, hkind, Action.onLane, if_pos rfl]
      rfl
    · rw [Function.update_of_ne hself, hcells₂ c' hself, hcells]
      by_cases hprev : c' = previous
      · subst hprev
        have hkind : (Action.restarted c c' : Action S).kind c' = .retired := by
          simp [Action.kind, hc]
        rw [Function.update_self, Action.onCell, hkind, Action.onLane, if_neg hc, if_pos rfl]
        rfl
      · have hkind : (Action.restarted c previous : Action S).kind c' = .idle := by
          simp [Action.kind, Ne.symm hself, Ne.symm hprev]
        rw [Function.update_of_ne hprev, Action.onCell, hkind, Action.onLane,
          if_neg (Ne.symm hself),
          if_neg (Ne.symm hprev)]
        rfl

/-- **The hub acts on cells**: an action throws when it throws on a cell, and else acts on
every one. -/
theorem follows (hord : h.Ordered) (a : Action S) : Follows json now h a := by
  cases a with
  | created c => exact follows_created json now h c
  | restarted c previous => exact follows_restarted json now hord c previous
  | respawned c => exact follows_respawned json now h c
  | attached c data n => exact (follows_stored json now hord c data n).1
  | retired c => exact follows_retired json now hord c
  | output c data => exact follows_output json now hord c data
  | snapshot c data n => exact (follows_stored json now hord c data n).2
  | exited c => exact follows_exited json now hord c

theorem ordered_of_onCell {h h' : HubState} (hord : h.Ordered) {a : Action S}
    (hcells : ∀ c, a.onCell json now c (h.cells c) = some (h'.cells c)) : h'.Ordered :=
  fun c ↦ Action.onCell_ordered json now (hord c) (hcells c)

/-- Over a run, each channel sees its own run. -/
theorem run_cells (hord : h.Ordered) (as : List (Action S)) :
    (Runs.run (HubState.exec json now) h as = none ∧
        ∃ c, Runs.run (Action.onCell json now c) (h.cells c) as = none) ∨
      ∃ h', Runs.run (HubState.exec json now) h as = some h' ∧ h'.Ordered ∧
        ∀ c, Runs.run (Action.onCell json now c) (h.cells c) as = some (h'.cells c) := by
  induction as generalizing h with
  | nil => exact .inr ⟨h, rfl, hord, fun c ↦ rfl⟩
  | cons a as ih =>
    rcases follows json now hord a with ⟨hexec, c, hc⟩ | ⟨t, hexec, hcells⟩
    · left
      rw [Runs.run_cons, hexec]
      exact ⟨rfl, c, by rw [Runs.run_cons, hc]; rfl⟩
    · rw [Runs.run_cons, hexec, Option.bind_some]
      have hrun : ∀ c, Runs.run (Action.onCell json now c) (h.cells c) (a :: as) =
          Runs.run (Action.onCell json now c) (t.cells c) as := by
        intro c
        rw [Runs.run_cons, hcells c, Option.bind_some]
      rcases ih (ordered_of_onCell json now hord hcells) with ⟨hnone, c, hc⟩ |
        ⟨h', hsome, hord', hh'⟩
      · exact .inl ⟨hnone, c, by rw [hrun, hc]⟩
      · exact .inr ⟨h', hsome, hord', fun c ↦ by rw [hrun, hh' c]⟩

/-- Two runs that every channel sees alike end alike. -/
theorem map_cells_run_eq (hord : h.Ordered) {as as' : List (Action S)}
    (heq : ∀ c, Runs.run (Action.onCell json now c) (h.cells c) as =
      Runs.run (Action.onCell json now c) (h.cells c) as') :
    (Runs.run (HubState.exec json now) h as).map HubState.cells =
      (Runs.run (HubState.exec json now) h as').map HubState.cells := by
  rcases run_cells json now hord as with ⟨hrun, c, hc⟩ | ⟨t, hrun, -, ht⟩
  · rcases run_cells json now hord as' with ⟨hrun', -⟩ | ⟨t', -, -, ht'⟩
    · rw [hrun, hrun']
    · exact absurd ((heq c).symm.trans hc) (by rw [ht' c]; simp)
  · rcases run_cells json now hord as' with ⟨-, c, hc⟩ | ⟨t', hrun', -, ht'⟩
    · exact absurd ((heq c).trans hc) (by rw [ht c]; simp)
    · have hcells : t.cells = t'.cells := by
        funext c
        exact Option.some.inj ((ht c).symm.trans ((heq c).trans (ht' c)))
      rw [hrun, hrun', Option.map_some, Option.map_some, hcells]

end Cells

end Lasterm.Hub
