import Lasterm.Agent.Pipeline
import Lasterm.Hub.SnapshotStore

/-!
# An agent and its hub on one connection

The frames of an agent in the order of its queue, handled by the hub one after the other; requests
of the hub in the other direction. The connection stays up.

On the hub's side this is the part that deals with output: the dispatch of
`agent-connection-manager.ts` into chunker and spool, and the ATTACH of `session-manager.ts`, whose
continuation runs some time after the answer was handled. The store is carried with the operations
that made it (`ops`), so that what the hub has received is `fedWhileTracked` of these.

The emulator that turns a mirror into the text of a snapshot is a parameter, `term`.
-/

namespace Lasterm.Wire

open Agent Hub

structure System (S : Type) where
  agent : AgentState
  /-- Requests on their way to the agent. -/
  toAgent : List (SnapshotRequest × String)
  /-- How many frames of the agent the hub has handled. -/
  handled : ℕ
  hub : OutputChunker UInt8
  /-- What the hub has done with its store. -/
  ops : List (ℕ × SpoolOp UInt8 S)
  /-- The channels with an ATTACH that waits for its answer. -/
  pending : String → Bool
  /-- Answered ATTACHes whose continuation has not run. -/
  attached : List (String × SnapshotInfo × ℕ)
  /-- ATTACHes answered with an error, likewise. -/
  rejected : List String

inductive SystemEvent where
  /-- A task of the agent takes a step. -/
  | agent (e : AgentEvent)
  /-- The hub handles the next frame. -/
  | handle (now : ℕ)
  /-- The timer of a channel runs out. -/
  | timer (now : ℕ) (c : String)
  /-- A client attaches to a channel. -/
  | attach (c : String)
  /-- The hub's scheduler asks for a snapshot. -/
  | schedule (c : String)
  /-- The continuation of an answered ATTACH. -/
  | continueAttach (now : ℕ) (i : ℕ)
  /-- The continuation of a rejected ATTACH, which retires the channel. -/
  | continueReject (now : ℕ) (i : ℕ)

namespace System

variable {S : Type} (term : SnapshotInfo → S) (json : SnapshotJson UInt8 S)

def new : System S := ⟨.new, [], 0, .new .empty, [], fun _ ↦ false, [], []⟩

/-- An operation on the store. -/
def perform (now : ℕ) (op : SpoolOp UInt8 S) (s : System S) : Option (System S) := do
  let hub ← SpoolOp.exec json s.hub (now, op)
  some { s with hub := hub, ops := s.ops ++ [(now, op)] }

/-- The channel is live for the hub: it tracks its output. -/
def tracked (s : System S) (c : String) : Bool := (s.hub.channels.get c).isSome

/-- What the hub's handler does with a frame. -/
def dispatch (now : ℕ) (s : System S) : AgentToHub → Option (System S)
  | .spawnOk c => s.perform json now (.trackChannel c)
  | .output c _ data => s.perform json now (.onOutput c data)
  | .snapshotRes c info lastSeq => s.perform json now (.storeSnapshot c (term info) lastSeq)
  | .attachOk c info lastSeq =>
    if s.pending c then
      some { s with
        pending := Function.update s.pending c false
        attached := s.attached ++ [(c, info, lastSeq)] }
    else some s
  | .channelNotFound c =>
    if s.pending c then
      some { s with
        pending := Function.update s.pending c false
        rejected := s.rejected ++ [c] }
    else some s
  | .log _ => some s
  | .channelExit c => s.perform json now (.untrackChannel c)

/-- A step of the agent; requests come in the order in which the hub sent them. -/
def agentStep (s : System S) : AgentEvent → Option (System S)
  | .request req c =>
    match s.toAgent with
    | (req', c') :: rest =>
      if req' = req ∧ c' = c then do
        let agent ← s.agent.step (.request req c)
        some { s with agent := agent, toAgent := rest }
      else none
    | [] => none
  | e => do
    let agent ← s.agent.step e
    some { s with agent := agent }

def step (s : System S) : SystemEvent → Option (System S)
  | .agent e => s.agentStep e
  | .handle now => do
    let frame ← s.agent.frames[s.handled]?
    dispatch term json now { s with handled := s.handled + 1 } frame
  | .timer now c => s.perform json now (.onTimer c)
  | .attach c =>
    if s.tracked c then
      some { s with
        pending := Function.update s.pending c true
        toAgent := s.toAgent ++ [(.attach, c)] }
    else none
  | .schedule c =>
    if s.tracked c then some { s with toAgent := s.toAgent ++ [(.snapshotReq, c)] } else none
  | .continueAttach now i =>
    match s.attached[i]? with
    | none => none
    | some (c, info, lastSeq) =>
      { s with attached := s.attached.eraseIdx i }.perform json now
        (.storeSnapshot c (term info) lastSeq)
  | .continueReject now i =>
    match s.rejected[i]? with
    | none => none
    | some c => { s with rejected := s.rejected.eraseIdx i }.perform json now (.untrackChannel c)

/-- The tail the client gets, read from the store after the snapshot went into it. -/
def attachTail (hub : OutputChunker UInt8) (c : String) (lastSeq : ℕ) : List (List UInt8) :=
  (hub.spoolDal.getChunksByChannel c { kind := some .output, afterSeq := some lastSeq }).map
    Chunk.dataBlob

/-- The output of a channel that the hub has received. -/
def received (s : System S) (c : String) : List UInt8 := fedWhileTracked c s.ops

/-! ## What a step does to the store -/

/-- The operation on the store that the handler of a frame performs. -/
def frameOp (now : ℕ) : AgentToHub → Option (ℕ × SpoolOp UInt8 S)
  | .spawnOk c => some (now, .trackChannel c)
  | .output c _ data => some (now, .onOutput c data)
  | .snapshotRes c info lastSeq => some (now, .storeSnapshot c (term info) lastSeq)
  | .channelExit c => some (now, .untrackChannel c)
  | .attachOk _ _ _ | .channelNotFound _ | .log _ => none

/-- The operation on the store that an event performs. -/
def opOf (s : System S) : SystemEvent → Option (ℕ × SpoolOp UInt8 S)
  | .handle now => s.agent.frames[s.handled]?.bind (frameOp term now)
  | .timer now c => some (now, .onTimer c)
  | .continueAttach now i => s.attached[i]?.map fun x ↦ (now, .storeSnapshot x.1 (term x.2.1) x.2.2)
  | .continueReject now i => s.rejected[i]?.map fun c ↦ (now, .untrackChannel c)
  | .agent _ | .attach _ | .schedule _ => none

/-- The store moves by an operation, or not at all. -/
def Moves (s : System S) (op : Option (ℕ × SpoolOp UInt8 S)) (s' : System S) : Prop :=
  match op with
  | none => s'.hub = s.hub ∧ s'.ops = s.ops
  | some op => SpoolOp.exec json s.hub op = some s'.hub ∧ s'.ops = s.ops ++ [op]

variable {term json} {s s' : System S} {c : String} {events : List SystemEvent} {e : SystemEvent}

theorem perform_eq_some {now : ℕ} {op : SpoolOp UInt8 S}
    (h : s.perform json now op = some s') :
    SpoolOp.exec json s.hub (now, op) = some s'.hub ∧
      s' = { s with hub := s'.hub, ops := s.ops ++ [(now, op)] } := by
  rw [perform, Option.bind_eq_bind, Option.bind_eq_some_iff] at h
  obtain ⟨hub, hhub, h⟩ := h
  cases h
  exact ⟨hhub, rfl⟩

theorem moves_perform {now : ℕ} {op : SpoolOp UInt8 S} {t : System S}
    (h : t.perform json now op = some s') (hhub : t.hub = s.hub) (hops : t.ops = s.ops) :
    Moves json s (some (now, op)) s' := by
  obtain ⟨hexec, heq⟩ := perform_eq_some h
  refine ⟨hhub ▸ hexec, ?_⟩
  rw [heq, hops]

theorem moves_dispatch {now : ℕ} {f : AgentToHub} {t : System S}
    (h : t.dispatch term json now f = some s')
    (hhub : t.hub = s.hub) (hops : t.ops = s.ops) : Moves json s (frameOp term now f) s' := by
  cases f with
  | spawnOk c => exact moves_perform h hhub hops
  | output c seq data => exact moves_perform h hhub hops
  | snapshotRes c info lastSeq => exact moves_perform h hhub hops
  | channelExit c => exact moves_perform h hhub hops
  | attachOk c info lastSeq =>
    rw [dispatch] at h
    split at h <;> (obtain rfl := Option.some.inj h; exact ⟨hhub, hops⟩)
  | channelNotFound c =>
    rw [dispatch] at h
    split at h <;> (obtain rfl := Option.some.inj h; exact ⟨hhub, hops⟩)
  | log c =>
    cases h
    exact ⟨hhub, hops⟩

/-- A step of the agent, seen from the system. -/
theorem agentStep_eq_some {e : AgentEvent} (h : s.agentStep e = some s') :
    s.agent.step e = some s'.agent ∧ s'.hub = s.hub ∧ s'.ops = s.ops ∧ s'.handled = s.handled ∧
      s'.pending = s.pending ∧ s'.attached = s.attached ∧ s'.rejected = s.rejected ∧
      (s'.toAgent = s.toAgent ∧ (∀ req c, e ≠ .request req c) ∨
        ∃ req c, e = .request req c ∧ s.toAgent = (req, c) :: s'.toAgent) := by
  cases e with
  | request req c =>
    rw [agentStep] at h
    split at h
    · rename_i req' c' rest hto
      split at h
      · rename_i heq
        obtain ⟨rfl, rfl⟩ := heq
        rw [Option.bind_eq_bind, Option.bind_eq_some_iff] at h
        obtain ⟨agent, hagent, h⟩ := h
        cases h
        exact ⟨hagent, rfl, rfl, rfl, rfl, rfl, rfl, .inr ⟨_, _, rfl, hto⟩⟩
      · cases h
    · cases h
  | spawn c | read c raw | serve c | eof c | cleanup c | exit c | destroy c | resize c cols rows
  | reply i | batchRecv | batchTick ids | write =>
    rw [agentStep, Option.bind_eq_bind, Option.bind_eq_some_iff] at h
    · obtain ⟨agent, hagent, h⟩ := h
      cases h
      exact ⟨hagent, rfl, rfl, rfl, rfl, rfl, rfl, .inl ⟨rfl, fun _ _ h ↦ nomatch h⟩⟩
    · exact fun _ _ h ↦ nomatch h

/-- **The store over one step.** -/
theorem step_moves (h : s.step term json e = some s') :
    Moves json s (s.opOf term e) s' := by
  cases e with
  | agent e =>
    obtain ⟨-, hhub, hops, -⟩ := agentStep_eq_some h
    exact ⟨hhub, hops⟩
  | handle now =>
    rw [step, Option.bind_eq_bind, Option.bind_eq_some_iff] at h
    obtain ⟨f, hf, h⟩ := h
    rw [opOf, hf]
    exact moves_dispatch h rfl rfl
  | timer now c => exact moves_perform h rfl rfl
  | attach c =>
    rw [step] at h
    split at h
    · cases h
      exact ⟨rfl, rfl⟩
    · cases h
  | schedule c =>
    rw [step] at h
    split at h
    · cases h
      exact ⟨rfl, rfl⟩
    · cases h
  | continueAttach now i =>
    rw [step] at h
    split at h
    · cases h
    · rename_i c info lastSeq hi
      rw [opOf, hi]
      exact moves_perform h rfl rfl
  | continueReject now i =>
    rw [step] at h
    split at h
    · cases h
    · rename_i c hi
      rw [opOf, hi]
      exact moves_perform h rfl rfl

/-- The store is the result of its operations. -/
def Stored (json : SnapshotJson UInt8 S) (s : System S) : Prop :=
  Runs.run (SpoolOp.exec json) (.new .empty) s.ops = some s.hub

theorem Moves.stored {op : Option (ℕ × SpoolOp UInt8 S)} (h : Moves json s op s')
    (hs : s.Stored json) : s'.Stored json := by
  cases op with
  | none =>
    obtain ⟨hhub, hops⟩ := h
    rw [Stored, hhub, hops]
    exact hs
  | some op =>
    obtain ⟨hexec, hops⟩ := h
    rw [Stored, hops, Runs.run_append, hs, Option.bind_some, Runs.run_cons, hexec]
    rfl

theorem stored_run (h : Runs.run (step term json) new events = some s) :
    s.Stored json := by
  have hnew : new.Stored json := rfl
  exact Runs.run_invariant (Stored json) (fun _ _ _ hs hstep ↦ (step_moves hstep).stored hs) hnew h

/-- What the hub knows of a channel: the operations say what the lane holds. -/
def fed (s : System S) (c : String) : Fed UInt8 := s.ops.foldl (Fed.step c) ⟨false, []⟩

theorem Stored.lane (h : s.Stored json) (c : String) :
    (s.hub.lanes c).Ordered ∧ (s.hub.lanes c).Holds (s.fed c) := by
  obtain ⟨t, hrun, hlanes⟩ := run_lanes json (s := .new .empty) (fun _ ↦ Lane.ordered_empty) s.ops
  cases hrun.symm.trans h
  obtain ⟨hlane, hord⟩ := hlanes c
  refine ⟨hord, ?_⟩
  rw [hlane]
  exact Lane.holds_foldl json c s.ops ⟨rfl, rfl⟩

theorem Stored.tracked_eq (h : s.Stored json) (c : String) : s.tracked c = (s.fed c).tracked :=
  (h.lane c).2.tracked

theorem Moves.fed {op : Option (ℕ × SpoolOp UInt8 S)} (h : Moves json s op s')
    (c : String) : s'.fed c = op.elim (s.fed c) fun op ↦ (s.fed c).step c op := by
  cases op with
  | none => rw [System.fed, h.2]; rfl
  | some op => rw [System.fed, h.2, List.foldl_append]; rfl

/-! ## What a step does to the rest -/

/-- The agent takes a step, or stays as it is. -/
theorem agent_step (h : s.step term json e = some s') :
    (∃ e', e = .agent e' ∧ s.agentStep e' = some s') ∨ s'.agent = s.agent := by
  cases e with
  | agent e => exact .inl ⟨e, rfl, h⟩
  | handle now =>
    rw [step, Option.bind_eq_bind, Option.bind_eq_some_iff] at h
    obtain ⟨f, hf, h⟩ := h
    refine .inr ?_
    cases f with
    | spawnOk c | output c seq data | snapshotRes c info lastSeq | channelExit c =>
      rw [(perform_eq_some h).2]
    | attachOk c info lastSeq | channelNotFound c =>
      rw [dispatch] at h
      split at h <;> (obtain rfl := Option.some.inj h; rfl)
    | log c =>
      cases h
      rfl
  | timer now c =>
    refine .inr ?_
    rw [(perform_eq_some h).2]
  | attach c | schedule c =>
    rw [step] at h
    split at h
    · cases h
      exact .inr rfl
    · cases h
  | continueAttach now i | continueReject now i =>
    rw [step] at h
    split at h
    · cases h
    · refine .inr ?_
      rw [(perform_eq_some h).2]

/-- Answers that wait for their continuation come from frames. -/
theorem attached_step (h : s.step term json e = some s') {x : String × SnapshotInfo × ℕ}
    (hx : x ∈ s'.attached) : x ∈ s.attached ∨ .attachOk x.1 x.2.1 x.2.2 ∈ s.agent.frames := by
  cases e with
  | agent e =>
    obtain ⟨-, -, -, -, -, hattached, -⟩ := agentStep_eq_some h
    exact .inl (hattached ▸ hx)
  | handle now =>
    rw [step, Option.bind_eq_bind, Option.bind_eq_some_iff] at h
    obtain ⟨f, hf, h⟩ := h
    cases f with
    | spawnOk c | output c seq data | snapshotRes c info lastSeq | channelExit c =>
      rw [(perform_eq_some h).2] at hx
      exact .inl hx
    | attachOk c info lastSeq =>
      rw [dispatch] at h
      split at h
      · cases h
        rcases List.mem_append.mp hx with hx | hx
        · exact .inl hx
        · obtain rfl := List.mem_singleton.mp hx
          exact .inr (List.mem_of_getElem? hf)
      · cases h
        exact .inl hx
    | channelNotFound c =>
      rw [dispatch] at h
      split at h <;> (obtain rfl := Option.some.inj h; exact .inl hx)
    | log c =>
      cases h
      exact .inl hx
  | timer now c =>
    rw [(perform_eq_some h).2] at hx
    exact .inl hx
  | attach c | schedule c =>
    rw [step] at h
    split at h
    · cases h
      exact .inl hx
    · cases h
  | continueAttach now i =>
    rw [step] at h
    split at h
    · cases h
    · rw [(perform_eq_some h).2] at hx
      exact .inl (List.mem_of_mem_eraseIdx hx)
  | continueReject now i =>
    rw [step] at h
    split at h
    · cases h
    · rw [(perform_eq_some h).2] at hx
      exact .inl hx

/-- The agent's numbers are 0 wherever they are. -/
structure SeqZero (s : System S) : Prop where
  agent : s.agent.SeqZero
  attached : ∀ x ∈ s.attached, x.2.2 = 0

theorem seqZero_step (h : s.SeqZero) (hstep : s.step term json e = some s') :
    s'.SeqZero := by
  refine ⟨?_, fun x hx ↦ ?_⟩
  · rcases agent_step hstep with ⟨e', -, he'⟩ | heq
    · exact AgentState.seqZero_step h.agent (agentStep_eq_some he').1
    · exact heq ▸ h.agent
  · rcases attached_step hstep hx with hx | hx
    · exact h.attached x hx
    · exact h.agent.attachOk _ _ _ hx

theorem seqZero_run (h : Runs.run (step term json) new events = some s) :
    s.SeqZero :=
  Runs.run_invariant SeqZero (fun _ _ _ hinv hstep ↦ seqZero_step hinv hstep)
    ⟨AgentState.seqZero_new, by simp [new]⟩ h

/-! ## Attaching -/

/-- Asked for everything behind `seq` 0, the store returns all output. -/
theorem attachTail_zero (h : (s.hub.lanes c).Ordered) :
    (attachTail s.hub c 0).flatten = (s.hub.lanes c).spooled := by
  rw [attachTail, Spool.getChunksByChannel_of_sorted h.sorted, Lane.spooled,
    ← map_dataBlob_flatten_eq_flatMap]
  congr 2
  refine List.filter_congr fun r hr ↦ ?_
  have := h.pos r hr
  simp [Nat.pos_of_ne_zero (by omega : r.seq ≠ 0)]

/-- **When an attach replays nothing twice.** After any run, the continuation of an ATTACH that the
agent answered sends the snapshot with a tail. The tail is what the hub has received beyond the
bytes the snapshot reflects exactly when it reflects none, or the hub has received nothing. -/
theorem attachTail_iff {events : List SystemEvent} {s s' : System S} {now i : ℕ} {c : String}
    {info : SnapshotInfo} {lastSeq : ℕ} (hrun : Runs.run (step term json) new events = some s)
    (hi : s.attached[i]? = some (c, info, lastSeq))
    (hstep : s.step term json (.continueAttach now i) = some s') :
    (attachTail s'.hub c lastSeq).flatten = (s.received c).drop info.bytes.length ↔
      info.bytes = [] ∨ s.received c = [] := by
  have hzero : lastSeq = 0 := (seqZero_run hrun).attached _ (List.mem_of_getElem? hi)
  have hmoves := step_moves hstep
  have hstored' := hmoves.stored (stored_run hrun)
  obtain ⟨hord, hholds⟩ := hstored'.lane c
  rw [opOf, hi] at hmoves
  have hfed : s'.fed c = s.fed c := hmoves.fed c
  -- the snapshot went in behind a flush
  have hbuffered : (s'.hub.lanes c).buffered = [] := by
    obtain ⟨t, ht, hlanes⟩ := OutputChunker.lanes_storeSnapshot json ((stored_run hrun).lane c).1
      now (term info) lastSeq
    cases ht.symm.trans hmoves.1
    rw [hlanes, Function.update_self, Lane.buffered_snapshot]
  have htail : (attachTail s'.hub c lastSeq).flatten = s.received c := by
    rw [hzero, attachTail_zero hord]
    have hdata := hholds.data
    rw [hbuffered, List.append_nil, hfed] at hdata
    exact hdata
  rw [htail]
  constructor
  · intro heq
    have hlen := congrArg List.length heq
    rw [List.length_drop] at hlen
    rcases Nat.eq_zero_or_pos info.bytes.length with hp | hp
    · exact .inl (List.length_eq_zero_iff.mp hp)
    · exact .inr (List.length_eq_zero_iff.mp (by omega))
  · rintro (hp | hr)
    · rw [hp, List.length_nil, List.drop_zero]
    · rw [hr, List.drop_nil]

/-- A shell prints its prompt, the hub gets it, and a client attaches. -/
def attachAfterPrompt : List SystemEvent :=
  [.agent (.spawn "c"), .handle 0, .agent (.read "c" [36]), .agent .batchRecv,
    .agent (.batchTick ["c"]), .agent .write, .handle 0, .attach "c",
    .agent (.request .attach "c"), .agent (.serve "c"), .agent (.reply 0), .handle 0]

/-- The shell prints behind the snapshot, and the hub gets the output before the answer. -/
def attachBeforePrompt : List SystemEvent :=
  [.agent (.spawn "c"), .handle 0, .attach "c", .agent (.request .attach "c"),
    .agent (.serve "c"), .agent (.read "c" [36]), .agent .batchRecv, .agent (.batchTick ["c"]),
    .agent .write, .handle 0, .agent (.reply 0), .handle 0]

theorem attachTail_iff_beforePrompt : ∃ s s' : System (List UInt8),
    Runs.run (step SnapshotInfo.bytes quotedJson) new attachBeforePrompt = some s ∧
      s.attached[0]? = some ("c", ⟨[]⟩, 0) ∧
      s.step SnapshotInfo.bytes quotedJson (.continueAttach 0 0) = some s' ∧
      s.received "c" = [36] ∧ (attachTail s'.hub "c" 0).flatten = (s.received "c").drop 0 := by
  refine ⟨_, _, rfl, rfl, rfl, rfl, ?_⟩
  exact (@attachTail_iff _ SnapshotInfo.bytes quotedJson attachBeforePrompt _ _ 0 0 "c" ⟨[]⟩ 0
    rfl rfl rfl).mpr (.inl rfl)

/-- The prompt is in the snapshot and in the tail behind it. -/
theorem attach_replays_prompt_twice :
    ¬ ∀ (term : SnapshotInfo → List UInt8) (json : SnapshotJson UInt8 (List UInt8))
      (events : List SystemEvent) (s s' : System (List UInt8)) (now i : ℕ) (c : String)
      (info : SnapshotInfo) (lastSeq : ℕ), Runs.run (step term json) new events = some s →
      s.attached[i]? = some (c, info, lastSeq) →
      s.step term json (.continueAttach now i) = some s' →
      (attachTail s'.hub c lastSeq).flatten = (s.received c).drop info.bytes.length := by
  intro h
  have hprompt := h SnapshotInfo.bytes quotedJson attachAfterPrompt _ _ 0 0 "c"
    ⟨[.process [36]]⟩ 0 rfl rfl rfl
  revert hprompt
  decide

end System

end Lasterm.Wire
