import Lasterm.Agent.Registry
import Lasterm.Library.OrderedMap

/-!
# The end of all terminals

`pty.rs` and `daemon.rs`: `destroy_all` signals every channel and takes those out of the registry
that it could signal, then waits for their processes one after another. The manager is locked from
the first signal to the summary, so that a late SPAWN and the cleanup of a reader task come before
the sweep or after it. Here the sweep is as many steps as it has waits, and the lock is `sweep`.

`Swept` is what the sweep has come to after some of the channels: each of them is confirmed,
unresolved or waited for, and only once. `Sweep.reason` says what a channel should be counted as.

`start`, `kill` and `joined` record what a sweep found; nothing reads them.
-/

namespace Lasterm.Agent

open Runs (Ensures)

/-! ## Outcomes -/

/-- What `kill_tree` fails with. -/
structure KillError where
  /-- The kind is `InvalidInput`: the process was seen to exit before. -/
  invalidInput : Bool
  message : String

inductive UnconfirmedTeardown where
  | waitFailed (error : IoError)
  | timedOut (timeout : ℕ)

inductive TeardownOutcome where
  | exited (channelId : String) (pid : ℕ) (status : ExitStatus)
  | signalledButUnconfirmed (channelId : String) (pid : ℕ) (reason : UnconfirmedTeardown)
  | signallingFailed (channelId : String) (pid : ℕ) (error : KillError)
  | alreadyExited (channelId : String) (pid : ℕ)

inductive UnresolvedTeardown where
  | signallingFailed
  | waitFailed
  | timedOut
  | confirmationTaskFailed
  deriving DecidableEq

structure UnresolvedChannel where
  channelId : String
  pid : ℕ
  reason : UnresolvedTeardown

structure DestroyAllSummary where
  confirmedShellExits : ℕ
  unresolved : List UnresolvedChannel

inductive TeardownStart where
  | signalled (pid : ℕ)
  | alreadyExited (outcome : TeardownOutcome)

/-- A process that was signalled, with the task that waits for it. -/
structure TeardownWait where
  channelId : String
  pid : ℕ

/-- What `timeout(wait_timeout, process.wait())` comes to. -/
inductive Waited where
  | status (status : ExitStatus)
  | failed (error : IoError)
  | elapsed

/-- What the task that waits for a process comes to. -/
inductive Joined where
  | finished (waited : Waited)
  | taskFailed

def TeardownOutcome.unresolvedChannel : TeardownOutcome → Option UnresolvedChannel
  | .signalledButUnconfirmed channelId pid (.waitFailed _) => some ⟨channelId, pid, .waitFailed⟩
  | .signalledButUnconfirmed channelId pid (.timedOut _) => some ⟨channelId, pid, .timedOut⟩
  | .signallingFailed channelId pid _ => some ⟨channelId, pid, .signallingFailed⟩
  | .exited _ _ _ | .alreadyExited _ _ => none

namespace DestroyAllSummary

def recordOutcome (summary : DestroyAllSummary) (outcome : TeardownOutcome) : DestroyAllSummary :=
  match outcome.unresolvedChannel with
  | some unresolved => { summary with unresolved := summary.unresolved ++ [unresolved] }
  | none => { summary with confirmedShellExits := summary.confirmedShellExits + 1 }

end DestroyAllSummary

theorem DestroyAllSummary.unresolved_recordOutcome (summary : DestroyAllSummary)
    (outcome : TeardownOutcome) : (summary.recordOutcome outcome).unresolved
      = summary.unresolved ++ outcome.unresolvedChannel.toList := by
  rw [recordOutcome]
  split
  · rename_i u hu
    rw [hu]
    rfl
  · rename_i hnone
    rw [hnone]
    exact (List.append_nil _).symm

/-- An outcome is counted once. -/
theorem DestroyAllSummary.count_recordOutcome (summary : DestroyAllSummary)
    (outcome : TeardownOutcome) :
    (summary.recordOutcome outcome).confirmedShellExits
        + (summary.recordOutcome outcome).unresolved.length
      = summary.confirmedShellExits + summary.unresolved.length + 1 := by
  rw [recordOutcome]
  split
  · rw [List.length_append, List.length_singleton, Nat.add_assoc]
  · dsimp only
    omega

def teardownExitStatus (summary : DestroyAllSummary) : ℤ := if summary.unresolved = [] then 0 else 1

/-! ## The manager -/

structure PtyProcess where
  pid : ℕ

structure PtyManager where
  channels : OrderedMap String PtyProcess
  shuttingDown : Bool

namespace PtyManager

/-- In milliseconds. -/
def CHANNEL_TEARDOWN_WAIT_TIMEOUT : ℕ := 5000

def new : PtyManager := ⟨.empty, false⟩

def beginShutdown (m : PtyManager) : PtyManager := { m with shuttingDown := true }

/-- The program is started with `started`. -/
def spawn (m : PtyManager) (channelId : Option String) (ulid : String)
    (started : Except IoError ℕ) :
    Except IoError PtyManager :=
  if m.shuttingDown then .error ⟨.other, "agent is shutting down; refusing to spawn a terminal"⟩
  else if channelId.any fun c ↦ (m.channels.get c).isSome then
    .error ⟨.alreadyExists, "channel already exists"⟩
  else
    match started with
    | .error e => .error e
    | .ok pid => .ok { m with channels := m.channels.set (channelId.getD ulid) ⟨pid⟩ }

def remove (m : PtyManager) (channelId : String) : PtyManager :=
  { m with channels := m.channels.delete channelId }

end PtyManager

/-- `start_teardown` for a registered channel. -/
def startTeardown (channelId : String) (process : PtyProcess) :
    Except KillError Unit → Except TeardownOutcome TeardownStart
  | .ok _ => .ok (.signalled process.pid)
  | .error e =>
    if e.invalidInput then .ok (.alreadyExited (.alreadyExited channelId process.pid))
    else .error (.signallingFailed channelId process.pid e)

/-- `TeardownConfirmation::confirm`. -/
def TeardownWait.confirm (wait : TeardownWait) : Waited → TeardownOutcome
  | .status status => .exited wait.channelId wait.pid status
  | .failed error => .signalledButUnconfirmed wait.channelId wait.pid (.waitFailed error)
  | .elapsed =>
    .signalledButUnconfirmed wait.channelId wait.pid
      (.timedOut PtyManager.CHANNEL_TEARDOWN_WAIT_TIMEOUT)

/-! ## The sweep -/

/-- A `destroy_all` that has signalled all channels. -/
structure Sweep where
  waits : List TeardownWait
  summary : DestroyAllSummary
  /-- The channels present at its start. -/
  start : OrderedMap String PtyProcess
  /-- What `kill_tree` returned for each channel. -/
  kill : String → Except KillError Unit
  /-- The waits that are over. -/
  joined : List (String × Joined)

/-- The manager, with the sweep that has it locked and the summaries of the sweeps before. -/
structure ManagerState where
  manager : PtyManager
  sweep : Option Sweep
  returned : List DestroyAllSummary

/-- A piece of one task that has the manager. -/
inductive ManagerEvent where
  /-- The SPAWN handler. -/
  | spawn (channelId : Option String) (ulid : String) (started : Except IoError ℕ)
  /-- A reader task takes its channel out. -/
  | remove (channelId : String)
  /-- The DESTROY handler. -/
  | destroy (channelId : String) (kill : Except KillError Unit)
  | beginShutdown
  /-- `destroy_all` up to its first wait; a hash map is walked in any order. -/
  | destroyAll (ids : List String) (kill : String → Except KillError Unit)
  /-- The task for the next process is joined. -/
  | join (joined : Joined)
  /-- `destroy_all` returns. -/
  | finish

namespace Sweep

/-- The body of the first loop. Every channel of the list is registered when its turn comes. -/
def signal (kill : String → Except KillError Unit) (s : PtyManager × Sweep) (id : String) :
    PtyManager × Sweep :=
  match s.1.channels.get id with
  | none => s
  | some process =>
    match startTeardown id process (kill id) with
    | .ok (.signalled pid) => (s.1.remove id, { s.2 with waits := s.2.waits ++ [⟨id, pid⟩] })
    | .ok (.alreadyExited outcome) =>
      (s.1.remove id, { s.2 with summary := s.2.summary.recordOutcome outcome })
    | .error outcome => (s.1, { s.2 with summary := s.2.summary.recordOutcome outcome })

def begin (m : PtyManager) (ids : List String) (kill : String → Except KillError Unit) :
    PtyManager × Sweep :=
  ids.foldl (signal kill) (m, ⟨[], ⟨0, []⟩, m.channels, kill, []⟩)

/-- The body of the second loop. -/
def join (w : Sweep) (wait : TeardownWait) (waits : List TeardownWait) (joined : Joined) : Sweep :=
  { w with
    waits := waits
    joined := w.joined ++ [(wait.channelId, joined)]
    summary :=
      match joined with
      | .finished waited => w.summary.recordOutcome (wait.confirm waited)
      | .taskFailed =>
        { w.summary with
          unresolved := w.summary.unresolved ++
            [⟨wait.channelId, wait.pid, .confirmationTaskFailed⟩] } }

end Sweep

namespace ManagerState

def new : ManagerState := ⟨.new, none, []⟩

/-- Take the channel out unless it could not be signalled. -/
def destroy (m : PtyManager) (channelId : String) (kill : Except KillError Unit) : PtyManager :=
  match m.channels.get channelId with
  | none => m
  | some process =>
    match startTeardown channelId process kill with
    | .ok _ => m.remove channelId
    | .error _ => m

def step (s : ManagerState) : ManagerEvent → Option ManagerState
  | .spawn channelId ulid started =>
    if s.sweep.isSome then none
    else
      match s.manager.spawn channelId ulid started with
      | .ok manager => some { s with manager := manager }
      | .error _ => some s
  | .remove channelId =>
    if s.sweep.isSome then none else some { s with manager := s.manager.remove channelId }
  | .destroy channelId kill =>
    if s.sweep.isSome then none
    else some { s with manager := destroy s.manager channelId kill }
  | .beginShutdown =>
    if s.sweep.isSome then none else some { s with manager := s.manager.beginShutdown }
  | .destroyAll ids kill =>
    if s.sweep.isSome ∨ ¬ids.Perm s.manager.channels.keys then none
    else
      let begun := Sweep.begin s.manager ids kill
      some { s with manager := begun.1, sweep := some begun.2 }
  | .join joined =>
    match s.sweep with
    | none => none
    | some w =>
      match w.waits with
      | [] => none
      | wait :: waits => some { s with sweep := some (w.join wait waits joined) }
  | .finish =>
    match s.sweep with
    | none => none
    | some w =>
      if w.waits = [] then some { s with sweep := none, returned := s.returned ++ [w.summary] }
      else none

end ManagerState

/-! ## What a channel counts as -/

def Joined.reason : Joined → Option UnresolvedTeardown
  | .finished (.status _) => none
  | .finished (.failed _) => some .waitFailed
  | .finished .elapsed => some .timedOut
  | .taskFailed => some .confirmationTaskFailed

/-- `kill_tree` failed, and not because the process had ended. -/
def KillFailed (kill : Except KillError Unit) : Prop :=
  ∃ e, kill = .error e ∧ e.invalidInput = false

instance (kill : Except KillError Unit) : Decidable (KillFailed kill) :=
  match kill with
  | .ok _ => .isFalse fun ⟨_, h, _⟩ ↦ by cases h
  | .error e =>
    if h : e.invalidInput = false then .isTrue ⟨e, rfl, h⟩
    else .isFalse fun ⟨_, heq, h'⟩ ↦ h (by cases heq; exact h')

namespace Sweep

variable {w : Sweep} {ps : List String} {m : PtyManager} {id : String} {process : PtyProcess}
  {ids : List String}

/-- Why the exit of a channel's shell is not confirmed. -/
def reason (w : Sweep) (id : String) : Option UnresolvedTeardown :=
  match w.kill id with
  | .ok _ => (w.joined.find? fun x ↦ x.1 = id).bind fun x ↦ x.2.reason
  | .error e => if e.invalidInput then none else some .signallingFailed

/-- What the summary should say about a channel. -/
def expected (w : Sweep) (id : String) : List UnresolvedChannel :=
  ((w.start.get id).bind fun p ↦ (w.reason id).map fun r ↦ ⟨id, p.pid, r⟩).toList

/-- What the summary says about a channel. -/
def entries (w : Sweep) (id : String) : List UnresolvedChannel :=
  w.summary.unresolved.filter fun u ↦ u.channelId = id

/-- Channels that are counted or waited for. -/
def total (w : Sweep) : ℕ :=
  w.summary.confirmedShellExits + w.summary.unresolved.length + w.waits.length

/-- The sweep has gone through the channels `ps`. -/
structure Swept (ps : List String) (m : PtyManager) (w : Sweep) : Prop where
  total : w.total = ps.length
  waiting : w.joined.map Prod.fst ++ w.waits.map TeardownWait.channelId
    = ps.filter fun id ↦ (w.kill id).isOk
  pids : ∀ x ∈ w.waits, w.start.get x.channelId = some ⟨x.pid⟩
  entries : ∀ id, w.entries id = if id ∈ ps then w.expected id else []
  registered : ∀ id, m.channels.get id
    = if id ∈ ps ∧ ¬KillFailed (w.kill id) then none else w.start.get id

theorem entries_append {w' : Sweep} {us : List UnresolvedChannel}
    (hus : ∀ u ∈ us, u.channelId = id)
    (h : w'.summary.unresolved = w.summary.unresolved ++ us) (id' : String) :
    w'.entries id' = w.entries id' ++ if id = id' then us else [] := by
  rw [entries, h, List.filter_append, entries]
  congr 1
  split
  · rename_i heq
    exact List.filter_eq_self.mpr fun u hu ↦ decide_eq_true ((hus u hu).trans heq)
  · rename_i hne
    exact List.filter_eq_nil_iff.mpr fun u hu heq ↦
      hne ((hus u hu).symm.trans (of_decide_eq_true heq))

/-- A channel that is not joined counts for what `kill_tree` returned. -/
theorem reason_of_not_joined (h : ∀ x ∈ w.joined, x.1 ≠ id) :
    w.reason id = if KillFailed (w.kill id) then some .signallingFailed else none := by
  have hjoined : w.joined.find? (fun x ↦ x.1 = id) = none :=
    List.find?_eq_none.mpr fun x hx hxid ↦ h x hx (of_decide_eq_true hxid)
  rw [reason, hjoined]
  cases hk : w.kill id with
  | ok _ =>
    rw [if_neg]
    · rfl
    · rintro ⟨e, he, -⟩
      cases he
  | error e =>
    cases he : e.invalidInput with
    | true =>
      rw [if_neg]
      · simp [he]
      · rintro ⟨e', heq, he'⟩
        cases heq
        rw [he] at he'
        cases he'
    | false =>
      rw [if_pos ⟨e, rfl, he⟩]
      simp [he]

theorem Swept.joined_ne (h : Swept ps m w) (hid : id ∉ ps) : ∀ x ∈ w.joined, x.1 ≠ id := by
  intro x hx hxid
  have hmem : x.1 ∈ ps.filter fun id ↦ (w.kill id).isOk := by
    rw [← h.waiting]
    exact List.mem_append_left _ (List.mem_map_of_mem hx)
  exact hid (hxid ▸ (List.mem_filter.mp hmem).1)

theorem mem_append_singleton_of_ne {id' : String} (hne : id ≠ id') :
    id' ∈ ps ++ [id] ↔ id' ∈ ps := by
  rw [List.mem_append, List.mem_singleton, or_iff_left (Ne.symm hne)]

/-- One channel more is signalled, or found to have ended, or cannot be signalled. -/
theorem Swept.next {w' : Sweep} {m' : PtyManager}
    (h : Swept ps m w) (hid : id ∉ ps) (hp : w.start.get id = some process)
    (hstart : w'.start = w.start) (hkill : w'.kill = w.kill) (hjoined : w'.joined = w.joined)
    (htotal : w'.total = w.total + 1)
    (hwaits : w'.waits = w.waits ++ if (w.kill id).isOk then [⟨id, process.pid⟩] else [])
    (hunresolved : w'.summary.unresolved = w.summary.unresolved ++
      if KillFailed (w.kill id) then [⟨id, process.pid, .signallingFailed⟩] else [])
    (hchannels : ∀ id', m'.channels.get id'
      = if id = id' ∧ ¬KillFailed (w.kill id) then none else m.channels.get id') :
    Swept (ps ++ [id]) m' w' := by
  have hexpected : ∀ id', w'.expected id' = w.expected id' := by
    intro id'
    rw [expected, expected, reason, reason, hstart, hkill, hjoined]
  refine ⟨?_, ?_, ?_, ?_, ?_⟩
  · rw [htotal, h.total, List.length_append, List.length_singleton]
  · rw [hjoined, hwaits, hkill, List.filter_append, ← h.waiting, List.map_append,
      List.append_assoc]
    -- only a channel that was signalled is waited for
    congr 2
    by_cases hok : (w.kill id).isOk = true
    · simp [hok]
    · simp [hok]
  · intro x hx
    rw [hwaits] at hx
    rw [hstart]
    rcases List.mem_append.mp hx with hx | hx
    · exact h.pids x hx
    · split at hx
      · rw [List.mem_singleton.mp hx]
        exact hp
      · cases hx
  · intro id'
    have hown : ∀ u ∈ (if KillFailed (w.kill id) then
        [(⟨id, process.pid, .signallingFailed⟩ : UnresolvedChannel)] else []),
        u.channelId = id := by
      intro u hu
      split at hu
      · rw [List.mem_singleton.mp hu]
      · cases hu
    rw [entries_append hown hunresolved, hexpected, h.entries]
    -- The channel itself had no entry yet; nothing is added for another one.
    by_cases hne : id = id'
    · subst hne
      rw [if_neg hid, if_pos rfl, if_pos (List.mem_append_right _ (List.mem_singleton_self _)),
        List.nil_append, expected, hp, reason_of_not_joined (h.joined_ne hid)]
      split <;> rfl
    · rw [if_neg hne, List.append_nil]
      simp only [mem_append_singleton_of_ne hne]
  · intro id'
    rw [hchannels, h.registered, hstart, hkill]
    by_cases hne : id = id'
    · subst hne
      simp [hid]
    · simp only [mem_append_singleton_of_ne hne, hne, false_and, if_false]

theorem get_remove (m : PtyManager) (id id' : String) :
    (m.remove id).channels.get id' = if id = id' then none else m.channels.get id' :=
  OrderedMap.get_delete m.channels id id'

/-- What the body of the first loop does to a registered channel. -/
theorem signal_cases (w : Sweep) (hget : m.channels.get id = some process) :
    (¬KillFailed (w.kill id) ∧ (w.kill id).isOk = true ∧ Sweep.signal w.kill (m, w) id =
        (m.remove id, { w with waits := w.waits ++ [⟨id, process.pid⟩] })) ∨
      (¬KillFailed (w.kill id) ∧ (w.kill id).isOk = false ∧ Sweep.signal w.kill (m, w) id =
        (m.remove id, { w with
          summary := w.summary.recordOutcome (.alreadyExited id process.pid) })) ∨
      ∃ e, KillFailed (w.kill id) ∧ (w.kill id).isOk = false ∧ Sweep.signal w.kill (m, w) id =
        (m, { w with
          summary := w.summary.recordOutcome (.signallingFailed id process.pid e) }) := by
  rw [Sweep.signal, hget]
  dsimp only
  cases w.kill id with
  | ok _ =>
    refine .inl ⟨?_, rfl, rfl⟩
    rintro ⟨e, he, -⟩
    cases he
  | error e =>
    rw [startTeardown]
    cases hinvalid : e.invalidInput with
    | true =>
      refine .inr (.inl ⟨?_, rfl, rfl⟩)
      rintro ⟨e', he, he'⟩
      cases he
      rw [hinvalid] at he'
      cases he'
    | false => exact .inr (.inr ⟨e, ⟨e, rfl, hinvalid⟩, rfl, rfl⟩)

/-- What signalling leaves as it is. -/
structure Keeps (s s' : PtyManager × Sweep) : Prop where
  shuttingDown : s'.1.shuttingDown = s.1.shuttingDown
  start : s'.2.start = s.2.start
  kill : s'.2.kill = s.2.kill
  joined : s'.2.joined = s.2.joined

theorem frame_signal (kill : String → Except KillError Unit) (s : PtyManager × Sweep)
    (id : String) :
    Keeps s (Sweep.signal kill s id) := by
  rw [Sweep.signal]
  split
  · exact ⟨rfl, rfl, rfl, rfl⟩
  · split <;> exact ⟨rfl, rfl, rfl, rfl⟩

theorem frame_foldl_signal (kill : String → Except KillError Unit) (s : PtyManager × Sweep)
    (ids : List String) : Keeps s (ids.foldl (Sweep.signal kill) s) := by
  induction ids generalizing s with
  | nil => exact ⟨rfl, rfl, rfl, rfl⟩
  | cons id ids ih =>
    have hfirst := frame_signal kill s id
    have hrest := ih (Sweep.signal kill s id)
    exact ⟨hrest.shuttingDown.trans hfirst.shuttingDown, hrest.start.trans hfirst.start,
      hrest.kill.trans hfirst.kill, hrest.joined.trans hfirst.joined⟩

theorem total_recordOutcome (w : Sweep) (outcome : TeardownOutcome) :
    total { w with summary := w.summary.recordOutcome outcome } = w.total + 1 := by
  rw [total, DestroyAllSummary.count_recordOutcome, total]
  dsimp only
  omega

/-- The body of the first loop. -/
theorem Swept.signal (h : Swept ps m w) (hid : id ∉ ps) (hp : w.start.get id = some process) :
    Swept (ps ++ [id]) (Sweep.signal w.kill (m, w) id).1 (Sweep.signal w.kill (m, w) id).2 := by
  have hget : m.channels.get id = some process := by
    rw [h.registered, if_neg fun hmem ↦ hid hmem.1, hp]
  rcases signal_cases w hget with ⟨hnot, hok, heq⟩ | ⟨hnot, hok, heq⟩ | ⟨e, hfailed, hok, heq⟩
  · rw [heq]
    refine h.next hid hp rfl rfl rfl ?_ (by rw [if_pos hok]) ?_ fun id' ↦ ?_
    · rw [Sweep.total, Sweep.total, List.length_append, List.length_singleton]
      rfl
    · rw [if_neg hnot, List.append_nil]
    · rw [get_remove]
      simp only [hnot, not_false_eq_true, and_true]
  · rw [heq]
    refine h.next hid hp rfl rfl rfl (total_recordOutcome w _) ?_ ?_ fun id' ↦ ?_
    · rw [hok, if_neg Bool.false_ne_true, List.append_nil]
    · rw [if_neg hnot, DestroyAllSummary.unresolved_recordOutcome]
      rfl
    · rw [get_remove]
      simp only [hnot, not_false_eq_true, and_true]
  · rw [heq]
    refine h.next hid hp rfl rfl rfl (total_recordOutcome w _) ?_ ?_ fun id' ↦ ?_
    · rw [hok, if_neg Bool.false_ne_true, List.append_nil]
    · rw [if_pos hfailed, DestroyAllSummary.unresolved_recordOutcome]
      rfl
    · rw [if_neg fun hand ↦ hand.2 hfailed]

/-- The first loop. -/
theorem Swept.foldl_signal (h : Swept ps m w) (hnodup : (ps ++ ids).Nodup)
    (hids : ∀ id ∈ ids, (w.start.get id).isSome) :
    Swept (ps ++ ids) (ids.foldl (Sweep.signal w.kill) (m, w)).1
        (ids.foldl (Sweep.signal w.kill) (m, w)).2 := by
  induction ids generalizing ps m w with
  | nil => rwa [List.append_nil]
  | cons id ids ih =>
    obtain ⟨process, hp⟩ := Option.isSome_iff_exists.mp (hids id List.mem_cons_self)
    have hid : id ∉ ps := fun hmem ↦
      (List.nodup_append.mp hnodup).2.2 id hmem id List.mem_cons_self rfl
    have hframe := frame_signal w.kill (m, w) id
    rw [List.append_cons] at hnodup ⊢
    rw [List.foldl_cons]
    have hrest : ∀ id' ∈ ids, ((Sweep.signal w.kill (m, w) id).2.start.get id').isSome := by
      rw [hframe.start]
      exact fun id' hid' ↦ hids id' (List.mem_cons_of_mem _ hid')
    have hfold := ih (h.signal hid hp) hnodup hrest
    rwa [hframe.kill] at hfold

theorem mem_keys_iff {channels : OrderedMap String PtyProcess} :
    id ∈ channels.keys ↔ (channels.get id).isSome := by
  rw [Option.isSome_iff_exists, OrderedMap.keys, List.mem_map]
  constructor
  · rintro ⟨⟨_, p⟩, hmem, rfl⟩
    exact ⟨p, OrderedMap.get_eq_some_iff.mpr hmem⟩
  · rintro ⟨p, hp⟩
    exact ⟨(id, p), OrderedMap.get_eq_some_iff.mp hp, rfl⟩

/-- A sweep that has signalled all channels. -/
theorem swept_begin (hids : ids.Perm m.channels.keys) (kill : String → Except KillError Unit) :
    Swept ids (begin m ids kill).1 (begin m ids kill).2 := by
  let w : Sweep := ⟨[], ⟨0, []⟩, m.channels, kill, []⟩
  have hzero : Swept [] m w := by
    refine ⟨rfl, rfl, fun x hx ↦ (by cases hx), fun id ↦ rfl, fun id ↦ ?_⟩
    rw [if_neg fun hand ↦ List.not_mem_nil hand.1]
  have hnodup : ([] ++ ids).Nodup := hids.nodup_iff.mpr m.channels.nodup
  exact hzero.foldl_signal hnodup fun id hid ↦ mem_keys_iff.mp (hids.mem_iff.mp hid)

theorem joined_join (w : Sweep) (wait : TeardownWait) (waits : List TeardownWait)
    (joined : Joined) :
    (w.join wait waits joined).joined = w.joined ++ [(wait.channelId, joined)] := rfl

theorem start_join (w : Sweep) (wait : TeardownWait) (waits : List TeardownWait) (joined : Joined) :
    (w.join wait waits joined).start = w.start := rfl

theorem kill_join (w : Sweep) (wait : TeardownWait) (waits : List TeardownWait) (joined : Joined) :
    (w.join wait waits joined).kill = w.kill := rfl

/-- What joining a task adds to the summary. -/
theorem unresolved_join (w : Sweep) (wait : TeardownWait) (waits : List TeardownWait)
    (joined : Joined) : (w.join wait waits joined).summary.unresolved =
      w.summary.unresolved ++
        (joined.reason.map fun r ↦ (⟨wait.channelId, wait.pid, r⟩ : UnresolvedChannel)).toList := by
  cases joined with
  | taskFailed => rfl
  | finished waited =>
    rw [join, DestroyAllSummary.unresolved_recordOutcome]
    cases waited <;> rfl

theorem total_join {wait : TeardownWait} {waits : List TeardownWait}
    (hwaits : w.waits = wait :: waits)
    (joined : Joined) : (w.join wait waits joined).total = w.total := by
  rw [total, total, hwaits, List.length_cons]
  cases joined with
  | taskFailed =>
    rw [unresolved_join, List.length_append]
    dsimp only [join, Joined.reason, Option.map_some, Option.toList_some, List.length_singleton]
    omega
  | finished waited =>
    rw [join, DestroyAllSummary.count_recordOutcome]
    dsimp only
    omega

/-- The body of the second loop. -/
theorem Swept.join {wait : TeardownWait} {waits : List TeardownWait} (h : Swept ps m w)
    (hnodup : ps.Nodup) (hwaits : w.waits = wait :: waits) (joined : Joined) :
    Swept ps m (w.join wait waits joined) := by
  have hsplit := h.waiting
  rw [hwaits, List.map_cons] at hsplit
  obtain ⟨hmem, hok⟩ : wait.channelId ∈ ps ∧ (w.kill wait.channelId).isOk = true := by
    rw [← List.mem_filter (p := fun id ↦ (w.kill id).isOk), ← hsplit]
    exact List.mem_append_right _ List.mem_cons_self
  have hjoined : ∀ x ∈ w.joined, x.1 ≠ wait.channelId := by
    have hfilter : (ps.filter fun id ↦ (w.kill id).isOk).Nodup := hnodup.filter _
    rw [← hsplit, List.nodup_append] at hfilter
    exact fun x hx ↦ hfilter.2.2 x.1 (List.mem_map_of_mem hx) _ List.mem_cons_self
  have hp : w.start.get wait.channelId = some ⟨wait.pid⟩ :=
    h.pids wait (by rw [hwaits]; exact List.mem_cons_self)
  -- what is waited for was signalled, so that `reason` comes from the join
  obtain ⟨u, hkill⟩ : ∃ u, w.kill wait.channelId = .ok u := by
    cases hkill : w.kill wait.channelId with
    | ok u => exact ⟨u, rfl⟩
    | error e => rw [hkill] at hok; cases hok
  refine ⟨(total_join hwaits joined).trans h.total, ?_, ?_, ?_, h.registered⟩
  · rw [joined_join, List.map_append, List.append_assoc]
    exact hsplit
  · exact fun x hx ↦ h.pids x (by rw [hwaits]; exact List.mem_cons_of_mem _ hx)
  · intro id
    have hown : ∀ u ∈ (joined.reason.map fun r ↦
        (⟨wait.channelId, wait.pid, r⟩ : UnresolvedChannel)).toList,
        u.channelId = wait.channelId := by
      intro u hu
      obtain ⟨r, -, rfl⟩ := Option.map_eq_some_iff.mp (Option.mem_toList.mp hu)
      rfl
    rw [entries_append hown (unresolved_join w wait waits joined), h.entries]
    by_cases hid : wait.channelId = id
    · -- the channel counted as nothing before
      subst hid
      have hbefore : w.reason wait.channelId = none := by
        rw [reason_of_not_joined hjoined, if_neg]
        rintro ⟨e, he, -⟩
        rw [hkill] at he
        cases he
      have hafter : (w.join wait waits joined).reason wait.channelId = joined.reason := by
        have hfind : (w.joined ++ [(wait.channelId, joined)]).find? (fun x ↦ x.1 = wait.channelId)
            = some (wait.channelId, joined) := by
          rw [List.find?_append, List.find?_eq_none.mpr fun x hx hxid ↦
            hjoined x hx (of_decide_eq_true hxid), Option.none_or]
          simp
        rw [reason, kill_join, joined_join, hkill, hfind]
        rfl
      rw [if_pos hmem, if_pos hmem, if_pos rfl, expected, hp, hbefore, expected, hafter, start_join,
        hp]
      rfl
    · have hreason : (w.join wait waits joined).reason id = w.reason id := by
        have hfind : (w.joined ++ [(wait.channelId, joined)]).find? (fun x ↦ x.1 = id)
            = w.joined.find? fun x ↦ x.1 = id := by
          rw [List.find?_append, List.find?_cons_of_neg (by simpa using hid), List.find?_nil,
            Option.or_none]
        rw [reason, kill_join, joined_join, hfind, reason]
      rw [if_neg hid, List.append_nil, expected, expected, hreason, start_join]

theorem frame_begin (m : PtyManager) (ids : List String) (kill : String → Except KillError Unit) :
    Keeps (m, ⟨[], ⟨0, []⟩, m.channels, kill, []⟩) (begin m ids kill) :=
  frame_foldl_signal kill _ ids

theorem size_eq (w : Sweep) {ids : List String} (hids : ids.Perm w.start.keys) :
    ids.length = w.start.size := by
  rw [hids.length_eq, OrderedMap.keys, List.length_map, OrderedMap.size]

/-- The summary is empty of unresolved channels if there is none. -/
theorem unresolved_eq_nil_iff (h : ∀ id, w.entries id = w.expected id) :
    w.summary.unresolved = [] ↔ ∀ id, (w.start.get id).isSome → w.reason id = none := by
  constructor
  · intro hnil id hid
    obtain ⟨p, hp⟩ := Option.isSome_iff_exists.mp hid
    have hentries := h id
    rw [entries, hnil, List.filter_nil, expected, hp] at hentries
    cases hreason : w.reason id with
    | none => rfl
    | some r => rw [hreason] at hentries; cases hentries
  · intro hall
    rw [List.eq_nil_iff_forall_not_mem]
    intro u hu
    have hmem : u ∈ w.entries u.channelId := List.mem_filter.mpr ⟨hu, decide_eq_true rfl⟩
    rw [h, expected] at hmem
    obtain ⟨p, hp, hr⟩ := Option.bind_eq_some_iff.mp (Option.mem_toList.mp hmem)
    rw [hall u.channelId (Option.isSome_iff_exists.mpr ⟨p, hp⟩)] at hr
    cases hr

end Sweep

/-! ## Every run -/

namespace ManagerState

variable {s s' : ManagerState} {e : ManagerEvent} {es : List ManagerEvent}

/-- The sweep under way has gone through all the channels present at its start, and nothing else has
happened since. -/
def Inv (es : List ManagerEvent) (s : ManagerState) : Prop :=
  ∀ w, s.sweep = some w → ∃ es₁ ids joins t, es = es₁ ++ .destroyAll ids w.kill :: joins.map .join ∧
    Runs.run step new es₁ = some t ∧ w.start = t.manager.channels ∧ w.joined.map Prod.snd = joins ∧
    ids.Perm w.start.keys ∧ Sweep.Swept ids s.manager w

theorem inv_of_idle (h : s.sweep = none) : Inv es s := fun w hw ↦ by
  rw [h] at hw
  cases hw

theorem idle_of_not_isSome (h : ¬s.sweep.isSome = true) : s.sweep = none :=
  Option.not_isSome_iff_eq_none.mp h

theorem Inv.step (h : Inv es s) (hrun : Runs.run step new es = some s) :
    Ensures (Inv (es ++ [e])) (s.step e) := by
  cases e with
  | spawn channelId ulid started =>
    rw [ManagerState.step]
    refine .guardNot fun hidle ↦ ?_
    split <;> exact .of_some (inv_of_idle (idle_of_not_isSome hidle))
  -- The manager is locked while a sweep is under way.
  | remove _ | destroy _ _ | beginShutdown =>
    rw [ManagerState.step]
    exact .guardNot fun hidle ↦ .of_some (inv_of_idle (idle_of_not_isSome hidle))
  | destroyAll ids kill =>
    rw [ManagerState.step]
    refine .guardNot fun hguard ↦ ?_
    rw [not_or, not_not] at hguard
    refine .of_some ?_
    intro w hw
    cases hw
    have hframe := Sweep.frame_begin s.manager ids kill
    refine ⟨es, ids, [], s, ?_, hrun, hframe.start, ?_, ?_, Sweep.swept_begin hguard.2 kill⟩
    · rw [hframe.kill]
      rfl
    · rw [hframe.joined]
      rfl
    · rw [hframe.start]
      exact hguard.2
  | join joined =>
    rw [ManagerState.step]
    split
    · exact .of_none
    · rename_i w hw
      split
      · exact .of_none
      · rename_i wait waits hwaits
        refine .of_some ?_
        obtain ⟨es₁, ids, joins, t, rfl, ht, hstart, hjoins, hids, hswept⟩ := h w hw
        intro w' hw'
        cases hw'
        refine ⟨es₁, ids, joins ++ [joined], t, ?_, ht, hstart, ?_, hids,
          hswept.join (hids.nodup_iff.mpr w.start.nodup) hwaits joined⟩
        · rw [List.map_append, List.append_assoc, List.cons_append]
          rfl
        · rw [Sweep.joined_join, List.map_append, hjoins]
          rfl
  | finish =>
    rw [ManagerState.step]
    split
    · exact .of_none
    · exact .guard fun _ ↦ .of_some (inv_of_idle rfl)

theorem inv_run (h : Runs.run step new es = some s) : Inv es s :=
  Runs.run_history Inv (inv_of_idle rfl) (fun _ _ _ _ hrun hinv hstep ↦ hinv.step hrun hstep) h

/-- Once shutdown has begun, channels only go. -/
def Closing (channels : OrderedMap String PtyProcess) (s : ManagerState) : Prop :=
  s.manager.shuttingDown = true ∧
    ∀ id p, s.manager.channels.get id = some p → channels.get id = some p

theorem Closing.step {channels : OrderedMap String PtyProcess} (h : Closing channels s) :
    Ensures (Closing channels) (s.step e) := by
  obtain ⟨hshutting, hkept⟩ := h
  have hremove : ∀ c, Closing channels { s with manager := s.manager.remove c } := by
    refine fun c ↦ ⟨hshutting, fun id p hp ↦ ?_⟩
    rw [Sweep.get_remove] at hp
    split at hp
    · cases hp
    · exact hkept id p hp
  cases e with
  | spawn channelId ulid started =>
    rw [ManagerState.step, PtyManager.spawn.eq_def, if_pos hshutting]
    exact .guardNot fun _ ↦ .of_some ⟨hshutting, hkept⟩
  | remove channelId =>
    rw [ManagerState.step]
    exact .guardNot fun _ ↦ .of_some (hremove channelId)
  | destroy channelId kill =>
    rw [ManagerState.step]
    refine .guardNot fun _ ↦ .of_some ?_
    rw [destroy]
    split
    · exact ⟨hshutting, hkept⟩
    · split
      · exact hremove channelId
      · exact ⟨hshutting, hkept⟩
  | beginShutdown =>
    rw [ManagerState.step]
    exact .guardNot fun _ ↦ .of_some ⟨rfl, hkept⟩
  | destroyAll ids kill =>
    rw [ManagerState.step]
    refine .guardNot fun hguard ↦ ?_
    rw [not_or, not_not] at hguard
    refine .of_some ?_
    have hframe := Sweep.frame_begin s.manager ids kill
    refine ⟨hframe.shuttingDown.trans hshutting, fun id p hp ↦ hkept id p ?_⟩
    rw [(Sweep.swept_begin hguard.2 kill).registered, hframe.start] at hp
    split at hp
    · cases hp
    · exact hp
  | join joined =>
    rw [ManagerState.step]
    split
    · exact .of_none
    · split
      · exact .of_none
      · exact .of_some ⟨hshutting, hkept⟩
  | finish =>
    rw [ManagerState.step]
    split
    · exact .of_none
    · exact .guard fun _ ↦ .of_some ⟨hshutting, hkept⟩

/-- What a sweep that is over has done to the channels that were registered at its start. -/
structure AccountsForAll (start : OrderedMap String PtyProcess) (w : Sweep)
    (after : PtyManager) : Prop where
  count : w.summary.confirmedShellExits + w.summary.unresolved.length = start.size
  once : ∀ id, w.entries id = w.expected id
  registered : ∀ id, after.channels.get id = if KillFailed (w.kill id) then start.get id else none
  exitStatus : teardownExitStatus w.summary = 0 ↔
    ∀ id, (start.get id).isSome → w.reason id = none

/-- **Teardown**: when `destroy_all` returns, its summary accounts for every channel that was
registered when it began; and since shutdown has begun, no channel has been registered. -/
theorem run_teardown (h : Runs.run step new es = some s) :
    (∀ s', s.step .finish = some s' →
      ∃ w es₁ ids joins t, es = es₁ ++ .destroyAll ids w.kill :: joins.map .join ∧
        Runs.run step new es₁ = some t ∧ w.start = t.manager.channels ∧
        w.joined.map Prod.snd = joins ∧ s'.returned = s.returned ++ [w.summary] ∧
        AccountsForAll t.manager.channels w s'.manager) ∧
      ∀ es₁ es₂ t, es = es₁ ++ es₂ → Runs.run step new es₁ = some t →
        t.manager.shuttingDown = true →
        ∀ id p, s.manager.channels.get id = some p → t.manager.channels.get id = some p := by
  constructor
  · intro s' hstep
    rw [step] at hstep
    split at hstep
    · cases hstep
    · rename_i w hw
      obtain ⟨hwaits, hstep⟩ := Option.ite_none_right_eq_some.mp hstep
      cases hstep
      obtain ⟨es₁, ids, joins, t, hes, ht, hstart, hjoins, hids, hswept⟩ := inv_run h w hw
      have honce : ∀ id, w.entries id = w.expected id := by
        intro id
        rw [hswept.entries]
        split
        · rfl
        · rename_i hid
          have hnone : w.start.get id = none := by
            rw [hids.mem_iff, Sweep.mem_keys_iff] at hid
            exact Option.not_isSome_iff_eq_none.mp hid
          rw [Sweep.expected, hnone]
          rfl
      refine ⟨w, es₁, ids, joins, t, hes, ht, hstart, hjoins, rfl, ?_, honce, ?_, ?_⟩
      · have htotal := hswept.total
        rwa [Sweep.total, hwaits, List.length_nil, Nat.add_zero, Sweep.size_eq w hids,
          hstart] at htotal
      · intro id
        rw [hswept.registered, ← hstart]
        by_cases hfailed : KillFailed (w.kill id)
        · rw [if_pos hfailed, if_neg fun hand ↦ hand.2 hfailed]
        · rw [if_neg hfailed]
          split
          · rfl
          · rename_i hnot
            rw [← Option.not_isSome_iff_eq_none, ← Sweep.mem_keys_iff, ← hids.mem_iff]
            exact fun hid ↦ hnot ⟨hid, hfailed⟩
      · rw [← hstart, ← Sweep.unresolved_eq_nil_iff honce, teardownExitStatus]
        split <;> simp_all
  · rintro es₁ es₂ t rfl ht hshutting
    rw [Runs.run_append, ht, Option.bind_some] at h
    exact (Runs.run_invariant (Closing t.manager.channels) (fun _ _ _ hclosing hstep ↦
      hclosing.step hstep) ⟨hshutting, fun _ _ hp ↦ hp⟩ h).2

theorem run_teardown_twoChannels :
    ∃ s s' w start, Runs.run step new [.spawn (some "a") "" (.ok 1), .spawn (some "b") "" (.ok 2),
        .beginShutdown, .destroyAll ["b", "a"] fun c ↦
          if c = "a" then .ok () else .error ⟨false, "EPERM"⟩,
        .join (.finished .elapsed)] = some s ∧
      s.step .finish = some s' ∧ s'.returned = s.returned ++ [w.summary] ∧
      AccountsForAll start w s'.manager := by
  obtain ⟨w, es₁, ids, joins, t, -, -, -, -, hreturned, haccounts⟩ :=
    (@run_teardown _ [.spawn (some "a") "" (.ok 1), .spawn (some "b") "" (.ok 2),
        .beginShutdown, .destroyAll ["b", "a"] fun c ↦
          if c = "a" then .ok () else .error ⟨false, "EPERM"⟩,
        .join (.finished .elapsed)] rfl).1 _ rfl
  exact ⟨_, _, w, t.manager.channels, rfl, rfl, hreturned, haccounts⟩

end ManagerState

/-! ## The registry of generations -/

/-- What a result of `kill_tree` is for `Registry`. -/
def killTree : Except KillError Unit → KillTree
  | .ok _ => .ok
  | .error e => if e.invalidInput then .invalidInput else .failed

theorem killTree_eq_failed_iff (kill : Except KillError Unit) :
    killTree kill = .failed ↔ KillFailed kill := by
  cases kill with
  | ok _ => exact iff_of_false nofun fun ⟨_, h, _⟩ ↦ by cases h
  | error e =>
    rw [killTree]
    cases he : e.invalidInput with
    | true =>
      refine iff_of_false nofun ?_
      rintro ⟨e', heq, he'⟩
      cases heq
      rw [he] at he'
      cases he'
    | false => exact iff_of_true rfl ⟨e, rfl, he⟩

/-- The registry that knows generations has the channels of the manager. -/
structure Agrees (s : Registry) (m : PtyManager) : Prop where
  shuttingDown : s.shuttingDown = m.shuttingDown
  channels : ∀ c, (s.channels c).isSome = (m.channels.get c).isSome

/-- The one step that `Registry` has for a shutdown is the sweep. -/
theorem Agrees.shutdown {s s' : Registry} {m : PtyManager} (h : Agrees s m) {ids : List String}
    (hids : ids.Perm m.channels.keys) (kill : String → Except KillError Unit)
    (hstep : s.step (.shutdown fun c ↦ killTree (kill c)) = some s') :
    Agrees s' (Sweep.begin m.beginShutdown ids kill).1 := by
  rw [Registry.step] at hstep
  obtain ⟨-, hstep⟩ := Option.ite_none_left_eq_some.mp hstep
  cases hstep
  have hkeeps := Sweep.frame_begin m.beginShutdown ids kill
  refine ⟨hkeeps.shuttingDown.symm, fun c ↦ ?_⟩
  have hregistered := (Sweep.swept_begin (m := m.beginShutdown) hids kill).registered c
  rw [hkeeps.kill, hkeeps.start] at hregistered
  rw [hregistered]
  dsimp only
  rw [if_congr (killTree_eq_failed_iff (kill c)) rfl rfl]
  by_cases hfailed : KillFailed (kill c)
  · rw [if_pos hfailed, if_neg fun hand ↦ hand.2 hfailed]
    exact h.channels c
  · rw [if_neg hfailed]
    split
    · rfl
    · rename_i hnot
      have hc : ¬(m.channels.get c).isSome := by
        rw [← Sweep.mem_keys_iff, ← hids.mem_iff]
        exact fun hmem ↦ hnot ⟨hmem, hfailed⟩
      exact (Bool.not_eq_true _ |>.mp hc).symm

end Lasterm.Agent
