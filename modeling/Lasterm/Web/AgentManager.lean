import Lasterm.Library.OrderedMap
import Lasterm.Library.Runs

/-!
# The fetch jobs of a page

Model of `stores/agent-manager.ts`: the jobs that a page shows as running, and the messages that end
them. The answer to `fetchTarget` names a job, and the message that ends the job may come before it;
such a message is buffered, and replayed when the job is accepted.

The hub gives the same job to whoever asks for its target while it runs, so that a job can be
accepted twice. `settled_iff_careful` says that the page is right about its jobs as long as no
answer comes for a job that was accepted before and is over. What it does with such an answer is to
list the job for good: nothing is left in the buffer that would end it.
-/

namespace Lasterm.Web

open Runs

/-! ## The store -/

inductive FetchPhase
  | download
  | verify
  deriving DecidableEq

structure AgentFetchJob where
  jobId : String
  os : String
  arch : String
  downloaded : ℕ
  total : Option ℕ
  phase : FetchPhase

structure AgentFetchTerminalError where
  jobId : String
  code : String
  message : String

/-- AGENT_FETCH_DONE and AGENT_FETCH_ERROR. -/
inductive FetchTerminal
  | done (jobId path : String)
  | error (jobId code message : String)

namespace FetchTerminal

def jobId : FetchTerminal → String
  | .done jobId _ | .error jobId _ _ => jobId

def failure : FetchTerminal → Option AgentFetchTerminalError
  | .done _ _ => none
  | .error jobId code message => some ⟨jobId, code, message⟩

end FetchTerminal

/-- AGENT_FETCH_PROGRESS. -/
structure FetchProgress where
  jobId : String
  os : String
  arch : String
  downloaded : ℕ
  total : Option ℕ
  phase : FetchPhase

/-- What `normalizeFetchSnapshot` keeps of a snapshot. -/
structure FetchSnapshot where
  downloaded : Option ℕ
  total : Option ℕ
  phase : Option FetchPhase

def agentTargetKey (os arch : String) : String := os ++ ":" ++ arch

def AGENT_FETCH_TERMINAL_BUFFER_TTL_MS : ℕ := 30000

def AGENT_FETCH_TERMINAL_BUFFER_MAX : ℕ := 32

structure AgentManager where
  jobsById : OrderedMap String AgentFetchJob
  targetJobIds : OrderedMap String String
  /-- With the time of receipt. -/
  bufferedFetchTerminals : OrderedMap String (FetchTerminal × ℕ)
  lastFetchError : Option AgentFetchTerminalError

namespace AgentManager

def new : AgentManager := ⟨.empty, .empty, .empty, none⟩

variable (s : AgentManager)

def setJob (job : AgentFetchJob) : AgentManager :=
  { s with
    jobsById := s.jobsById.set job.jobId job
    targetJobIds := s.targetJobIds.set (agentTargetKey job.os job.arch) job.jobId }

def removeJob (jobId : String) : AgentManager :=
  match s.jobsById.get jobId with
  | none => s
  | some job =>
    let key := agentTargetKey job.os job.arch
    { s with
      jobsById := s.jobsById.delete jobId
      targetJobIds :=
        if s.targetJobIds.get key = some jobId then s.targetJobIds.delete key else s.targetJobIds }

/-- The `while` loop deletes the oldest entries until no more than the maximum are left. -/
def pruneBufferedFetchTerminals (now : ℕ) (m : OrderedMap String (FetchTerminal × ℕ)) :
    OrderedMap String (FetchTerminal × ℕ) :=
  let fresh := m.filter fun _ e ↦ !decide (AGENT_FETCH_TERMINAL_BUFFER_TTL_MS < now - e.2)
  fresh.drop (fresh.size - AGENT_FETCH_TERMINAL_BUFFER_MAX)

def bufferFetchTerminal (now : ℕ) (message : FetchTerminal) : AgentManager :=
  let pruned := pruneBufferedFetchTerminals now s.bufferedFetchTerminals
  { s with
    bufferedFetchTerminals := pruneBufferedFetchTerminals now
      ((pruned.delete message.jobId).set message.jobId (message, now)) }

def applyFetchTerminal (message : FetchTerminal) : AgentManager :=
  { s with lastFetchError := message.failure <|> s.lastFetchError }.removeJob message.jobId

/-- The part behind the pruning. -/
def replayPruned (jobId : String) : AgentManager :=
  match s.bufferedFetchTerminals.get jobId with
  | none => s
  | some entry =>
    { s with
      bufferedFetchTerminals := s.bufferedFetchTerminals.delete jobId }.applyFetchTerminal entry.1

def replayBufferedFetchTerminal (now : ℕ) (jobId : String) : AgentManager :=
  { s with
    bufferedFetchTerminals :=
      pruneBufferedFetchTerminals now s.bufferedFetchTerminals }.replayPruned jobId

/-- The job that `recordAcceptedFetch` starts from. -/
def acceptedJob (os arch jobId : String) (snapshot : Option FetchSnapshot) : AgentFetchJob where
  jobId := jobId
  os := os
  arch := arch
  downloaded := (snapshot.bind FetchSnapshot.downloaded).getD 0
  total := snapshot.bind FetchSnapshot.total
  phase := (snapshot.bind FetchSnapshot.phase).getD .download

def recordAcceptedFetch (now : ℕ) (os arch jobId : String) (snapshot : Option FetchSnapshot) :
    AgentManager :=
  (s.setJob (acceptedJob os arch jobId snapshot)).replayBufferedFetchTerminal now jobId

def handleAgentFetchProgress (message : FetchProgress) : AgentManager :=
  match s.jobsById.get message.jobId with
  | none => s
  | some current => s.setJob
    { current with
      os := message.os
      arch := message.arch
      downloaded := message.downloaded
      phase := message.phase
      total := message.total <|> current.total }

/-- `handleAgentFetchDone` and `handleAgentFetchError`. -/
def handleAgentFetchTerminal (now : ℕ) (message : FetchTerminal) : AgentManager :=
  if (s.jobsById.get message.jobId).isNone then s.bufferFetchTerminal now message
  else s.applyFetchTerminal message

/-! ### The buffer -/

/-- The buffer holds messages that wait for their jobs, and all of those that are not too old. -/
structure Buffers (m : OrderedMap String (FetchTerminal × ℕ)) (now : ℕ)
    (waits : String → FetchTerminal × ℕ → Prop) : Prop where
  sound : ∀ j e, m.get j = some e → waits j e
  kept : ∀ j e, waits j e → now - e.2 ≤ AGENT_FETCH_TERMINAL_BUFFER_TTL_MS → m.get j = some e
  room : m.size ≤ AGENT_FETCH_TERMINAL_BUFFER_MAX

namespace Buffers

variable {m : OrderedMap String (FetchTerminal × ℕ)} {now now' : ℕ}
  {waits waits' : String → FetchTerminal × ℕ → Prop} {j : String} {e : FetchTerminal × ℕ}

section

variable (h : Buffers m now waits)
include h

theorem congr (hiff : ∀ j e, waits j e ↔ waits' j e) :
    Buffers m now waits' where
  sound j e he := (hiff j e).mp (h.sound j e he)
  kept j e he := h.kept j e ((hiff j e).mpr he)
  room := h.room

theorem later (hle : now ≤ now') : Buffers m now' waits where
  sound := h.sound
  kept j e he htime := h.kept j e he (Nat.le_trans (Nat.sub_le_sub_right hle _) htime)
  room := h.room

theorem get_prune : (pruneBufferedFetchTerminals now m).get j = some e ↔
      m.get j = some e ∧ now - e.2 ≤ AGENT_FETCH_TERMINAL_BUFFER_TTL_MS := by
  rw [pruneBufferedFetchTerminals, Nat.sub_eq_zero_of_le, OrderedMap.drop_zero,
    OrderedMap.get_filter_eq_some_iff]
  · simp
  · exact Nat.le_trans (List.length_filter_le ..) h.room

theorem prune :
    Buffers (pruneBufferedFetchTerminals now m) now waits where
  sound j e he := h.sound j e (h.get_prune.mp he).1
  kept j e he htime := h.get_prune.mpr ⟨h.kept j e he htime, htime⟩
  room := by
    rw [pruneBufferedFetchTerminals, OrderedMap.size, OrderedMap.drop, List.length_drop,
      ← OrderedMap.size]
    omega

theorem delete (j : String) :
    Buffers (m.delete j) now fun k e ↦ waits k e ∧ j ≠ k where
  sound k e he := by
    rw [OrderedMap.get_delete] at he
    split at he
    · cases he
    · rename_i hne
      exact ⟨h.sound k e he, hne⟩
  kept k e he htime := by
    rw [OrderedMap.get_delete, if_neg he.2]
    exact h.kept k e he.1 htime
  room := Nat.le_trans (List.length_filter_le ..) h.room

theorem set (hnone : m.get j = none)
    (hroom : m.size < AGENT_FETCH_TERMINAL_BUFFER_MAX) (e : FetchTerminal × ℕ)
    (hj : ∀ e', ¬ waits j e') :
    Buffers (m.set j e) now fun k e' ↦ waits k e' ∨ (j = k ∧ e = e') where
  sound k e' he := by
    rw [OrderedMap.get_set] at he
    split at he
    · rename_i heq
      exact .inr ⟨heq, Option.some.inj he⟩
    · exact .inl (h.sound k e' he)
  kept k e' he htime := by
    rw [OrderedMap.get_set]
    rcases he with he | ⟨heq, rfl⟩
    · have hne : j ≠ k := by
        rintro rfl
        exact hj e' he
      rw [if_neg hne]
      exact h.kept k e' he htime
    · rw [if_pos heq]
  room := by
    rw [OrderedMap.size_set_of_get_eq_none hnone]
    exact hroom

end

end Buffers

theorem replayPruned_of_eq_none {t : AgentManager} {j : String}
    (h : t.bufferedFetchTerminals.get j = none) : t.replayPruned j = t := by
  rw [replayPruned, h]

theorem replayPruned_of_eq_some {t : AgentManager} {j : String} {e : FetchTerminal × ℕ}
    (h : t.bufferedFetchTerminals.get j = some e) :
    t.replayPruned j =
      { t with bufferedFetchTerminals := t.bufferedFetchTerminals.delete j }.applyFetchTerminal
        e.1 := by
  rw [replayPruned, h]

/-! ### Single jobs -/

variable {t : AgentManager} {j k : String}

theorem get_removeJob (t : AgentManager) (j k : String) :
    (t.removeJob j).jobsById.get k = if j = k then none else t.jobsById.get k := by
  rw [removeJob]
  split
  · rename_i hnone
    split
    · rename_i heq
      exact heq ▸ hnone
    · rfl
  · exact OrderedMap.get_delete ..

theorem removeJob_fields (t : AgentManager) (j : String) :
    (t.removeJob j).bufferedFetchTerminals = t.bufferedFetchTerminals ∧
      (t.removeJob j).lastFetchError = t.lastFetchError := by
  rw [removeJob]
  split <;> exact ⟨rfl, rfl⟩

/-- The targets name listed jobs, each under its own target. -/
def Keyed (t : AgentManager) : Prop :=
  ∀ key j, t.targetJobIds.get key = some j →
    ∃ job, t.jobsById.get j = some job ∧ key = agentTargetKey job.os job.arch

theorem Keyed.removeJob (h : t.Keyed) (j : String) : (t.removeJob j).Keyed := by
  intro key k hk
  rw [get_removeJob]
  rw [AgentManager.removeJob] at hk
  split at hk
  · rename_i hnone
    obtain ⟨job, hjob, hkey⟩ := h key k hk
    have hne : j ≠ k := by
      rintro rfl
      cases hnone.symm.trans hjob
    exact ⟨job, by rwa [if_neg hne], hkey⟩
  · rename_i job hjob
    have hold : t.targetJobIds.get key = some k ∧ j ≠ k := by
      dsimp only at hk
      split at hk
      · rw [OrderedMap.get_delete] at hk
        obtain ⟨hkey, hk⟩ := Option.ite_none_left_eq_some.mp hk
        refine ⟨hk, ?_⟩
        rintro rfl
        -- the job stood under its own target, and there alone
        obtain ⟨job', hjob', hkey'⟩ := h key j hk
        cases hjob.symm.trans hjob'
        exact hkey hkey'.symm
      · rename_i hother
        refine ⟨hk, ?_⟩
        rintro rfl
        obtain ⟨job', hjob', rfl⟩ := h key j hk
        cases hjob.symm.trans hjob'
        exact hother hk
    obtain ⟨job', hjob', hkey⟩ := h key k hold.1
    exact ⟨job', by rwa [if_neg hold.2], hkey⟩

/-- A job that is listed again keeps its target. -/
theorem Keyed.setJob (h : t.Keyed) {job : AgentFetchJob}
    (hsame : ∀ old ∈ t.jobsById.get job.jobId, old.os = job.os ∧ old.arch = job.arch) :
    (t.setJob job).Keyed := by
  intro key k hk
  rw [AgentManager.setJob, OrderedMap.get_set] at hk ⊢
  split at hk
  · rename_i hkey
    cases hk
    exact ⟨job, if_pos rfl, hkey.symm⟩
  · obtain ⟨old, hold, hkey⟩ := h key k hk
    split
    · rename_i heq
      obtain ⟨hos, harch⟩ := hsame old (heq ▸ hold)
      exact ⟨job, rfl, by rw [hkey, hos, harch]⟩
    · exact ⟨old, hold, hkey⟩

/-- The listed jobs are those for which `opened` holds. -/
structure Lists (target : String → String × String) (t : AgentManager) (opened : String → Prop) :
    Prop where
  job : ∀ j job, t.jobsById.get j = some job →
    job.jobId = j ∧ target j = (job.os, job.arch) ∧ opened j
  listed : ∀ j, opened j → (t.jobsById.get j).isSome
  keyed : t.Keyed

namespace Lists

variable {target : String → String × String} {opened opened' : String → Prop}

theorem congr (h : t.Lists target opened) (hiff : ∀ j, opened j ↔ opened' j) :
    t.Lists target opened' where
  job j job hjob := by
    obtain ⟨hkey, htarget, hopened⟩ := h.job j job hjob
    exact ⟨hkey, htarget, (hiff j).mp hopened⟩
  listed j hj := h.listed j ((hiff j).mpr hj)
  keyed := h.keyed

theorem setJob (h : t.Lists target opened) {job : AgentFetchJob}
    (htarget : target job.jobId = (job.os, job.arch)) :
    (t.setJob job).Lists target fun j ↦ opened j ∨ job.jobId = j where
  job j job' hjob := by
    rw [AgentManager.setJob, OrderedMap.get_set] at hjob
    split at hjob
    · rename_i heq
      cases hjob
      exact ⟨heq, heq ▸ htarget, .inr heq⟩
    · obtain ⟨hid, htarget', hopened⟩ := h.job j job' hjob
      exact ⟨hid, htarget', .inl hopened⟩
  listed j hj := by
    rw [AgentManager.setJob, OrderedMap.get_set]
    split
    · rfl
    · rename_i hne
      exact h.listed j (hj.resolve_right hne)
  keyed := by
    apply h.keyed.setJob
    intro old hold
    obtain ⟨-, htarget', -⟩ := h.job _ _ hold
    exact Prod.mk.inj (htarget'.symm.trans htarget)

theorem applyFetchTerminal (h : t.Lists target opened) (m : FetchTerminal) :
    (t.applyFetchTerminal m).Lists target fun j ↦ opened j ∧ m.jobId ≠ j := by
  have hget (j : String) : (t.applyFetchTerminal m).jobsById.get j =
      if m.jobId = j then none else t.jobsById.get j := get_removeJob ..
  have hkeyed : Keyed { t with lastFetchError := m.failure <|> t.lastFetchError } := h.keyed
  refine ⟨fun j job hjob ↦ ?_, fun j hj ↦ ?_, hkeyed.removeJob m.jobId⟩
  · rw [hget] at hjob
    split at hjob
    · cases hjob
    · rename_i hne
      obtain ⟨hid, htarget, hopened⟩ := h.job j job hjob
      exact ⟨hid, htarget, hopened, hne⟩
  · rw [hget, if_neg hj.2]
    exact h.listed j hj.1

theorem handleAgentFetchProgress (h : t.Lists target opened) {m : FetchProgress}
    (htarget : target m.jobId = (m.os, m.arch)) :
    (t.handleAgentFetchProgress m).Lists target opened := by
  rw [AgentManager.handleAgentFetchProgress]
  split
  · exact h
  · rename_i current hcurrent
    obtain ⟨hid, -, hopened⟩ := h.job _ _ hcurrent
    refine (h.setJob (hid ▸ htarget)).congr fun j ↦ or_iff_left_of_imp fun hj ↦ ?_
    exact hj ▸ hid ▸ hopened

theorem emptied (h : t.Lists target opened) (hnone : ∀ j, ¬ opened j) :
    t.jobsById.entries = [] ∧ t.targetJobIds.entries = [] := by
  constructor
  · rw [List.eq_nil_iff_forall_not_mem]
    rintro ⟨j, job⟩ hmem
    exact hnone j (h.job j job (OrderedMap.get_eq_some_iff.mpr hmem)).2.2
  · rw [List.eq_nil_iff_forall_not_mem]
    rintro ⟨key, j⟩ hmem
    obtain ⟨job, hjob, -⟩ := h.keyed key j (OrderedMap.get_eq_some_iff.mpr hmem)
    exact hnone j (h.job j job hjob).2.2

end Lists

end AgentManager

/-! ## The store between the hub's answers and its messages -/

/-- What `fetchTarget` gets: an accepted job, or an answer that names none. -/
inductive FetchResponse
  | accepted (jobId : String) (snapshot : Option FetchSnapshot)
  | alreadyCached
  | failed

structure FetchClient where
  store : AgentManager
  now : ℕ
  /-- The jobs that an answer has named. -/
  accepted : List String
  /-- The messages that ended jobs, with the times when they came. -/
  delivered : OrderedMap String (FetchTerminal × ℕ)
  /-- Those of accepted jobs, in the order in which they could first be applied. -/
  applied : List FetchTerminal

inductive FetchEvent
  | pass (ms : ℕ)
  | response (os arch : String) (r : FetchResponse)
  | progress (message : FetchProgress)
  | terminal (message : FetchTerminal)

namespace FetchClient

def start : FetchClient := ⟨.new, 0, [], .empty, []⟩

variable (s : FetchClient)

/-- The message that ended a job came at most 30 seconds ago, or is still to come. -/
def Timely (jobId : String) : Prop :=
  ∀ e ∈ s.delivered.get jobId, s.now - e.2 ≤ AGENT_FETCH_TERMINAL_BUFFER_TTL_MS

instance (jobId : String) : Decidable (s.Timely jobId) :=
  inferInstanceAs (Decidable (∀ e ∈ s.delivered.get jobId, _))

/-- There is room in the buffer for one more message. -/
def HasRoom : Prop :=
  (AgentManager.pruneBufferedFetchTerminals s.now s.store.bufferedFetchTerminals).size <
    AGENT_FETCH_TERMINAL_BUFFER_MAX

instance : Decidable s.HasRoom := inferInstanceAs (Decidable (_ < _))

def accept (os arch jobId : String) (snapshot : Option FetchSnapshot) : FetchClient :=
  { s with
    store := s.store.recordAcceptedFetch s.now os arch jobId snapshot
    accepted := s.accepted ++ [jobId]
    applied := s.applied ++
      if jobId ∈ s.accepted then [] else ((s.delivered.get jobId).map Prod.fst).toList }

def deliver (message : FetchTerminal) : FetchClient :=
  { s with
    store := s.store.handleAgentFetchTerminal s.now message
    delivered := s.delivered.set message.jobId (message, s.now)
    applied := s.applied ++ if message.jobId ∈ s.accepted then [message] else [] }

/-- One event. The job has its target from the hub, is ended once and answered in time, and the
buffer does not run full. -/
def step (target : String → String × String) (s : FetchClient) : FetchEvent → Option FetchClient
  | .pass ms => some { s with now := s.now + ms }
  | .response os arch (.accepted jobId snapshot) =>
    if target jobId = (os, arch) ∧ s.Timely jobId then some (s.accept os arch jobId snapshot)
    else none
  | .response _ _ .alreadyCached | .response _ _ .failed => some s
  | .progress message =>
    if target message.jobId = (message.os, message.arch) then
      some { s with store := s.store.handleAgentFetchProgress message }
    else none
  | .terminal message =>
    if s.delivered.get message.jobId = none ∧
        (s.store.jobsById.get message.jobId = none → s.HasRoom) then
      some (s.deliver message)
    else none

/-! ## The jobs settle -/

def lastError (applied : List FetchTerminal) : Option AgentFetchTerminalError :=
  (applied.filterMap FetchTerminal.failure).getLast?

/-- What there is to say of a state. -/
structure Settled : Prop where
  listed : ∀ jobId job, s.store.jobsById.get jobId = some job →
    jobId ∈ s.accepted ∧ s.delivered.get jobId = none
  emptied : (∀ jobId ∈ s.accepted, s.delivered.get jobId ≠ none) →
    s.store.jobsById.entries = [] ∧ s.store.targetJobIds.entries = []
  lastFetchError : s.store.lastFetchError = lastError s.applied

/-- No answer names a job that was accepted before and is over. -/
def Careful : FetchEvent → Prop
  | .response _ _ (.accepted jobId _) => jobId ∈ s.accepted → s.delivered.get jobId = none
  | _ => True

instance (e : FetchEvent) : Decidable (s.Careful e) := by
  rcases e with _ | ⟨_, _, _ | _ | _⟩ | _ | _ <;> dsimp only [Careful] <;> infer_instance

/-- An accepted job that is not over. -/
def Opened (j : String) : Prop := j ∈ s.accepted ∧ s.delivered.get j = none

/-- A message that came before its job was accepted. -/
def Waits (j : String) (e : FetchTerminal × ℕ) : Prop :=
  s.delivered.get j = some e ∧ j ∉ s.accepted

structure Inv (target : String → String × String) : Prop where
  lists : s.store.Lists target s.Opened
  buffers : AgentManager.Buffers s.store.bufferedFetchTerminals s.now s.Waits
  named : ∀ j e, s.delivered.get j = some e → e.1.jobId = j
  error : s.store.lastFetchError = lastError s.applied

variable {s} {s' : FetchClient} {target : String → String × String}

theorem inv_start : start.Inv target := by
  refine ⟨⟨nofun, fun j hj ↦ ?_, nofun⟩, ⟨nofun, fun j e he ↦ ?_, Nat.zero_le _⟩, nofun, rfl⟩
  · cases hj.1
  · cases he.1

theorem Inv.settled (h : s.Inv target) : s.Settled where
  listed j job hjob := (h.lists.job j job hjob).2.2
  emptied hall := h.lists.emptied fun j hj ↦ hall j hj.1 hj.2
  lastFetchError := h.error

theorem Inv.get_eq_none (h : s.Inv target) {j : String} (hnot : j ∉ s.accepted) :
    s.store.jobsById.get j = none := by
  rw [← Option.not_isSome_iff_eq_none]
  intro hsome
  obtain ⟨job, hjob⟩ := Option.isSome_iff_exists.mp hsome
  exact hnot (h.lists.job _ _ hjob).2.2.1

theorem lastError_append (applied : List FetchTerminal) (m : FetchTerminal) :
    lastError (applied ++ [m]) = (m.failure <|> lastError applied) := by
  rw [lastError, List.filterMap_append]
  cases m with
  | done j path => simp [FetchTerminal.failure, lastError]
  | error j code message => simp [FetchTerminal.failure, lastError]

theorem get_deliver (s : FetchClient) (m : FetchTerminal) (j : String) :
    (s.deliver m).delivered.get j = if m.jobId = j then some (m, s.now) else s.delivered.get j :=
  OrderedMap.get_set ..

theorem Inv.named_deliver (h : s.Inv target) (m : FetchTerminal) {j : String}
    {e : FetchTerminal × ℕ} (he : (s.deliver m).delivered.get j = some e) : e.1.jobId = j := by
  rw [get_deliver] at he
  split at he
  · rename_i heq
    cases he
    exact heq
  · exact h.named j e he

/-- The message that ends a listed job. -/
theorem Inv.deliver_listed (h : s.Inv target) {m : FetchTerminal}
    (hopened : s.Opened m.jobId) : (s.deliver m).Inv target := by
  obtain ⟨haccepted, hnone⟩ := hopened
  obtain ⟨job, hjob⟩ := Option.isSome_iff_exists.mp (h.lists.listed _ ⟨haccepted, hnone⟩)
  have hstore : (s.deliver m).store = s.store.applyFetchTerminal m := by
    rw [deliver, AgentManager.handleAgentFetchTerminal, hjob]
    rfl
  obtain ⟨hbuffer, herror⟩ := AgentManager.removeJob_fields
    { s.store with lastFetchError := m.failure <|> s.store.lastFetchError } m.jobId
  refine ⟨?_, ?_, fun j e ↦ h.named_deliver m, ?_⟩
  · rw [hstore]
    refine (h.lists.applyFetchTerminal m).congr fun j ↦ ?_
    rw [Opened, Opened, get_deliver]
    split <;> simp_all [deliver]
  · rw [hstore, AgentManager.applyFetchTerminal, hbuffer]
    refine h.buffers.congr fun j e ↦ ?_
    rw [Waits, Waits, get_deliver]
    split <;> simp_all [deliver]
  · rw [hstore, AgentManager.applyFetchTerminal, herror, deliver, if_pos haccepted,
      lastError_append, h.error]

/-- The message that ends a job which is not listed. -/
theorem Inv.deliver_waiting (h : s.Inv target) {m : FetchTerminal} (hnot : m.jobId ∉ s.accepted)
    (hroom : s.HasRoom) :
    (s.deliver m).Inv target := by
  have hjob := h.get_eq_none hnot
  have hstore : (s.deliver m).store = s.store.bufferFetchTerminal s.now m := by
    rw [deliver, AgentManager.handleAgentFetchTerminal, hjob]
    rfl
  refine ⟨?_, ?_, fun j e ↦ h.named_deliver m, ?_⟩
  · rw [hstore]
    refine ⟨?_, ?_, h.lists.keyed⟩
    · intro j job hj
      obtain ⟨hid, htarget, hopened⟩ := h.lists.job j job hj
      have hne : m.jobId ≠ j := by
        rintro rfl
        exact hnot hopened.1
      refine ⟨hid, htarget, hopened.1, ?_⟩
      rw [get_deliver, if_neg hne]
      exact hopened.2
    · rintro j ⟨haccepted, hj⟩
      rw [get_deliver] at hj
      split at hj
      · cases hj
      · exact h.lists.listed j ⟨haccepted, hj⟩
  · rw [hstore]
    have hsize : ((AgentManager.pruneBufferedFetchTerminals s.now
        s.store.bufferedFetchTerminals).delete m.jobId).size < AGENT_FETCH_TERMINAL_BUFFER_MAX :=
      Nat.lt_of_le_of_lt (List.length_filter_le ..) hroom
    refine ((h.buffers.prune.delete m.jobId).set (OrderedMap.get_delete_self ..) hsize (m, s.now)
      fun e' he' ↦ he'.2 rfl).prune.congr fun j e ↦ ?_
    rw [Waits, Waits, get_deliver]
    split
    · rename_i heq
      simp [deliver, heq ▸ hnot, heq, eq_comm]
    · rename_i hne
      simp [deliver, hne]
  · rw [hstore, deliver, if_neg hnot, List.append_nil]
    exact h.error

section Accept

variable {os arch j : String} {snapshot : Option FetchSnapshot}

section

variable (h : s.Inv target)
include h

/-- Without a message in the buffer, the job is listed. -/
theorem accept_of_not_waits (hnone : ∀ e, ¬ s.Waits j e) : (s.accept os arch j snapshot).store =
      { s.store.setJob (AgentManager.acceptedJob os arch j snapshot) with
        bufferedFetchTerminals :=
          AgentManager.pruneBufferedFetchTerminals s.now s.store.bufferedFetchTerminals } := by
  have hget : (AgentManager.pruneBufferedFetchTerminals s.now
      s.store.bufferedFetchTerminals).get j = none := by
    rw [Option.eq_none_iff_forall_ne_some]
    intro e he
    exact hnone e (h.buffers.prune.sound j e he)
  exact AgentManager.replayPruned_of_eq_none hget

theorem Inv.accept_open (htarget : target j = (os, arch))
    (hnone : s.delivered.get j = none) : (s.accept os arch j snapshot).Inv target := by
  have hstore : (s.accept os arch j snapshot).store = _ :=
    accept_of_not_waits h fun e he ↦ by cases hnone.symm.trans he.1
  have hopened (k : String) : s.Opened k ∨ j = k ↔ (s.accept os arch j snapshot).Opened k := by
    rw [Opened, Opened, accept, List.mem_append, List.mem_singleton]
    constructor
    · rintro (⟨hk, hd⟩ | rfl)
      · exact ⟨.inl hk, hd⟩
      · exact ⟨.inr rfl, hnone⟩
    · rintro ⟨hk | rfl, hd⟩
      · exact .inl ⟨hk, hd⟩
      · exact .inr rfl
  have hjob : target (AgentManager.acceptedJob os arch j snapshot).jobId = (os, arch) := htarget
  have hlists := (h.lists.setJob hjob).congr hopened
  refine ⟨?_, ?_, h.named, ?_⟩
  · rw [hstore]
    exact ⟨hlists.job, hlists.listed, hlists.keyed⟩
  · rw [hstore]
    refine h.buffers.prune.congr fun k e ↦ ?_
    rw [Waits, Waits, accept, List.mem_append, List.mem_singleton]
    constructor
    · rintro ⟨hd, hk⟩
      refine ⟨hd, ?_⟩
      rintro (hk' | rfl)
      · exact hk hk'
      · cases hnone.symm.trans hd
    · rintro ⟨hd, hk⟩
      exact ⟨hd, fun hk' ↦ hk (.inl hk')⟩
  · rw [hstore, accept, hnone]
    simp only [Option.map_none, Option.toList_none, ite_self, List.append_nil]
    exact h.error

/-- The answer comes behind the message, which is replayed. -/
theorem Inv.accept_ended (htarget : target j = (os, arch))
    {e : FetchTerminal × ℕ} (hwaits : s.Waits j e) (htimely : s.Timely j) :
    (s.accept os arch j snapshot).Inv target := by
  obtain ⟨hdelivered, hnot⟩ := hwaits
  have hid : e.1.jobId = j := h.named j e hdelivered
  have hget : (AgentManager.pruneBufferedFetchTerminals s.now
      s.store.bufferedFetchTerminals).get j = some e :=
    h.buffers.prune.kept j e ⟨hdelivered, hnot⟩ (htimely e hdelivered)
  obtain ⟨t, ht⟩ : ∃ t : AgentManager, t =
      { s.store.setJob (AgentManager.acceptedJob os arch j snapshot) with
        bufferedFetchTerminals := (AgentManager.pruneBufferedFetchTerminals s.now
          s.store.bufferedFetchTerminals).delete j } := ⟨_, rfl⟩
  have hstore : (s.accept os arch j snapshot).store = t.applyFetchTerminal e.1 :=
    ht ▸ AgentManager.replayPruned_of_eq_some hget
  obtain ⟨hbuffer, herror⟩ := AgentManager.removeJob_fields
    { t with lastFetchError := e.1.failure <|> t.lastFetchError } e.1.jobId
  have hjob : target (AgentManager.acceptedJob os arch j snapshot).jobId = (os, arch) := htarget
  have hlists : t.Lists target fun k ↦ s.Opened k ∨ j = k := by
    have hset := h.lists.setJob hjob
    rw [ht]
    exact ⟨hset.job, hset.listed, hset.keyed⟩
  refine ⟨?_, ?_, h.named, ?_⟩
  · -- the job is listed and taken off the list again
    rw [hstore]
    refine (hlists.applyFetchTerminal e.1).congr fun k ↦ ?_
    rw [hid, Opened, Opened, accept, List.mem_append, List.mem_singleton]
    constructor
    · rintro ⟨⟨hk, hd⟩ | rfl, hne⟩
      · exact ⟨.inl hk, hd⟩
      · exact absurd rfl hne
    · rintro ⟨hk | rfl, hd⟩
      · refine ⟨.inl ⟨hk, hd⟩, ?_⟩
        rintro rfl
        exact hnot hk
      · cases hd.symm.trans hdelivered
  · rw [hstore, AgentManager.applyFetchTerminal, hbuffer, ht]
    refine (h.buffers.prune.delete j).congr fun k e' ↦ ?_
    rw [Waits, Waits, accept, List.mem_append, List.mem_singleton, not_or, and_assoc]
    exact and_congr_right fun _ ↦ and_congr_right fun _ ↦ ne_comm
  · rw [hstore, AgentManager.applyFetchTerminal, herror, accept, if_neg hnot, hdelivered, ht]
    simp only [Option.map_some, Option.toList_some]
    rw [lastError_append, ← h.error]
    rfl

/-- A job that is over is listed when it is accepted again. -/
theorem not_settled_accept (haccepted : j ∈ s.accepted)
    (hdelivered : s.delivered.get j ≠ none) : ¬ (s.accept os arch j snapshot).Settled := by
  intro hsettled
  have hstore : (s.accept os arch j snapshot).store = _ :=
    accept_of_not_waits h fun e he ↦ he.2 haccepted
  have hlisted : (s.accept os arch j snapshot).store.jobsById.get j =
      some (AgentManager.acceptedJob os arch j snapshot) := by
    rw [hstore]
    exact OrderedMap.get_set_self ..
  exact hdelivered (hsettled.listed j _ hlisted).2

theorem agrees_accept (htarget : target j = (os, arch)) (htimely : s.Timely j) :
    ((s.accept os arch j snapshot).Settled ↔ s.Careful (.response os arch (.accepted j snapshot))) ∧
      (s.Careful (.response os arch (.accepted j snapshot)) →
        (s.accept os arch j snapshot).Inv target) := by
  have hinv : s.Careful (.response os arch (.accepted j snapshot)) →
      (s.accept os arch j snapshot).Inv target := by
    intro hcareful
    rcases hd : s.delivered.get j with _ | e
    · exact h.accept_open htarget hd
    · have hnot : j ∉ s.accepted := by
        intro hj
        cases hd.symm.trans (hcareful hj)
      exact h.accept_ended htarget ⟨hd, hnot⟩ htimely
  refine ⟨⟨fun hsettled haccepted ↦ ?_, fun hcareful ↦ (hinv hcareful).settled⟩, hinv⟩
  by_contra hd
  exact not_settled_accept h haccepted hd hsettled

end

end Accept

theorem step_agrees {e : FetchEvent} (h : s.Inv target) (hstep : s.step target e = some s') :
    (s'.Settled ↔ s.Careful e) ∧ (s.Careful e → s'.Inv target) := by
  have hkeeps (hinv : s'.Inv target) (hcareful : s.Careful e) :
      (s'.Settled ↔ s.Careful e) ∧ (s.Careful e → s'.Inv target) :=
    ⟨iff_of_true hinv.settled hcareful, fun _ ↦ hinv⟩
  cases e with
  | pass ms =>
    cases hstep
    exact hkeeps ⟨h.lists, h.buffers.later (Nat.le_add_right ..), h.named, h.error⟩ trivial
  | response os arch r =>
    cases r with
    | accepted j snapshot =>
      rw [step, Option.ite_none_right_eq_some] at hstep
      obtain ⟨⟨htarget, htimely⟩, hs'⟩ := hstep
      cases hs'
      exact agrees_accept h htarget htimely
    | alreadyCached =>
      cases hstep
      exact hkeeps h trivial
    | failed =>
      cases hstep
      exact hkeeps h trivial
  | progress m =>
    rw [step, Option.ite_none_right_eq_some] at hstep
    obtain ⟨htarget, hs'⟩ := hstep
    cases hs'
    have hsame : (s.store.handleAgentFetchProgress m).bufferedFetchTerminals =
          s.store.bufferedFetchTerminals ∧
        (s.store.handleAgentFetchProgress m).lastFetchError = s.store.lastFetchError := by
      rw [AgentManager.handleAgentFetchProgress]
      split <;> exact ⟨rfl, rfl⟩
    refine hkeeps ⟨h.lists.handleAgentFetchProgress htarget, ?_, h.named, hsame.2.trans h.error⟩
      trivial
    rw [hsame.1]
    exact h.buffers
  | terminal m =>
    rw [step, Option.ite_none_right_eq_some] at hstep
    obtain ⟨⟨hnone, hroom⟩, hs'⟩ := hstep
    cases hs'
    by_cases haccepted : m.jobId ∈ s.accepted
    · exact hkeeps (h.deliver_listed ⟨haccepted, hnone⟩) trivial
    · exact hkeeps (h.deliver_waiting haccepted (hroom (h.get_eq_none haccepted))) trivial

/-! ## Whole runs -/

/-- **The fetch jobs settle**: in every run, a job is listed only while it is accepted and not over,
nothing is listed once all accepted jobs are over, and the last error is that of the last message
that could be applied, if and only if no answer names a job that was accepted before and is over. -/
theorem settled_iff_careful (target : String → String × String) (es : List FetchEvent) :
    Along (step target) (fun _ _ s' ↦ s'.Settled) start es ↔
      Along (step target) (fun s e _ ↦ s.Careful e) start es :=
  along_congr_of_keeps (fun s ↦ s.Inv target) (fun _ _ _ h hstep ↦ step_agrees h hstep) inv_start

/-- Two requests get the same job, and its DONE comes between the two answers. -/
def acceptedTwice : List FetchEvent :=
  [.response "linux" "x64" (.accepted "job" none), .terminal (.done "job" "agent"),
    .response "linux" "x64" (.accepted "job" none)]

theorem acceptedTwice_stays_listed :
    ∃ s, run (step fun _ ↦ ("linux", "x64")) start acceptedTwice = some s ∧
      s.delivered.get "job" = some (.done "job" "agent", 0) ∧
      s.store.jobsById.keys = ["job"] ∧
      ¬ Along (step fun _ ↦ ("linux", "x64")) (fun _ _ s' ↦ s'.Settled) start acceptedTwice := by
  refine ⟨_, rfl, rfl, rfl, fun halong ↦ ?_⟩
  rw [acceptedTwice] at halong
  repeat rw [along_cons_of_eq rfl] at halong
  obtain ⟨-, -, hlast, -⟩ := halong
  have hlisted := hlast.listed "job" _ rfl
  cases hlisted.2

end FetchClient

end Lasterm.Web
