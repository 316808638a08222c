import Lasterm.Hub.AgentCache
import Lasterm.Library.OrderedMap
import Lasterm.Library.Runs

/-!
# The jobs that fetch agents

Model of `POST /api/agents/fetch` in `api/agents.ts`: the check of the request, the wait while the
cache is examined, the jobs by target, the queue, and the jobs that run. The queue is drained after
the reply that announces a job has been sent, and whenever a job is over.

A job is looked up before the wait and registered after it, so that two requests may both create
one; and a reply that is cut off drains nothing. `healthy_iff_careful` says that nothing else goes
wrong. What a job downloads is left out, and so are the snapshots of its progress.
-/

namespace Lasterm.Hub

open Shell
open Runs (Ensures)

/-! ## Requests -/

/-- A target that releases are built for, with a version. -/
structure FetchTarget where
  os : Text
  arch : Text
  version : Text
  supported : (resolveTarget os arch).isSome = true
  deriving DecidableEq

/-- `agentFetchTargetKey`. -/
def FetchTarget.key (t : FetchTarget) : Text := t.os ++ '/' :: (t.arch ++ '/' :: t.version)

theorem FetchTarget.not_mem (t : FetchTarget) : '/' ∉ t.os ∧ '/' ∉ t.arch := by
  obtain ⟨target, htarget⟩ := Option.isSome_iff_exists.mp t.supported
  have hmem := resolveTarget_eq_some htarget
  have hall : ∀ entry ∈ AGENT_TARGET_TRIPLES, '/' ∉ entry.os ∧ '/' ∉ entry.arch := by decide
  exact hall _ hmem

theorem append_slash_inj {a a' b b' : Text} (ha : '/' ∉ a) (ha' : '/' ∉ a')
    (h : a ++ '/' :: b = a' ++ '/' :: b') : a = a' ∧ b = b' := by
  have heq : a = a' := by
    rw [← takeWhile_ne_append ha b, h, takeWhile_ne_append ha' b']
  subst heq
  exact ⟨rfl, (List.cons.inj (List.append_cancel_left h)).2⟩

theorem FetchTarget.key_injective : Function.Injective FetchTarget.key := by
  intro t t' h
  obtain ⟨hos, harch⟩ := t.not_mem
  obtain ⟨hos', harch'⟩ := t'.not_mem
  obtain ⟨heqos, hrest⟩ := append_slash_inj hos hos' h
  obtain ⟨heqarch, heqversion⟩ := append_slash_inj harch harch' hrest
  cases t
  cases t'
  cases heqos
  cases heqarch
  cases heqversion
  rfl

/-- `none` stands for what is no string, and `version` is what `String` makes of it. -/
structure AgentFetchRequestBody where
  os : Option Text
  arch : Option Text
  version : Option Text

structure FetchRouteDeps where
  hubVersion : Text
  hubPlatform : Option (Text × Text)

/-- The answers with status 400. -/
inductive FetchRouteError
  | unsupportedTarget (os arch : Text)
  | badVersion (version : Text)
  | bundledTarget (os arch : Text)
  deriving DecidableEq

/-- The checks of the handler before it waits. -/
def validateFetch (deps : FetchRouteDeps) (body : AgentFetchRequestBody) :
    Except FetchRouteError FetchTarget :=
  let os := body.os.getD []
  let arch := body.arch.getD []
  let version := body.version.getD deps.hubVersion
  if h : (resolveTarget os arch).isSome = true then
    match validateAgentVersion version with
    | .error _ => .error (.badVersion version)
    | .ok _ =>
      if deps.hubPlatform = some (os, arch) then .error (.bundledTarget os arch)
      else .ok ⟨os, arch, version, h⟩
  else .error (.unsupportedTarget os arch)

/-! ## The state -/

structure FetchJob where
  id : ℕ
  target : FetchTarget
  deriving DecidableEq

/-- AGENT_FETCH_DONE and AGENT_FETCH_ERROR. -/
inductive FetchJobEnd
  | done (path : Text)
  | error (code message : Text)

inductive FetchAnswer
  | rejected (error : FetchRouteError)
  /-- 202, for a job that was there. -/
  | joined (jobId : ℕ)
  /-- 202, for a job that was created. -/
  | created (jobId : ℕ)
  | alreadyCached
  /-- The cache could not be examined. -/
  | failed

/-- How far a request is. -/
inductive RequestPhase
  | idle
  | examining (target : FetchTarget)
  | replying (answer : FetchAnswer)
  /-- The reply is finished, and `setImmediate` is still to drain the queue. -/
  | draining
  | ended

def RequestPhase.isOver : RequestPhase → Bool
  | idle | ended => true
  | _ => false

structure FetchQueue where
  phases : ℕ → RequestPhase
  jobsByTarget : OrderedMap Text FetchJob
  queuedJobs : List FetchJob
  runningJobs : ℕ
  /-- The jobs that `runFetchJob` was called for, up to their `finally`. -/
  running : List FetchJob
  /-- For `generateId`. -/
  nextId : ℕ
  /-- The last messages of the jobs, as they were broadcast. -/
  broadcasts : List (ℕ × FetchJobEnd)

/-- What the examination of the cache can give. -/
inductive CacheExamination
  | cached
  | missing
  | failed
  deriving DecidableEq

inductive FetchQueueEvent
  | post (request : ℕ) (body : AgentFetchRequestBody)
  | examined (request : ℕ) (result : CacheExamination)
  /-- The reply was sent. -/
  | finish (request : ℕ)
  /-- The connection was closed before. -/
  | abort (request : ℕ)
  | immediate (request : ℕ)
  | settle (job : FetchJob) (outcome : FetchJobEnd)
  /-- The `finally` behind `runFetchJob`. -/
  | done (job : FetchJob)

namespace FetchQueue

def AGENT_FETCH_GLOBAL_CONCURRENCY : ℕ := 2

def start : FetchQueue := ⟨fun _ ↦ .idle, .empty, [], 0, [], 0, []⟩

def setPhase (s : FetchQueue) (request : ℕ) (phase : RequestPhase) : FetchQueue :=
  { s with phases := Function.update s.phases request phase }

/-- The loop of `drainFetchQueue`. -/
def drainLoop (s : FetchQueue) : List FetchJob → FetchQueue
  | [] => { s with queuedJobs := [] }
  | job :: jobs =>
    if s.runningJobs < AGENT_FETCH_GLOBAL_CONCURRENCY then
      drainLoop { s with runningJobs := s.runningJobs + 1, running := s.running ++ [job] } jobs
    else { s with queuedJobs := job :: jobs }

def drainFetchQueue (s : FetchQueue) : FetchQueue := drainLoop s s.queuedJobs

/-- The handler up to its first `await`. -/
def post (deps : FetchRouteDeps) (s : FetchQueue) (request : ℕ) (body : AgentFetchRequestBody) :
    FetchQueue :=
  match validateFetch deps body with
  | .error e => s.setPhase request (.replying (.rejected e))
  | .ok target =>
    match s.jobsByTarget.get target.key with
    | some job => s.setPhase request (.replying (.joined job.id))
    | none => s.setPhase request (.examining target)

/-- The handler once the binary is known not to be cached. -/
def enqueue (s : FetchQueue) (request : ℕ) (target : FetchTarget) : FetchQueue :=
  setPhase
    { s with
      jobsByTarget := s.jobsByTarget.set target.key ⟨s.nextId, target⟩
      queuedJobs := s.queuedJobs ++ [⟨s.nextId, target⟩]
      nextId := s.nextId + 1 }
    request (.replying (.created s.nextId))

def examined (s : FetchQueue) (request : ℕ) (target : FetchTarget) : CacheExamination → FetchQueue
  | .cached => s.setPhase request (.replying .alreadyCached)
  | .missing => s.enqueue request target
  | .failed => s.setPhase request (.replying .failed)

/-- The listener for `finish` is there for a reply that announces a job. -/
def finish (s : FetchQueue) (request : ℕ) : FetchAnswer → FetchQueue
  | .created _ => s.setPhase request .draining
  | _ => s.setPhase request .ended

/-- The `finally` of `runFetchJob`. -/
def done (s : FetchQueue) (job : FetchJob) : FetchQueue :=
  drainFetchQueue
    { s with
      runningJobs := s.runningJobs - 1
      running := s.running.erase job
      jobsByTarget := s.jobsByTarget.delete job.target.key }

def isSettled (s : FetchQueue) (job : FetchJob) : Bool := job.id ∈ s.broadcasts.map Prod.fst

def step (deps : FetchRouteDeps) (s : FetchQueue) : FetchQueueEvent → Option FetchQueue
  | .post request body =>
    match s.phases request with
    | .idle => some (s.post deps request body)
    | _ => none
  | .examined request result =>
    match s.phases request with
    | .examining target => some (s.examined request target result)
    | _ => none
  | .finish request =>
    match s.phases request with
    | .replying answer => some (s.finish request answer)
    | _ => none
  | .abort request =>
    match s.phases request with
    | .replying _ => some (s.setPhase request .ended)
    | _ => none
  | .immediate request =>
    match s.phases request with
    | .draining => some (s.setPhase request .ended).drainFetchQueue
    | _ => none
  | .settle job outcome =>
    if job ∈ s.running ∧ ¬ s.isSettled job then
      some { s with broadcasts := s.broadcasts ++ [(job.id, outcome)] }
    else none
  | .done job => if job ∈ s.running ∧ s.isSettled job then some (s.done job) else none

/-! ## Draining the queue -/

/-- The jobs that are queued or running. -/
def jobs (s : FetchQueue) : List FetchJob := s.queuedJobs ++ s.running

/-- What `drainFetchQueue` does: it starts the jobs at the front. -/
structure Drains (s s' : FetchQueue) (queue : List FetchJob) : Prop where
  split : ∃ started, queue = started ++ s'.queuedJobs ∧ s'.running = s.running ++ started ∧
    s'.runningJobs = s.runningJobs + started.length
  limit : s'.queuedJobs = [] ∨ AGENT_FETCH_GLOBAL_CONCURRENCY ≤ s'.runningJobs
  bounded : s.runningJobs ≤ AGENT_FETCH_GLOBAL_CONCURRENCY →
    s'.runningJobs ≤ AGENT_FETCH_GLOBAL_CONCURRENCY
  phases_eq : s'.phases = s.phases
  jobsByTarget_eq : s'.jobsByTarget = s.jobsByTarget
  nextId_eq : s'.nextId = s.nextId
  broadcasts_eq : s'.broadcasts = s.broadcasts

theorem drains_drainLoop (s : FetchQueue) (queue : List FetchJob) :
    Drains s (s.drainLoop queue) queue := by
  induction queue generalizing s with
  | nil => exact ⟨⟨[], rfl, (List.append_nil _).symm, rfl⟩, .inl rfl, id, rfl, rfl, rfl, rfl⟩
  | cons job queue ih =>
    rw [drainLoop]
    split
    · rename_i hlimit
      obtain
        ⟨⟨started, hqueue, hrunning, hcount⟩, hlim, hbounded, hphases, hmap, hid, hbroadcasts⟩ :=
        ih { s with runningJobs := s.runningJobs + 1, running := s.running ++ [job] }
      refine ⟨⟨job :: started, congrArg (job :: ·) hqueue, ?_, ?_⟩, hlim, fun _ ↦ hbounded hlimit,
        hphases, hmap, hid, hbroadcasts⟩
      · rw [hrunning, List.append_assoc, List.singleton_append]
      · rw [hcount, List.length_cons, Nat.add_comm started.length 1, ← Nat.add_assoc]
    · rename_i hlimit
      exact ⟨⟨[], rfl, (List.append_nil _).symm, rfl⟩, .inr (Nat.le_of_not_lt hlimit), id, rfl, rfl,
        rfl, rfl⟩

theorem drains_drainFetchQueue (s : FetchQueue) : Drains s s.drainFetchQueue s.queuedJobs :=
  drains_drainLoop s s.queuedJobs

theorem Drains.perm {s s' : FetchQueue} (h : Drains s s' s.queuedJobs) : s'.jobs.Perm s.jobs := by
  obtain ⟨started, hqueue, hrunning, -⟩ := h.split
  rw [jobs, jobs, hqueue, hrunning, ← List.append_assoc, List.append_assoc started]
  exact List.perm_append_comm

/-! ## What always holds -/

def broadcastIds (s : FetchQueue) : List ℕ := s.broadcasts.map Prod.fst

/-- The numbers of the jobs, and the messages about them. -/
structure Tidy (s : FetchQueue) : Prop where
  counted : s.runningJobs = s.running.length
  bounded : s.runningJobs ≤ AGENT_FETCH_GLOBAL_CONCURRENCY
  fresh : ∀ job ∈ s.jobs, job.id < s.nextId
  ids : (s.jobs.map FetchJob.id).Nodup
  unsettled : ∀ job ∈ s.queuedJobs, job.id ∉ s.broadcastIds
  once : s.broadcastIds.Nodup
  known : ∀ id ∈ s.broadcastIds, id < s.nextId
  done : ∀ id < s.nextId, id ∉ s.jobs.map FetchJob.id → id ∈ s.broadcastIds

theorem tidy_start : Tidy start where
  counted := rfl
  bounded := Nat.zero_le _
  fresh := nofun
  ids := List.nodup_nil
  unsettled := nofun
  once := List.nodup_nil
  known := nofun
  done := nofun

variable {s : FetchQueue} {job : FetchJob}

theorem Tidy.setPhase (h : Tidy s) (request : ℕ) (phase : RequestPhase) :
    Tidy (s.setPhase request phase) :=
  ⟨h.counted, h.bounded, h.fresh, h.ids, h.unsettled, h.once, h.known, h.done⟩

theorem Tidy.drainFetchQueue (h : Tidy s) : Tidy s.drainFetchQueue := by
  have hdrains := drains_drainFetchQueue s
  have hperm := hdrains.perm
  have hids := hperm.map FetchJob.id
  have hbroadcasts : s.drainFetchQueue.broadcastIds = s.broadcastIds :=
    congrArg (List.map Prod.fst) hdrains.broadcasts_eq
  obtain ⟨started, hqueue, hrunning, hcount⟩ := hdrains.split
  refine ⟨?_, hdrains.bounded h.bounded, ?_, hids.nodup_iff.mpr h.ids, ?_, ?_, ?_, ?_⟩
  · rw [hcount, hrunning, List.length_append, h.counted]
  · intro job hjob
    rw [hdrains.nextId_eq]
    exact h.fresh job (hperm.mem_iff.mp hjob)
  · intro job hjob
    rw [hbroadcasts]
    exact h.unsettled job (hqueue ▸ List.mem_append_right _ hjob)
  · rw [hbroadcasts]
    exact h.once
  · intro id hid
    rw [hdrains.nextId_eq]
    exact h.known id (hbroadcasts ▸ hid)
  · intro id hid hmem
    rw [hbroadcasts]
    exact h.done id (hdrains.nextId_eq ▸ hid) fun hold ↦ hmem (hids.mem_iff.mpr hold)

theorem jobs_enqueue_perm (s : FetchQueue) (request : ℕ) (target : FetchTarget) :
    (s.enqueue request target).jobs.Perm (⟨s.nextId, target⟩ :: s.jobs) := by
  change (s.queuedJobs ++ [(⟨s.nextId, target⟩ : FetchJob)] ++ s.running).Perm _
  rw [List.append_assoc, List.singleton_append]
  exact List.perm_middle

theorem Tidy.enqueue (h : Tidy s) (request : ℕ) (target : FetchTarget) :
    Tidy (s.enqueue request target) := by
  have hperm := jobs_enqueue_perm s request target
  have hids := hperm.map FetchJob.id
  rw [List.map_cons] at hids
  have hnew : s.nextId ∉ s.broadcastIds := fun hmem ↦ Nat.lt_irrefl _ (h.known _ hmem)
  refine ⟨h.counted, h.bounded, ?_, ?_, ?_, h.once, ?_, ?_⟩
  · intro job hjob
    rcases List.mem_cons.mp (hperm.mem_iff.mp hjob) with rfl | hjob
    · exact Nat.lt_succ_self _
    · exact Nat.lt_succ_of_lt (h.fresh job hjob)
  · rw [hids.nodup_iff, List.nodup_cons]
    refine ⟨fun hmem ↦ ?_, h.ids⟩
    obtain ⟨job, hjob, hid⟩ := List.mem_map.mp hmem
    exact Nat.lt_irrefl _ (hid ▸ h.fresh job hjob)
  · intro job hjob
    rcases List.mem_append.mp hjob with hjob | hjob
    · exact h.unsettled job hjob
    · rw [List.mem_singleton.mp hjob]
      exact hnew
  · exact fun id hid ↦ Nat.lt_succ_of_lt (h.known id hid)
  · intro id hid hmem
    rw [hids.mem_iff, List.mem_cons, not_or] at hmem
    have hlt : id < s.nextId := Nat.lt_of_le_of_ne (Nat.le_of_lt_succ hid) hmem.1
    exact h.done id hlt hmem.2

theorem isSettled_iff :
    s.isSettled job = true ↔ job.id ∈ s.broadcastIds := by
  rw [isSettled, broadcastIds, decide_eq_true_eq]

theorem Tidy.settle (h : Tidy s) (hjob : job ∈ s.running)
    (hsettled : ¬ s.isSettled job = true) (outcome : FetchJobEnd) :
    Tidy { s with broadcasts := s.broadcasts ++ [(job.id, outcome)] } := by
  have hbroadcasts : broadcastIds { s with broadcasts := s.broadcasts ++ [(job.id, outcome)] } =
      s.broadcastIds ++ [job.id] := List.map_append
  rw [isSettled_iff] at hsettled
  have hids := h.ids
  rw [jobs, List.map_append, List.nodup_append] at hids
  obtain ⟨-, -, hapart⟩ := hids
  refine ⟨h.counted, h.bounded, h.fresh, h.ids, ?_, ?_, ?_, ?_⟩
  · intro queued hqueued hid
    rw [hbroadcasts, List.mem_append, List.mem_singleton] at hid
    rcases hid with hid | hid
    · exact h.unsettled queued hqueued hid
    · exact hapart _ (List.mem_map_of_mem hqueued) _ (List.mem_map_of_mem hjob) hid
  · rw [hbroadcasts]
    exact h.once.append (List.nodup_singleton _) (List.disjoint_singleton.mpr hsettled)
  · intro id hid
    rw [hbroadcasts, List.mem_append, List.mem_singleton] at hid
    rcases hid with hid | rfl
    · exact h.known id hid
    · exact h.fresh job (List.mem_append_right _ hjob)
  · intro id hid hmem
    rw [hbroadcasts]
    exact List.mem_append_left _ (h.done id hid hmem)

/-- A job that is over, before the queue is drained. -/
def leave (s : FetchQueue) (job : FetchJob) : FetchQueue :=
  { s with
    runningJobs := s.runningJobs - 1
    running := s.running.erase job
    jobsByTarget := s.jobsByTarget.delete job.target.key }

theorem jobs_leave_perm (hjob : job ∈ s.running) :
    s.jobs.Perm (job :: (s.leave job).jobs) :=
  ((List.perm_cons_erase hjob).append_left s.queuedJobs).trans List.perm_middle

theorem Tidy.leave (h : Tidy s) (hjob : job ∈ s.running)
    (hsettled : s.isSettled job = true) : Tidy (s.leave job) := by
  have hperm := jobs_leave_perm hjob
  have hids := hperm.map FetchJob.id
  rw [List.map_cons] at hids
  have hpositive : 0 < s.running.length := List.length_pos_of_mem hjob
  refine ⟨?_, Nat.le_trans (Nat.sub_le _ _) h.bounded, ?_, ?_, h.unsettled, h.once, h.known, ?_⟩
  · change s.runningJobs - 1 = (s.running.erase job).length
    rw [List.length_erase_of_mem hjob, h.counted]
  · intro other hother
    exact h.fresh other (hperm.mem_iff.mpr (List.mem_cons_of_mem _ hother))
  · exact (List.nodup_cons.mp (hids.nodup_iff.mp h.ids)).2
  · intro id hid hmem
    by_cases hjobid : id = job.id
    · rw [hjobid]
      exact isSettled_iff.mp hsettled
    · refine h.done id hid fun hold ↦ ?_
      rcases List.mem_cons.mp (hids.mem_iff.mp hold) with heq | hold
      · exact hjobid heq
      · exact hmem hold

/-! ## What a step can do -/

/-- No other request is under way. -/
def LastReply (s : FetchQueue) (request : ℕ) : Prop :=
  ∀ other, other ≠ request → (s.phases other).isOver = true

/-- The queue needs no drain. -/
def Sated (s : FetchQueue) : Prop :=
  s.queuedJobs = [] ∨ s.runningJobs = AGENT_FETCH_GLOBAL_CONCURRENCY

/-- No job is created for a target that has one, and a reply that does not drain the queue is not
the last to end while a job waits for nothing. -/
def Careful (s : FetchQueue) : FetchQueueEvent → Prop
  | .examined request .missing =>
    ∀ target, s.phases request = .examining target → ∀ job ∈ s.jobs, job.target ≠ target
  | .finish request =>
    (∀ id, s.phases request ≠ .replying (.created id)) → s.LastReply request → s.Sated
  | .abort request => s.LastReply request → s.Sated
  | _ => True

/-- What a step can do. -/
inductive Steps (s : FetchQueue) : FetchQueueEvent → FetchQueue → Prop
  | waits (e : FetchQueueEvent) (request : ℕ) (phase : RequestPhase) (hphase : phase.isOver = false)
      (hcareful : s.Careful e) : Steps s e (s.setPhase request phase)
  | enqueues (request : ℕ) (target : FetchTarget) (hphase : s.phases request = .examining target) :
      Steps s (.examined request .missing) (s.enqueue request target)
  | ends (e : FetchQueueEvent) (request : ℕ)
      (hcareful : s.Careful e ↔ (s.LastReply request → s.Sated)) :
      Steps s e (s.setPhase request .ended)
  | drains (request : ℕ) : Steps s (.immediate request) (s.setPhase request .ended).drainFetchQueue
  | settles (job : FetchJob) (outcome : FetchJobEnd) (hjob : job ∈ s.running)
      (hsettled : ¬ s.isSettled job = true) :
      Steps s (.settle job outcome) { s with broadcasts := s.broadcasts ++ [(job.id, outcome)] }
  | leaves (job : FetchJob) (hjob : job ∈ s.running) (hsettled : s.isSettled job = true) :
      Steps s (.done job) (s.leave job).drainFetchQueue

variable {deps : FetchRouteDeps} {e : FetchQueueEvent}

theorem steps_of_step :
    Ensures (Steps s e) (step deps s e) := by
  cases e with
  | post request body =>
    simp only [step]
    split
    · refine .of_some ?_
      unfold post
      split
      · exact .waits _ request _ rfl trivial
      · split
        · exact .waits _ request _ rfl trivial
        · exact .waits _ request _ rfl trivial
    · exact .of_none
  | examined request result =>
    simp only [step]
    split
    · rename_i target hphase
      refine .of_some ?_
      cases result with
      | cached => exact .waits _ request _ rfl trivial
      | missing => exact .enqueues request target hphase
      | failed => exact .waits _ request _ rfl trivial
    · exact .of_none
  | finish request =>
    simp only [step]
    split
    · rename_i answer hphase
      refine .of_some ?_
      unfold finish
      split
      · rename_i id
        exact .waits _ request _ rfl fun hnot ↦ absurd hphase (hnot id)
      · rename_i hanswer
        refine .ends _ request ⟨fun hcareful ↦ hcareful fun id hid ↦ ?_, fun hsated _ ↦ hsated⟩
        rw [hphase] at hid
        cases hid
        exact hanswer id rfl
    · exact .of_none
  | abort request =>
    simp only [step]
    split
    · exact .of_some (.ends _ request Iff.rfl)
    · exact .of_none
  | immediate request =>
    simp only [step]
    split
    · exact .of_some (.drains request)
    · exact .of_none
  | settle job outcome =>
    simp only [step]
    exact .guard fun hjob ↦ .of_some (.settles job outcome hjob.1 hjob.2)
  | done job =>
    simp only [step]
    exact .guard fun hjob ↦ .of_some (.leaves job hjob.1 hjob.2)

theorem Tidy.steps {s s' : FetchQueue} (h : Tidy s) (hsteps : Steps s e s') :
    Tidy s' := by
  cases hsteps with
  | waits _ request phase => exact h.setPhase _ _
  | enqueues request target => exact h.enqueue _ _
  | ends _ request => exact h.setPhase _ _
  | drains request => exact (h.setPhase _ _).drainFetchQueue
  | settles job outcome hjob hsettled => exact h.settle hjob hsettled outcome
  | leaves job hjob hsettled => exact (h.leave hjob hsettled).drainFetchQueue

/-! ## What should hold -/

/-- One job for each target, not too many that run, the map of the jobs that are there, one message
at the end of each job, and no job that waits for nothing once all replies have ended. -/
structure Healthy (s : FetchQueue) : Prop where
  unique : (s.jobs.map FetchJob.target).Nodup
  bounded : s.running.length ≤ AGENT_FETCH_GLOBAL_CONCURRENCY
  registered : ∀ key job, s.jobsByTarget.get key = some job ↔ job ∈ s.jobs ∧ job.target.key = key
  once : ∀ id, s.broadcastIds.count id ≤ 1 ∧
    (id < s.nextId → id ∉ s.jobs.map FetchJob.id → s.broadcastIds.count id = 1)
  drained : (∀ request, (s.phases request).isOver = true) →
    s.queuedJobs = [] ∨ s.running.length = AGENT_FETCH_GLOBAL_CONCURRENCY

theorem Tidy.healthy_iff (h : Tidy s) : Healthy s ↔ (s.jobs.map FetchJob.target).Nodup ∧
      (∀ key job, s.jobsByTarget.get key = some job ↔ job ∈ s.jobs ∧ job.target.key = key) ∧
      ((∀ request, (s.phases request).isOver = true) → s.Sated) := by
  have hsated : s.Sated ↔
      s.queuedJobs = [] ∨ s.running.length = AGENT_FETCH_GLOBAL_CONCURRENCY := by
    rw [Sated, h.counted]
  constructor
  · intro hhealthy
    exact ⟨hhealthy.unique, hhealthy.registered, fun hover ↦ hsated.mpr (hhealthy.drained hover)⟩
  · rintro ⟨hunique, hregistered, hdrained⟩
    refine ⟨hunique, h.counted ▸ h.bounded, hregistered, fun id ↦ ⟨?_, fun hid hmem ↦ ?_⟩,
      fun hover ↦ hsated.mp (hdrained hover)⟩
    · exact List.nodup_iff_count_le_one.mp h.once id
    · exact List.count_eq_one_of_mem h.once (h.done id hid hmem)

/-- The jobs and the map stay as they are. -/
theorem registered_congr {s s' : FetchQueue} (hperm : s'.jobs.Perm s.jobs)
    (hmap : s'.jobsByTarget = s.jobsByTarget) :
    (∀ key job, s'.jobsByTarget.get key = some job ↔ job ∈ s'.jobs ∧ job.target.key = key) ↔
      ∀ key job, s.jobsByTarget.get key = some job ↔ job ∈ s.jobs ∧ job.target.key = key := by
  simp only [hmap, hperm.mem_iff]

theorem unique_congr {s s' : FetchQueue} (hperm : s'.jobs.Perm s.jobs) :
    (s'.jobs.map FetchJob.target).Nodup ↔ (s.jobs.map FetchJob.target).Nodup :=
  (hperm.map FetchJob.target).nodup_iff

theorem setPhase_phases_self (s : FetchQueue) (request : ℕ) (phase : RequestPhase) :
    (s.setPhase request phase).phases request = phase := Function.update_self _ _ _

theorem setPhase_phases_of_ne {request other : ℕ} {phase : RequestPhase}
    (h : other ≠ request) : (s.setPhase request phase).phases other = s.phases other :=
  Function.update_of_ne h _ _

/-- A request that is under way. -/
theorem not_over_setPhase {request : ℕ} {phase : RequestPhase} (hphase : phase.isOver = false) :
    ¬ ∀ other, ((s.setPhase request phase).phases other).isOver = true := by
  intro hover
  have hrequest := hover request
  rw [setPhase_phases_self, hphase] at hrequest
  cases hrequest

theorem over_setPhase_ended {request : ℕ} :
    (∀ other, ((s.setPhase request .ended).phases other).isOver = true) ↔ s.LastReply request := by
  constructor
  · intro hover other hne
    have hother := hover other
    rwa [setPhase_phases_of_ne hne] at hother
  · intro hlast other
    by_cases hother : other = request
    · rw [hother, setPhase_phases_self]
      rfl
    · rw [setPhase_phases_of_ne hother]
      exact hlast other hother

theorem sated_drainFetchQueue (h : Tidy s) : s.drainFetchQueue.Sated := by
  have hdrains := drains_drainFetchQueue s
  rcases hdrains.limit with hempty | hlimit
  · exact .inl hempty
  · exact .inr (Nat.le_antisymm (hdrains.bounded h.bounded) hlimit)

theorem Healthy.enqueue_iff (h : Tidy s) (hhealthy : Healthy s) (request : ℕ)
    (target : FetchTarget) :
    Healthy (s.enqueue request target) ↔ ∀ job ∈ s.jobs, job.target ≠ target := by
  have hperm := jobs_enqueue_perm s request target
  have hunique : ((s.enqueue request target).jobs.map FetchJob.target).Nodup ↔
      ∀ job ∈ s.jobs, job.target ≠ target := by
    rw [(hperm.map FetchJob.target).nodup_iff, List.map_cons, List.nodup_cons]
    constructor
    · rintro ⟨hmem, -⟩ job hjob heq
      exact hmem (List.mem_map.mpr ⟨job, hjob, heq⟩)
    · intro hne
      refine ⟨fun hmem ↦ ?_, hhealthy.unique⟩
      obtain ⟨job, hjob, heq⟩ := List.mem_map.mp hmem
      exact hne job hjob heq
  rw [(h.enqueue request target).healthy_iff, hunique]
  constructor
  · exact fun hafter ↦ hafter.1
  · intro hne
    refine ⟨hne, fun key job ↦ ?_, fun hover ↦ absurd hover (not_over_setPhase rfl)⟩
    rw [hperm.mem_iff, List.mem_cons]
    change (s.jobsByTarget.set target.key ⟨s.nextId, target⟩).get key = some job ↔ _
    by_cases hkey : target.key = key
    · subst hkey
      rw [OrderedMap.get_set_self, Option.some.injEq]
      constructor
      · rintro rfl
        exact ⟨.inl rfl, rfl⟩
      · rintro ⟨rfl | hjob, hkey⟩
        · rfl
        · exact absurd (FetchTarget.key_injective hkey) (hne job hjob)
    · rw [OrderedMap.get_set_of_ne _ _ hkey, hhealthy.registered]
      constructor
      · rintro ⟨hjob, hjobkey⟩
        exact ⟨.inr hjob, hjobkey⟩
      · rintro ⟨rfl | hjob, hjobkey⟩
        · exact absurd hjobkey hkey
        · exact ⟨hjob, hjobkey⟩

theorem Healthy.leave (h : Tidy s) (hhealthy : Healthy s)
    (hjob : job ∈ s.running) (hsettled : s.isSettled job = true) :
    Healthy (s.leave job).drainFetchQueue := by
  have hleave := jobs_leave_perm hjob
  have hdrains := drains_drainFetchQueue (s.leave job)
  have hperm := hdrains.perm
  have htargets := (hleave.map FetchJob.target).nodup_iff.mp hhealthy.unique
  rw [List.map_cons, List.nodup_cons] at htargets
  have htidy := h.leave hjob hsettled
  rw [htidy.drainFetchQueue.healthy_iff, unique_congr hperm,
    registered_congr hperm hdrains.jobsByTarget_eq]
  refine ⟨htargets.2, fun key other ↦ ?_, fun _ ↦ sated_drainFetchQueue htidy⟩
  change (s.jobsByTarget.delete job.target.key).get key = some other ↔ _
  by_cases hkey : job.target.key = key
  · subst hkey
    rw [OrderedMap.get_delete_self]
    constructor
    · nofun
    · rintro ⟨hother, hotherkey⟩
      exact absurd (FetchTarget.key_injective hotherkey ▸ List.mem_map_of_mem hother) htargets.1
  · rw [OrderedMap.get_delete_of_ne _ hkey, hhealthy.registered, hleave.mem_iff, List.mem_cons]
    constructor
    · rintro ⟨rfl | hother, hotherkey⟩
      · exact absurd hotherkey hkey
      · exact ⟨hother, hotherkey⟩
    · rintro ⟨hother, hotherkey⟩
      exact ⟨.inr hother, hotherkey⟩

/-- A step keeps what should hold exactly if it is careful. -/
theorem Healthy.steps_iff {s s' : FetchQueue} (h : Tidy s)
    (hhealthy : Healthy s) (hsteps : Steps s e s') : Healthy s' ↔ s.Careful e := by
  have hcurrent := h.healthy_iff.mp hhealthy
  cases hsteps with
  | waits _ request phase hphase hcareful =>
    refine ⟨fun _ ↦ hcareful, fun _ ↦ (h.setPhase _ _).healthy_iff.mpr ?_⟩
    refine ⟨hcurrent.1, hcurrent.2.1, ?_⟩
    exact fun hover ↦ absurd hover (not_over_setPhase hphase)
  | enqueues request target hphase =>
    rw [hhealthy.enqueue_iff h]
    constructor
    · intro hne target' hphase'
      cases hphase.symm.trans hphase'
      exact hne
    · intro hcareful
      exact hcareful target hphase
  | ends _ request hcareful =>
    rw [hcareful, (h.setPhase _ _).healthy_iff, over_setPhase_ended]
    exact ⟨fun hafter ↦ hafter.2.2, fun hsated ↦ ⟨hcurrent.1, hcurrent.2.1, hsated⟩⟩
  | drains request =>
    have hdrains := drains_drainFetchQueue (s.setPhase request .ended)
    have htidy := h.setPhase request .ended
    refine ⟨fun _ ↦ trivial, fun _ ↦ htidy.drainFetchQueue.healthy_iff.mpr ⟨?_, ?_, ?_⟩⟩
    · exact (unique_congr hdrains.perm).mpr hcurrent.1
    · exact (registered_congr hdrains.perm hdrains.jobsByTarget_eq).mpr hcurrent.2.1
    · exact fun _ ↦ sated_drainFetchQueue htidy
  | settles job outcome hjob hsettled =>
    exact ⟨fun _ ↦ trivial, fun _ ↦ (h.settle hjob hsettled outcome).healthy_iff.mpr hcurrent⟩
  | leaves job hjob hsettled => exact ⟨fun _ ↦ trivial, fun _ ↦ hhealthy.leave h hjob hsettled⟩

theorem healthy_start : Healthy start := by
  refine tidy_start.healthy_iff.mpr ⟨List.nodup_nil, fun key job ↦ ⟨nofun, nofun⟩, fun _ ↦ .inl rfl⟩

/-- **The jobs are unique and bounded, exactly as long as all steps are careful**: over every
interleaving of requests, replies and jobs. -/
theorem healthy_iff_careful (deps : FetchRouteDeps) (es : List FetchQueueEvent) :
    Runs.Along (step deps) (fun _ _ s' ↦ Healthy s') start es ↔
      Runs.Along (step deps) (fun s e _ ↦ s.Careful e) start es := by
  refine Runs.along_congr_of_keeps (fun s ↦ Tidy s ∧ Healthy s) ?_ ⟨tidy_start, healthy_start⟩
  rintro s e s' ⟨htidy, hhealthy⟩ hstep
  have hsteps := steps_of_step hstep
  have hiff := hhealthy.steps_iff htidy hsteps
  exact ⟨hiff, fun hcareful ↦ ⟨htidy.steps hsteps, hiff.mpr hcareful⟩⟩

/-! ## Two requests for one target -/

namespace TwoRequests

def routeDeps : FetchRouteDeps := ⟨"0.5.0".toList, none⟩

def body : AgentFetchRequestBody := ⟨some "linux".toList, some "x64".toList, none⟩

def target : FetchTarget := ⟨"linux".toList, "x64".toList, "0.5.0".toList, by decide⟩

theorem validateFetch_body : validateFetch routeDeps body = .ok target := by
  decide +kernel

end TwoRequests

open TwoRequests in
/-- Both requests have looked for a job before one of them registers its own. -/
theorem two_jobs_for_one_target :
    ¬ Runs.Along (step routeDeps) (fun _ _ s' ↦ Healthy s') start
      [.post 0 body, .post 1 body, .examined 0 .missing, .examined 1 .missing] := by
  intro h
  have hpost : ∀ s : FetchQueue, s.jobsByTarget = .empty → ∀ request,
      s.post routeDeps request body = s.setPhase request (.examining target) := by
    intro s hs request
    rw [post, validateFetch_body]
    dsimp only
    rw [hs]
    rfl
  have h0 : step routeDeps start (.post 0 body) = some (start.setPhase 0 (.examining target)) :=
    congrArg some (hpost start rfl 0)
  have h1 : step routeDeps (start.setPhase 0 (.examining target)) (.post 1 body) =
      some ((start.setPhase 0 (.examining target)).setPhase 1 (.examining target)) :=
    congrArg some (hpost _ rfl 1)
  have hlast := ((((h _ h0).2 _ h1).2 _ rfl).2 _ rfl).1
  have hunique : ([target, target] : List FetchTarget).Nodup := hlast.unique
  exact absurd hunique (by simp)

end FetchQueue

end Lasterm.Hub
