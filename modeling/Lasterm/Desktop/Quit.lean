import Lasterm.Library.Runs
import Mathlib.Data.List.Basic

/-!
# How the desktop quits

The quit of the desktop client in `lib.rs`: the coordinator that the gestures, the request threads,
the native consent dialog and the observation threads share, and what each of them does with the
action that it gets from it.

A gesture that starts an attempt starts a line of activity: a thread asks the hub to quit, shows the
dialog, spawns the thread of the forced request or the one that observes. A thread that spawns
another one ends with that. The coordinator is the only thing that the lines share, and the lock
covers one call on it. `quits_of_run` says what holds of every line, and that one of them at most is
busy.

Behind the end of an attempt its line has an action in hand, and a new gesture may start another
attempt before that is applied.
-/

namespace Lasterm.Desktop.Quit

open Runs

/-! ## The hub's record and its answer -/

structure HubQuitTarget where
  pid : ℕ
  instanceId : String
  deriving DecidableEq

structure RuntimeInfo where
  pid : Option ℕ
  port : ℕ
  instanceId : Option String
  ownerToken : Option String
  deriving DecidableEq

inductive RuntimeLoadResult where
  | absent
  | present (runtime : RuntimeInfo)
  | unreadable (error : String)
  deriving DecidableEq

structure QuitResponseBody where
  message : Option String
  others : Option ℕ

inductive QuitRequestResult where
  | committed (target : HubQuitTarget) (diagnostic : Option String)
  | conflict (others : Option ℕ)
  | unobserved (target : HubQuitTarget)
  | failed (message : String)

/-- How the request goes once it has a target. -/
inductive QuitResponse where
  /-- The client or the owner header cannot be built. -/
  | notBuilt (message : String)
  /-- `is_connect` or `is_builder`. -/
  | notSent (error : String)
  | transportError
  | success
  | status (code : ℕ) (body : String)

def classifyQuitResponse (parse : String → Option QuitResponseBody) (status : ℕ) (body : String)
    (target : HubQuitTarget) : QuitRequestResult :=
  if status = 409 then .conflict (((parse body).bind (·.others)).filter (0 < ·))
  else if status = 503 then
    .committed target (some (((parse body).bind (·.message)).getD
      "The local agent was not confirmed stopped."))
  else .failed s!"quit request failed with HTTP {status}"

/-- `request_hub_quit`, with what it reads and gets. `parse` stands for `serde_json`. -/
def requestHubQuit (ownPid : ℕ) (parse : String → Option QuitResponseBody) :
    RuntimeLoadResult → QuitResponse → QuitRequestResult
  | .absent, _ => .failed "cannot quit because the hub runtime record is missing"
  | .unreadable error, _ =>
    .failed ("cannot determine whether the hub stopped because runtime.json cannot be read: "
      ++ error)
  | .present runtime, response =>
    if runtime.ownerToken.isNone then
      .failed "the running hub does not support the authenticated quit endpoint"
    else
      match runtime.pid.filter fun pid ↦ pid ≠ 0 && pid ≠ ownPid, runtime.instanceId with
      | none, _ => .failed "runtime.json is missing a valid hub pid"
      | some _, none =>
        .failed
          "runtime.json is missing the hub instance identity; refusing an unobservable quit"
      | some pid, some instanceId =>
        match response with
        | .notBuilt message => .failed message
        | .notSent error => .failed ("quit request was not sent: " ++ error)
        | .transportError => .unobserved ⟨pid, instanceId⟩
        | .success => .committed ⟨pid, instanceId⟩ none
        | .status code body => classifyQuitResponse parse code body ⟨pid, instanceId⟩

/-! ## The observation -/

/-- Where `observe_hub_quit_with` is in its loop. -/
inductive ObserveState where
  | load
  | probe
  | reload
  /-- In front of the deadline, with what the loop has read first. -/
  | deadline (current : RuntimeLoadResult)

/-- What it reads. -/
inductive Reading where
  | runtime (result : RuntimeLoadResult)
  | pid (alive : Bool)
  | clock (late : Bool)
  deriving DecidableEq

def hubQuitObserveTimeout : ℕ := 37000

def unreadableMessage (error : String) : String :=
  "Hub teardown could not be confirmed because runtime.json cannot be read: " ++ error

def replacedMessage : String :=
  "Hub quit target exited, but runtime.json now belongs to a replacement hub"

def timeoutMessage (current : RuntimeLoadResult) : String :=
  s!"Hub teardown was not confirmed within {hubQuitObserveTimeout}ms: " ++
    if current = .absent then "runtime record was removed but its PID remains live"
    else "runtime record remains"

variable (target : HubQuitTarget)

/-- One reading of `observe_hub_quit_with`. -/
def observeHubQuitWith :
    ObserveState → Reading → Option (ObserveState ⊕ Except String Unit)
  | .load, .runtime result =>
    match result with
    | .unreadable error => some (.inr (.error (unreadableMessage error)))
    | .present runtime =>
      if runtime.instanceId ≠ some target.instanceId then some (.inr (.error replacedMessage))
      else some (.inl (.deadline result))
    | .absent => some (.inl .probe)
  | .probe, .pid alive => some (.inl (if alive then .deadline .absent else .reload))
  | .reload, .runtime result =>
    match result with
    | .absent => some (.inr (.ok ()))
    | .unreadable error => some (.inr (.error (unreadableMessage error)))
    | .present runtime =>
      if runtime.instanceId ≠ some target.instanceId then some (.inr (.error replacedMessage))
      else some (.inl (.deadline .absent))
  | .deadline current, .clock late =>
    some (if late then .inr (.error (timeoutMessage current)) else .inl .load)
  | _, _ => none

/-! ## The coordinator -/

inductive QuitAttemptState where
  | requested (force : Bool)
  | waitingForNativeConsent
  | confirmingHubGone
  deriving DecidableEq

structure QuitAttempt where
  id : ℕ
  state : QuitAttemptState

structure QuitCoordinator where
  nextId : ℕ
  active : Option QuitAttempt

inductive QuitAction where
  | askNative (others : Option ℕ)
  | sendForced (attemptId : ℕ)
  | observe (attemptId : ℕ) (target : HubQuitTarget) (diagnostic : Option String)
  | exit
  | exitWithDiagnostic (diagnostic : String)
  | failed (message : String)
  | ignore

namespace QuitCoordinator

variable (c : QuitCoordinator)

/-- The coordinator, and the attempt that it has started. -/
def begin : QuitCoordinator × Option ℕ :=
  match c.active with
  | some _ => (c, none)
  | none => (⟨c.nextId + 1, some ⟨c.nextId + 1, .requested false⟩⟩, some (c.nextId + 1))

def setState (id : ℕ) (state : QuitAttemptState) : QuitCoordinator :=
  { c with active := some ⟨id, state⟩ }

def clear : QuitCoordinator := { c with active := none }

def requestFinished (id : ℕ) (force : Bool) (result : QuitRequestResult) :
    QuitCoordinator × QuitAction :=
  match c.active with
  | none => (c, .ignore)
  | some attempt =>
    if attempt.id ≠ id ∨ attempt.state ≠ .requested force then (c, .ignore)
    else
      match result with
      | .conflict others =>
        if force then (c.clear, .failed "Quit was refused again; nothing was stopped.")
        else (c.setState id .waitingForNativeConsent, .askNative others)
      | .committed target diagnostic =>
        (c.setState id .confirmingHubGone, .observe id target diagnostic)
      | .unobserved target => (c.setState id .confirmingHubGone, .observe id target none)
      | .failed message => (c.clear, .failed message)

def resolveNativeConsent (confirmed : Bool) : QuitCoordinator × QuitAction :=
  match c.active with
  | none => (c, .ignore)
  | some attempt =>
    if attempt.state ≠ .waitingForNativeConsent then (c, .ignore)
    else if confirmed then (c.setState attempt.id (.requested true), .sendForced attempt.id)
    else (c.clear, .ignore)

def observationFinished (id : ℕ) (observed : Except String Unit) (diagnostic : Option String) :
    QuitCoordinator × QuitAction :=
  match c.active with
  | none => (c, .ignore)
  | some attempt =>
    if attempt.id ≠ id ∨ attempt.state ≠ .confirmingHubGone then (c, .ignore)
    else
      (c.clear,
        match observed with
        | .ok () => diagnostic.elim .exit .exitWithDiagnostic
        | .error message => .failed message)

end QuitCoordinator

/-! ## The lines -/

/-- What the line of an attempt is up to. -/
inductive Task where
  | requesting (attemptId : ℕ) (force : Bool)
  | requested (attemptId : ℕ) (force : Bool) (result : QuitRequestResult)
  | asking
  | observing (attemptId : ℕ) (target : HubQuitTarget) (diagnostic : Option String)
      (state : ObserveState)
  | observed (attemptId : ℕ) (diagnostic : Option String) (result : Except String Unit)
  /-- An action is in hand. -/
  | applying (action : QuitAction)
  /-- The dialog in front of the exit. -/
  | showingDiagnostic (diagnostic : String)
  | done

/-- What has happened in an attempt. -/
inductive Step where
  | sent (force : Bool)
  | conflict (force : Bool)
  /-- The request was committed, or its end was not observed. -/
  | targeted (target : HubQuitTarget)
  | asked
  | confirmed
  | refused
  | read (target : HubQuitTarget) (reading : Reading)
  | failed
  | exited
  deriving DecidableEq

structure Line where
  task : Task
  history : List Step

def QuitRequestResult.steps (force : Bool) : QuitRequestResult → List Step
  | .conflict _ => [.conflict force]
  | .committed target _ | .unobserved target => [.targeted target]
  | .failed _ => []

/-- `apply_quit_action`. -/
def applyQuitAction : QuitAction → Task × List Step
  | .askNative _ => (.asking, [.asked])
  | .sendForced attemptId => (.requesting attemptId true, [.sent true])
  | .observe attemptId target diagnostic => (.observing attemptId target diagnostic .load, [])
  | .exit => (.done, [.exited])
  | .exitWithDiagnostic diagnostic => (.showingDiagnostic diagnostic, [])
  | .failed _ => (.done, [.failed])
  | .ignore => (.done, [])

inductive LineEvent where
  | answer (runtime : RuntimeLoadResult) (response : QuitResponse)
  | consent (confirmed : Bool)
  | read (reading : Reading)
  /-- The result of a request or an observation is given to the coordinator. -/
  | report
  | apply
  | dismiss

section Machine

variable (ownPid : ℕ) (parse : String → Option QuitResponseBody)

def Line.step (c : QuitCoordinator) (line : Line) : LineEvent → Option (QuitCoordinator × Line)
  | .answer runtime response =>
    match line.task with
    | .requesting id force =>
      some (c, { line with
        task := .requested id force (requestHubQuit ownPid parse runtime response) })
    | _ => none
  | .report =>
    match line.task with
    | .requested id force result =>
      let (c', action) := c.requestFinished id force result
      some (c', ⟨.applying action, line.history ++ result.steps force⟩)
    | .observed id diagnostic result =>
      let (c', action) := c.observationFinished id result diagnostic
      some (c', { line with task := .applying action })
    | _ => none
  | .consent confirmed =>
    match line.task with
    | .asking =>
      let (c', action) := c.resolveNativeConsent confirmed
      some (c', ⟨.applying action, line.history ++ [if confirmed then .confirmed else .refused]⟩)
    | _ => none
  | .read reading =>
    match line.task with
    | .observing id target diagnostic state =>
      (observeHubQuitWith target state reading).map fun next ↦
        (c, ⟨next.elim (.observing id target diagnostic) (.observed id diagnostic),
          line.history ++ [.read target reading]⟩)
    | _ => none
  | .apply =>
    match line.task with
    | .applying action =>
      let (task, steps) := applyQuitAction action
      some (c, ⟨task, line.history ++ steps⟩)
    | _ => none
  | .dismiss =>
    match line.task with
    | .showingDiagnostic _ => some (c, ⟨.done, line.history ++ [.exited]⟩)
    | _ => none

inductive DesktopEvent where
  /-- `request_app_quit`. -/
  | gesture
  | line (i : ℕ) (e : LineEvent)

/-- The lines of the attempts, in the order in which they were started. -/
structure App where
  coordinator : QuitCoordinator
  lines : List Line

namespace App

def start : App := ⟨⟨0, none⟩, []⟩

def step (d : App) : DesktopEvent → Option App
  | .gesture =>
    match d.coordinator.begin with
    | (_, none) => some d
    | (c, some id) => some ⟨c, d.lines ++ [⟨.requesting id false, [.sent false]⟩]⟩
  | .line i e =>
    d.lines[i]?.bind fun line ↦
      (line.step ownPid parse d.coordinator e).map fun (c, line') ↦ ⟨c, d.lines.set i line'⟩

end App

end Machine

/-! ## What the history of an attempt owes -/

/-- The observation of the target reads an absent record, finds the pid dead and reads an absent
record again. -/
def gone : List Step :=
  [.read target (.runtime .absent), .read target (.pid false), .read target (.runtime .absent)]

def consented : List Step := [.sent false, .conflict false, .asked, .confirmed]

def refusal : List Step := [.sent false, .conflict false, .asked, .refused]

def Step.isEnd : Step → Bool
  | .failed | .exited => true
  | _ => false

/-- A forced request comes behind a consent, a refusal is the end, there is one exit or failure at
most, and an exit comes behind an observation of the target that was found gone. -/
structure Proper (history : List Step) : Prop where
  forced : .sent true ∈ history → consented ++ [.sent true] <+: history
  refused : .refused ∈ history → history = refusal
  oneEnd : history.countP Step.isEnd ≤ 1
  exits : .exited ∈ history → ∃ before target, history = before ++ gone target ++ [.exited] ∧
    .targeted target ∈ before

/-- A request, a dialog or an observation is under way. -/
def Task.isOutstanding : Task → Bool
  | .requesting .. | .requested .. | .asking | .observing .. | .observed .. => true
  | _ => false

structure App.Orderly (d : App) : Prop where
  proper : ∀ line ∈ d.lines, Proper line.history
  oneOutstanding : d.lines.countP (fun line ↦ line.task.isOutstanding) ≤ 1

/-! ## Histories -/

/-- The last request was sent. -/
def sentOnce (force : Bool) : List Step :=
  if force then consented ++ [.sent true] else [.sent false]

/-- A step that ends nothing and sends nothing. -/
def Step.isQuiet : Step → Bool
  | .conflict _ | .targeted _ | .asked | .confirmed | .read .. => true
  | _ => false

def Unended (history : List Step) : Prop :=
  ∃ force rest, history = sentOnce force ++ rest ∧ ∀ s ∈ rest, s.isQuiet = true

/-- The request has a target, and the last readings of it are these. -/
def Observes (last history : List Step) : Prop :=
  ∃ force readings, history = sentOnce force ++ .targeted target :: (readings ++ last) ∧
    ∀ s ∈ readings, s.isQuiet = true

def Gone (history : List Step) : Prop := ∃ target, Observes target (gone target) history

def Ended (history : List Step) : Prop :=
  (∃ before, Unended before ∧ history = before ++ [.failed]) ∨
    (∃ before, Gone before ∧ history = before ++ [.exited]) ∨ history = refusal

section Histories

variable {history : List Step} {target : HubQuitTarget} {last : List Step} {s : Step}

theorem gone_isQuiet (target : HubQuitTarget) : ∀ s ∈ gone target, s.isQuiet = true := by
  intro s hs
  simp only [gone, List.mem_cons, List.not_mem_nil, or_false] at hs
  obtain rfl | rfl | rfl := hs <;> rfl

theorem unended_sentOnce (force : Bool) : Unended (sentOnce force) :=
  ⟨force, [], (List.append_nil _).symm, fun _ hs ↦ absurd hs List.not_mem_nil⟩

theorem Unended.append (h : Unended history) (hs : s.isQuiet = true) :
    Unended (history ++ [s]) := by
  obtain ⟨force, rest, rfl, hrest⟩ := h
  refine ⟨force, rest ++ [s], List.append_assoc .., fun s' hs' ↦ ?_⟩
  rw [List.mem_append, List.mem_singleton] at hs'
  obtain hs' | rfl := hs'
  · exact hrest s' hs'
  · exact hs

section

variable (h : Observes target last history)
include h

theorem Observes.append (s : Step) :
    Observes target (last ++ [s]) (history ++ [s]) := by
  obtain ⟨force, readings, rfl, hreadings⟩ := h
  exact ⟨force, readings, by simp, hreadings⟩

/-- What was read last may be forgotten. -/
theorem Observes.forget (hlast : ∀ s ∈ last, s.isQuiet = true) :
    Observes target [] history := by
  obtain ⟨force, readings, rfl, hreadings⟩ := h
  refine ⟨force, readings ++ last, by simp, fun s hs ↦ ?_⟩
  rw [List.mem_append] at hs
  exact hs.elim (hreadings s) (hlast s)

theorem Observes.unended (hlast : ∀ s ∈ last, s.isQuiet = true) : Unended history := by
  obtain ⟨force, readings, rfl, hreadings⟩ := h
  refine ⟨force, _, rfl, fun s hs ↦ ?_⟩
  rw [List.mem_cons, List.mem_append] at hs
  obtain rfl | hs | hs := hs
  · rfl
  · exact hreadings s hs
  · exact hlast s hs

end

theorem Gone.unended (h : Gone history) : Unended history := by
  obtain ⟨target, h⟩ := h
  exact h.unended (gone_isQuiet target)

section

variable (h : Unended history)
include h

theorem Unended.mem (hs : s ∈ history) :
    s.isQuiet = true ∨ ∃ force, s = .sent force := by
  obtain ⟨force, rest, rfl, hrest⟩ := h
  rw [List.mem_append] at hs
  obtain hs | hs := hs
  · cases force with
    | false =>
      rw [List.mem_singleton.mp hs]
      exact .inr ⟨false, rfl⟩
    | true =>
      simp only [sentOnce, if_true, consented, List.cons_append, List.nil_append, List.mem_cons,
        List.not_mem_nil, or_false] at hs
      obtain rfl | rfl | rfl | rfl | rfl := hs
      · exact .inr ⟨false, rfl⟩
      · exact .inl rfl
      · exact .inl rfl
      · exact .inl rfl
      · exact .inr ⟨true, rfl⟩
  · exact .inl (hrest s hs)

theorem Unended.forced (hs : .sent true ∈ history) :
    consented ++ [.sent true] <+: history := by
  obtain ⟨force, rest, rfl, hrest⟩ := h
  cases force with
  | true => exact List.prefix_append _ _
  | false =>
    obtain hs | hs := List.mem_append.mp hs
    · cases List.mem_singleton.mp hs
    · cases hrest _ hs

theorem Unended.countP_isEnd : history.countP Step.isEnd = 0 := by
  rw [List.countP_eq_zero]
  intro s hs hend
  obtain hquiet | ⟨force, rfl⟩ := h.mem hs
  · cases s <;> simp [Step.isEnd, Step.isQuiet] at hend hquiet
  · cases hend

theorem Unended.proper : Proper history where
  forced := h.forced
  refused := by
    intro hs
    obtain hs | ⟨force, hs⟩ := h.mem hs <;> cases hs
  oneEnd := by
    rw [h.countP_isEnd]
    exact Nat.zero_le 1
  exits := by
    intro hs
    obtain hs | ⟨force, hs⟩ := h.mem hs <;> cases hs

theorem Unended.proper_append_end (hs : s.isEnd = true)
    (hexit : s = .exited → Gone history) : Proper (history ++ [s]) where
  forced := by
    intro hforced
    obtain hforced | hforced := List.mem_append.mp hforced
    · exact (h.forced hforced).trans (List.prefix_append _ _)
    · rw [← List.mem_singleton.mp hforced] at hs
      cases hs
  refused := by
    intro hrefused
    obtain hrefused | hrefused := List.mem_append.mp hrefused
    · obtain hq | ⟨force, hq⟩ := h.mem hrefused <;> cases hq
    · rw [← List.mem_singleton.mp hrefused] at hs
      cases hs
  oneEnd := by
    rw [List.countP_append, h.countP_isEnd, Nat.zero_add]
    exact List.countP_le_length
  exits := by
    intro hexited
    obtain hexited | hexited := List.mem_append.mp hexited
    · obtain hq | ⟨force, hq⟩ := h.mem hexited <;> cases hq
    · have heq := (List.mem_singleton.mp hexited).symm
      obtain ⟨target, force, readings, rfl, -⟩ := hexit heq
      refine ⟨sentOnce force ++ .targeted target :: readings, target, ?_, ?_⟩
      · rw [heq]
        simp
      · exact List.mem_append_right _ List.mem_cons_self

end

theorem Ended.proper (h : Ended history) : Proper history := by
  obtain ⟨before, hbefore, rfl⟩ | ⟨before, hbefore, rfl⟩ | rfl := h
  · exact hbefore.proper_append_end rfl nofun
  · exact hbefore.unended.proper_append_end rfl fun _ ↦ hbefore
  · exact ⟨by decide, fun _ ↦ rfl, by decide, fun hs ↦ absurd hs (by decide)⟩

end Histories

/-! ## The invariant of a line -/

/-- What the coordinator has to say of the attempt. -/
def Task.state? : Task → Option QuitAttemptState
  | .requesting _ force | .requested _ force _ => some (.requested force)
  | .asking => some .waitingForNativeConsent
  | .observing .. | .observed .. => some .confirmingHubGone
  | .applying (.askNative _) => some .waitingForNativeConsent
  | .applying (.sendForced _) => some (.requested true)
  | .applying (.observe ..) => some .confirmingHubGone
  | _ => none

/-- The last readings that matter. -/
def ObserveState.last : ObserveState → List Step
  | .load | .deadline _ => []
  | .probe => [.read target (.runtime .absent)]
  | .reload => [.read target (.runtime .absent), .read target (.pid false)]

theorem ObserveState.last_isQuiet (state : ObserveState) :
    ∀ s ∈ state.last target, s.isQuiet = true := by
  intro s hs
  cases state with
  | load => cases hs
  | deadline _ => cases hs
  | probe =>
    rw [List.mem_singleton.mp hs]
    rfl
  | reload =>
    simp only [last, List.mem_cons, List.not_mem_nil, or_false] at hs
    obtain rfl | rfl := hs <;> rfl

/-- The task of the line of the attempt, and its history. -/
def Fits (id : ℕ) (history : List Step) : Task → Prop
  | .requesting attemptId force | .requested attemptId force _ =>
    attemptId = id ∧ history = sentOnce force
  | .asking => history = [.sent false, .conflict false, .asked]
  | .observing attemptId target _ state =>
    attemptId = id ∧ Observes target (state.last target) history
  | .observed attemptId _ result =>
    attemptId = id ∧ Unended history ∧ (result = .ok () → Gone history)
  | .applying (.askNative _) => history = [.sent false, .conflict false]
  | .applying (.sendForced attemptId) => attemptId = id ∧ history = consented
  | .applying (.observe attemptId target _) => attemptId = id ∧ Observes target [] history
  | .applying .exit | .applying (.exitWithDiagnostic _) | .showingDiagnostic _ => Gone history
  | .applying (.failed _) => Unended history
  | .applying .ignore => history = refusal
  | .done => Ended history

theorem Fits.proper {id : ℕ} {history : List Step} {task : Task} (h : Fits id history task) :
    Proper history := by
  have hrefusal : history = refusal → Ended history := fun h ↦ .inr (.inr h)
  cases task with
  | requesting attemptId force =>
    rw [h.2]
    exact (unended_sentOnce force).proper
  | requested attemptId force result =>
    rw [h.2]
    exact (unended_sentOnce force).proper
  | asking => exact (Unended.proper ⟨false, [.conflict false, .asked], h, by decide⟩)
  | observing attemptId target diagnostic state =>
    exact (h.2.unended (state.last_isQuiet target)).proper
  | observed attemptId diagnostic result => exact h.2.1.proper
  | applying action =>
    cases action with
    | askNative others => exact Unended.proper ⟨false, [.conflict false], h, by decide⟩
    | sendForced attemptId =>
      exact Unended.proper ⟨false, [.conflict false, .asked, .confirmed], h.2, by decide⟩
    | observe attemptId target diagnostic =>
      exact (h.2.unended fun s hs ↦ absurd hs List.not_mem_nil).proper
    | exit => exact Gone.unended h |>.proper
    | exitWithDiagnostic diagnostic => exact Gone.unended h |>.proper
    | failed message => exact Unended.proper h
    | ignore => exact (hrefusal h).proper
  | showingDiagnostic diagnostic => exact Gone.unended h |>.proper
  | done => exact Ended.proper h

/-- A line, and the coordinator that it reports to. -/
structure Good (c : QuitCoordinator) (id : ℕ) (line : Line) : Prop where
  fits : Fits id line.history line.task
  active : ∀ state, line.task.state? = some state → c.active = some ⟨id, state⟩

section Lines

variable {ownPid : ℕ} {parse : String → Option QuitResponseBody} {c c' : QuitCoordinator} {id : ℕ}
  {line line' : Line}

/-- The request is given to the coordinator. -/
theorem Good.requestFinished {force : Bool} {result : QuitRequestResult}
    (hfits : line.history = sentOnce force) (h : c.active = some ⟨id, .requested force⟩) :
    Good (c.requestFinished id force result).1 id
      ⟨.applying (c.requestFinished id force result).2, line.history ++ result.steps force⟩ := by
  rw [QuitCoordinator.requestFinished.eq_def, h, hfits]
  dsimp only
  rw [if_neg (by simp)]
  have htargeted : ∀ target, Observes target [] (sentOnce force ++ [.targeted target]) :=
    fun target ↦ ⟨force, [], rfl, fun s hs ↦ absurd hs List.not_mem_nil⟩
  have hset : ∀ state state', some state = some state' →
      (c.setState id state).active = some ⟨id, state'⟩ := by
    intro state state' heq
    cases heq
    rfl
  cases result with
  | committed target diagnostic => exact ⟨⟨rfl, htargeted target⟩, hset _⟩
  | unobserved target => exact ⟨⟨rfl, htargeted target⟩, hset _⟩
  | failed message =>
    refine ⟨?_, fun state hstate ↦ by cases hstate⟩
    rw [QuitRequestResult.steps, List.append_nil]
    exact unended_sentOnce force
  | conflict others =>
    cases force with
    | false => exact ⟨rfl, hset _⟩
    | true =>
      exact ⟨(unended_sentOnce true).append rfl, fun state hstate ↦ by cases hstate⟩

theorem Good.resolveNativeConsent {confirmed : Bool}
    (hfits : line.history = [.sent false, .conflict false, .asked])
    (h : c.active = some ⟨id, .waitingForNativeConsent⟩) :
    Good (c.resolveNativeConsent confirmed).1 id
      ⟨.applying (c.resolveNativeConsent confirmed).2,
        line.history ++ [if confirmed then .confirmed else .refused]⟩ := by
  rw [QuitCoordinator.resolveNativeConsent, h, hfits]
  dsimp only
  rw [if_neg (by simp)]
  cases confirmed with
  | true =>
    refine ⟨⟨rfl, rfl⟩, fun state hstate ↦ ?_⟩
    cases hstate
    rfl
  | false => exact ⟨rfl, fun state hstate ↦ by cases hstate⟩

theorem Good.observationFinished {diagnostic : Option String} {result : Except String Unit}
    (hunended : Unended line.history) (hgone : result = .ok () → Gone line.history)
    (h : c.active = some ⟨id, .confirmingHubGone⟩) :
    Good (c.observationFinished id result diagnostic).1 id
      { line with task := .applying (c.observationFinished id result diagnostic).2 } := by
  rw [QuitCoordinator.observationFinished.eq_def, h]
  dsimp only
  rw [if_neg (by simp)]
  cases result with
  | error message => exact ⟨hunended, fun state hstate ↦ by cases hstate⟩
  | ok u =>
    cases diagnostic with
    | none => exact ⟨hgone rfl, fun state hstate ↦ by cases hstate⟩
    | some diagnostic => exact ⟨hgone rfl, fun state hstate ↦ by cases hstate⟩

/-- **One reading**: the loop goes on, with what it has read or from the start, or it fails, or the
hub is gone. -/
theorem observeHubQuitWith_spec {target : HubQuitTarget} {state : ObserveState} {reading : Reading}
    {next : ObserveState ⊕ Except String Unit}
    (hnext : observeHubQuitWith target state reading = some next) :
    (∃ state', next = .inl state' ∧ (state'.last target = [] ∨
      state'.last target = state.last target ++ [.read target reading])) ∨
    (∃ message, next = .inr (.error message)) ∨
    (next = .inr (.ok ()) ∧ gone target = state.last target ++ [.read target reading]) := by
  rw [observeHubQuitWith.eq_def] at hnext
  split at hnext
  · split at hnext
    · cases hnext
      exact .inr (.inl ⟨_, rfl⟩)
    · split at hnext <;> cases hnext
      · exact .inr (.inl ⟨_, rfl⟩)
      · exact .inl ⟨_, rfl, .inl rfl⟩
    · cases hnext
      exact .inl ⟨_, rfl, .inr rfl⟩
  · rename_i alive
    cases hnext
    refine .inl ⟨_, rfl, ?_⟩
    cases alive with
    | true => exact .inl rfl
    | false => exact .inr rfl
  · split at hnext
    · cases hnext
      exact .inr (.inr ⟨rfl, rfl⟩)
    · cases hnext
      exact .inr (.inl ⟨_, rfl⟩)
    · split at hnext <;> cases hnext
      · exact .inr (.inl ⟨_, rfl⟩)
      · exact .inl ⟨_, rfl, .inl rfl⟩
  · rename_i late
    cases hnext
    cases late with
    | true => exact .inr (.inl ⟨_, rfl⟩)
    | false => exact .inl ⟨_, rfl, .inl rfl⟩
  · cases hnext

theorem Good.read {attemptId : ℕ} {target : HubQuitTarget} {diagnostic : Option String}
    {state : ObserveState} {reading : Reading} {next : ObserveState ⊕ Except String Unit}
    (hid : attemptId = id) (h : Observes target (state.last target) line.history)
    (hactive : c.active = some ⟨id, .confirmingHubGone⟩)
    (hnext : observeHubQuitWith target state reading = some next) :
    Good c id ⟨next.elim (.observing attemptId target diagnostic) (.observed attemptId diagnostic),
      line.history ++ [.read target reading]⟩ := by
  have hread := h.append (.read target reading)
  have hquiet : ∀ s ∈ state.last target ++ [.read target reading], s.isQuiet = true := by
    intro s hs
    obtain hs | hs := List.mem_append.mp hs
    · exact state.last_isQuiet target s hs
    · rw [List.mem_singleton.mp hs]
      rfl
  obtain ⟨state', rfl, hlast | hlast⟩ | ⟨message, rfl⟩ | ⟨rfl, hgone⟩ :=
    observeHubQuitWith_spec hnext
  · refine ⟨⟨hid, ?_⟩, fun state'' hstate ↦ ?_⟩
    · rw [hlast]
      exact hread.forget hquiet
    · cases hstate
      exact hactive
  · refine ⟨⟨hid, ?_⟩, fun state'' hstate ↦ ?_⟩
    · rw [hlast]
      exact hread
    · cases hstate
      exact hactive
  · refine ⟨⟨hid, hread.unended hquiet, nofun⟩, fun state'' hstate ↦ ?_⟩
    cases hstate
    exact hactive
  · refine ⟨⟨hid, hread.unended hquiet, fun _ ↦ ⟨target, ?_⟩⟩, fun state'' hstate ↦ ?_⟩
    · rw [hgone]
      exact hread
    · cases hstate
      exact hactive

theorem Good.apply {action : QuitAction} {history : List Step}
    (h : Good c id ⟨.applying action, history⟩) :
    Good c id ⟨(applyQuitAction action).1, history ++ (applyQuitAction action).2⟩ := by
  have hfits := h.fits
  have hactive := h.active
  cases action with
  | askNative others =>
    refine ⟨?_, hactive⟩
    rw [show history = [.sent false, .conflict false] from hfits]
    rfl
  | sendForced attemptId =>
    obtain ⟨hid, rfl⟩ : attemptId = id ∧ history = consented := hfits
    exact ⟨⟨hid, rfl⟩, hactive⟩
  | observe attemptId target diagnostic =>
    rw [applyQuitAction, List.append_nil]
    exact ⟨hfits, hactive⟩
  | exit => exact ⟨.inr (.inl ⟨_, hfits, rfl⟩), fun state hstate ↦ by cases hstate⟩
  | exitWithDiagnostic diagnostic =>
    rw [applyQuitAction, List.append_nil]
    exact ⟨hfits, fun state hstate ↦ by cases hstate⟩
  | failed message => exact ⟨.inl ⟨_, hfits, rfl⟩, fun state hstate ↦ by cases hstate⟩
  | ignore =>
    rw [applyQuitAction, List.append_nil]
    exact ⟨.inr (.inr hfits), fun state hstate ↦ by cases hstate⟩

theorem nextId_requestFinished (c : QuitCoordinator) (id : ℕ) (force : Bool)
    (result : QuitRequestResult) : (c.requestFinished id force result).1.nextId = c.nextId := by
  rw [QuitCoordinator.requestFinished.eq_def]
  split
  · rfl
  · split
    · rfl
    · split
      · split <;> rfl
      · rfl
      · rfl
      · rfl

theorem nextId_resolveNativeConsent (c : QuitCoordinator) (confirmed : Bool) :
    (c.resolveNativeConsent confirmed).1.nextId = c.nextId := by
  rw [QuitCoordinator.resolveNativeConsent.eq_def]
  split
  · rfl
  · split
    · rfl
    · split <;> rfl

theorem nextId_observationFinished (c : QuitCoordinator) (id : ℕ) (observed : Except String Unit)
    (diagnostic : Option String) :
    (c.observationFinished id observed diagnostic).1.nextId = c.nextId := by
  rw [QuitCoordinator.observationFinished.eq_def]
  split
  · rfl
  · split <;> rfl

/-- **One event of a line** keeps it as its attempt wants it. The coordinator is changed only from a
line that it waits for. -/
theorem Good.step (h : Good c id line) {e : LineEvent}
    (hstep : line.step ownPid parse c e = some (c', line')) :
    Good c' id line' ∧ c'.nextId = c.nextId ∧ (c' = c ∨ line.task.state? ≠ none) := by
  obtain ⟨task, history⟩ := line
  obtain ⟨hfits, hactive⟩ := h
  cases e with
  | answer runtime response =>
    cases task with
    | requesting attemptId force =>
      cases hstep
      exact ⟨⟨hfits, hactive⟩, rfl, .inl rfl⟩
    | _ => cases hstep
  | consent confirmed =>
    cases task with
    | asking =>
      cases hstep
      exact ⟨Good.resolveNativeConsent hfits (hactive _ rfl), nextId_resolveNativeConsent c _,
        .inr nofun⟩
    | _ => cases hstep
  | read reading =>
    cases task with
    | observing attemptId target diagnostic state =>
      obtain ⟨next, hnext, heq⟩ := Option.map_eq_some_iff.mp hstep
      cases heq
      exact ⟨Good.read hfits.1 hfits.2 (hactive _ rfl) hnext, rfl, .inl rfl⟩
    | _ => cases hstep
  | report =>
    cases task with
    | requested attemptId force result =>
      cases hstep
      obtain ⟨rfl, hhistory⟩ := hfits
      exact ⟨Good.requestFinished hhistory (hactive _ rfl), nextId_requestFinished c _ _ _,
        .inr nofun⟩
    | observed attemptId diagnostic result =>
      cases hstep
      obtain ⟨rfl, hunended, hgone⟩ := hfits
      exact ⟨Good.observationFinished hunended hgone (hactive _ rfl),
        nextId_observationFinished c _ _ _, .inr nofun⟩
    | _ => cases hstep
  | apply =>
    cases task with
    | applying action =>
      cases hstep
      exact ⟨Good.apply ⟨hfits, hactive⟩, rfl, .inl rfl⟩
    | _ => cases hstep
  | dismiss =>
    cases task with
    | showingDiagnostic diagnostic =>
      cases hstep
      exact ⟨⟨.inr (.inl ⟨_, hfits, rfl⟩), fun state hstate ↦ by cases hstate⟩, rfl, .inl rfl⟩
    | _ => cases hstep

end Lines

/-! ## The invariant of the application -/

/-- The lines are those of the attempts `1`, `2`, …, and the coordinator is in the state that their
tasks want. -/
structure App.Inv (d : App) : Prop where
  length : d.lines.length = d.coordinator.nextId
  good : ∀ i line, d.lines[i]? = some line → Good d.coordinator (i + 1) line

section Runs

variable {ownPid : ℕ} {parse : String → Option QuitResponseBody} {d d' : App}

theorem App.inv_start : App.start.Inv := ⟨rfl, fun i line h ↦ by cases h⟩

theorem App.Inv.gesture (h : d.Inv) (hd' : d.step ownPid parse .gesture = some d') : d'.Inv := by
  rw [App.step, QuitCoordinator.begin] at hd'
  cases hactive : d.coordinator.active with
  | some attempt =>
    rw [hactive] at hd'
    cases hd'
    exact h
  | none =>
    rw [hactive] at hd'
    cases hd'
    refine ⟨?_, fun i line hline ↦ ?_⟩
    · rw [List.length_append, h.length]
      rfl
    · rw [List.getElem?_append] at hline
      split at hline
      · obtain ⟨hfits, hwaits⟩ := h.good i line hline
        refine ⟨hfits, fun state hstate ↦ ?_⟩
        rw [hactive] at hwaits
        cases hwaits state hstate
      · rename_i hle
        obtain ⟨hlt, rfl⟩ := List.getElem?_eq_some_iff.mp hline
        rw [List.length_singleton] at hlt
        have hi : i = d.coordinator.nextId := by
          rw [← h.length]
          omega
        subst hi
        simp only [List.getElem_singleton]
        refine ⟨⟨rfl, rfl⟩, fun state hstate ↦ ?_⟩
        cases hstate
        rfl

theorem App.Inv.line (h : d.Inv) {i : ℕ} {e : LineEvent}
    (hd' : d.step ownPid parse (.line i e) = some d') : d'.Inv := by
  rw [App.step, Option.bind_eq_some_iff] at hd'
  obtain ⟨line, hline, hd'⟩ := hd'
  obtain ⟨⟨c, line'⟩, hstep, rfl⟩ := Option.map_eq_some_iff.mp hd'
  obtain ⟨hgood, hnext, hchanged⟩ := (h.good i line hline).step hstep
  refine ⟨?_, fun j line'' hline'' ↦ ?_⟩
  · rw [List.length_set, h.length]
    exact hnext.symm
  · rw [List.getElem?_set] at hline''
    split at hline''
    · rename_i hij
      subst hij
      split at hline''
      · cases hline''
        exact hgood
      · cases hline''
    · rename_i hij
      obtain ⟨hfits, hactive⟩ := h.good j line'' hline''
      refine ⟨hfits, fun state hstate ↦ ?_⟩
      obtain rfl | hwaits := hchanged
      · exact hactive state hstate
      · -- the coordinator waits for one line only
        obtain ⟨state', hstate'⟩ := Option.ne_none_iff_exists'.mp hwaits
        have hi := (h.good i line hline).active state' hstate'
        rw [hactive state hstate] at hi
        cases hi
        exact absurd rfl hij

theorem App.Inv.step (h : d.Inv) {e : DesktopEvent} (hd' : d.step ownPid parse e = some d') :
    d'.Inv := by
  cases e with
  | gesture => exact h.gesture hd'
  | line i e => exact h.line hd'

theorem Task.state?_of_isOutstanding {task : Task} (h : task.isOutstanding = true) :
    ∃ state, task.state? = some state := by
  cases task <;> first | exact ⟨_, rfl⟩ | cases h

/-- A predicate that holds at one place at most. -/
theorem countP_le_one {α : Type*} {p : α → Bool} {l : List α}
    (h : ∀ (i j : ℕ) (a b : α), l[i]? = some a → l[j]? = some b → p a = true → p b = true → i = j) :
    l.countP p ≤ 1 := by
  induction l with
  | nil => exact Nat.zero_le 1
  | cons a l ih =>
    rw [List.countP_cons]
    split
    · rename_i ha
      have hrest : l.countP p = 0 := by
        rw [List.countP_eq_zero]
        intro b hb hpb
        obtain ⟨j, hj⟩ := List.mem_iff_getElem?.mp hb
        cases h 0 (j + 1) a b rfl hj ha hpb
      exact Nat.le_of_eq (by rw [hrest])
    · exact ih fun i j b b' hi hj hb hb' ↦ Nat.succ_inj.mp (h (i + 1) (j + 1) b b' hi hj hb hb')

theorem App.Inv.orderly (h : d.Inv) : d.Orderly where
  proper := by
    intro line hline
    obtain ⟨i, hi⟩ := List.mem_iff_getElem?.mp hline
    exact (h.good i line hi).fits.proper
  oneOutstanding := by
    refine countP_le_one fun i j line line' hi hj hout hout' ↦ ?_
    obtain ⟨state, hstate⟩ := Task.state?_of_isOutstanding hout
    obtain ⟨state', hstate'⟩ := Task.state?_of_isOutstanding hout'
    have hactive := (h.good i line hi).active state hstate
    rw [(h.good j line' hj).active state' hstate'] at hactive
    cases hactive
    rfl

/-- **The desktop quits only behind a stopped hub**: after any gestures, answers, readings and
choices in any order, one activity at most is outstanding, and the history of every attempt is
proper. -/
theorem quits_of_run {es : List DesktopEvent}
    (hrun : run (App.step ownPid parse) .start es = some d) :
    d.Orderly :=
  (run_invariant App.Inv (fun _ _ _ h hd' ↦ h.step hd') App.inv_start hrun).orderly

end Runs

/-- A hub that another client uses: the user quits anyway, and the hub is observed until it is gone.
-/
theorem quits_of_forced_quit : ∃ d,
    run (App.step 7 fun _ ↦ none) .start
      [.gesture,
        .line 0 (.answer (.present ⟨some 42, 4100, some "hub", some "secret"⟩) (.status 409 "")),
        .line 0 .report, .line 0 .apply, .gesture, .line 0 (.consent true), .line 0 .apply,
        .line 0 (.answer (.present ⟨some 42, 4100, some "hub", some "secret"⟩) .success),
        .line 0 .report, .line 0 .apply, .line 0 (.read (.runtime .absent)),
        .line 0 (.read (.pid false)), .line 0 (.read (.runtime .absent)), .line 0 .report,
        .line 0 .apply] = some d ∧ d.Orderly := by
  refine Exists.imp (fun d hrun ↦ ⟨hrun, quits_of_run hrun⟩) ?_
  exact ⟨_, rfl⟩

end Lasterm.Desktop.Quit
