import Lasterm.Library.Runs
import Mathlib.Data.List.TakeWhile

/-!
# Quit and shutdown

`shutdown.ts`: the lifecycle that startup gives to the server, the coordinator of a quit, and the
teardown that both end in. Requests, signals and the end of a response can come in any order while
the agent is being stopped or the server is closing.

There is one teardown, in order, whatever comes (`teardown_of_run`). Where the quit was first, it
waits for the response, and ends with status 0 only if the agent stop was confirmed and nothing
failed.

The process is gone once `exit` is called. The calls behind `server.close` follow each other at
once, so that the timer can fire only while the server is closing.
-/

namespace Lasterm.Hub.Shutdown

open Runs

/-! ## What is done -/

/-- The `phase` of the teardown. -/
inductive Phase where
  | serverClose
  | dbClose
  | runtimeDelete
  deriving DecidableEq

/-- What has happened, in the order in which it has. -/
inductive Entry where
  | quitBegan
  | shutdownRequested
  /-- `onQuitDelivered`, behind an `onQuit`. -/
  | delivered
  | stopped (confirmed : Bool)
  | serverClose
  | serverClosed
  | dbClose
  | deleteRuntime
  | failed (phase : Phase)
  | timedOut (phase : Phase)
  | exit (code : ℕ)
  deriving DecidableEq

/-- How the calls of the teardown end: `true` for a call that returns. -/
structure Outcomes where
  serverClose : Bool
  dbClose : Bool
  deleteRuntime : Bool

/-- The `catch` of `runGracefulShutdown`. Where `deleteRuntime` throws again, this is only logged.
-/
def afterFailure (failure : Entry) : List Entry := [failure, .deleteRuntime, .exit 1]

/-- `runGracefulShutdown`, from where `server.close` has settled. -/
def afterServerClose (exitCode : ℕ) (o : Outcomes) : List Entry :=
  if o.serverClose then
    [.serverClosed, .dbClose] ++
      if o.dbClose then
        .deleteRuntime ::
          if o.deleteRuntime then [.exit exitCode] else afterFailure (.failed .runtimeDelete)
      else afterFailure (.failed .dbClose)
  else afterFailure (.failed .serverClose)

/-! ## The hub -/

structure AgentStopResult where
  stopped : Bool
  diagnostic : String
  stdout : String
  stderr : String

structure QuitResult where
  ok : Bool
  message : String
  stdout : String
  stderr : String

/-- What `stopPromise` makes of the end of `stopLocalAgent`. -/
def quitResult : Except String AgentStopResult → QuitResult
  | .ok result => ⟨result.stopped, result.diagnostic, result.stdout, result.stderr⟩
  | .error message => ⟨false, "Agent stop was not confirmed: " ++ message, "", ""⟩

inductive StopPromise where
  | pending
  | settled (result : QuitResult)

inductive TeardownPromise where
  /-- `finishQuit` waits for the stop. -/
  | afterStop
  | started

structure QuitCoordinator where
  stopPromise : Option StopPromise
  teardownPromise : Option TeardownPromise

structure HubProcess where
  coordinator : Option QuitCoordinator
  /-- The module's `shutdownPromise`, by the `exitCode` of its options. -/
  shutdownPromise : Option ℕ
  exited : Bool
  entries : List Entry

namespace HubProcess

def start : HubProcess := ⟨none, none, false, []⟩

variable (p : HubProcess)

def log (entries : List Entry) : HubProcess := { p with entries := p.entries ++ entries }

def setCoordinator (c : QuitCoordinator) : HubProcess := { p with coordinator := some c }

def gracefulShutdown (exitCode : ℕ) : HubProcess :=
  match p.shutdownPromise with
  | some _ => p
  | none => { p with shutdownPromise := some exitCode }.log [.serverClose]

end HubProcess

namespace QuitCoordinator

variable (c : QuitCoordinator) (p : HubProcess)

/-- `beginQuit`, unless the one of the session throws. -/
def beginQuit (throws : Bool) : Option (QuitCoordinator × HubProcess) :=
  match c.stopPromise with
  | some _ => some (c, p)
  | none =>
    if throws then none else some ({ c with stopPromise := some .pending }, p.log [.quitBegan])

def finishQuit (throws : Bool) : HubProcess :=
  match c.teardownPromise with
  | some _ => p
  | none =>
    match c.beginQuit p throws with
    | none => p
    | some (c', p') => p'.setCoordinator { c' with teardownPromise := some .afterStop }

/-- `shutdown`, with the `exitCode` of the options. -/
def shutdown (exitCode : Option ℕ) : HubProcess :=
  match c.stopPromise, c.teardownPromise with
  | some _, _ => p
  | none, some _ => p
  | none, none =>
    (p.gracefulShutdown (exitCode.getD 0)).setCoordinator
      { c with teardownPromise := some .started }

end QuitCoordinator

/-! ## The lifecycle -/

namespace HubProcess

variable (p : HubProcess)

/-- `onQuit`. Without a session manager it does nothing. -/
def onQuit (session : Bool) (throws : Bool) : HubProcess :=
  if session then
    let c := p.coordinator.getD ⟨none, none⟩
    match c.beginQuit (p.setCoordinator c) throws with
    | none => p.setCoordinator c
    | some (c', p') => p'.setCoordinator c'
  else p

def onQuitDelivered (throws : Bool) : HubProcess :=
  match p.coordinator with
  | none => p
  | some c => c.finishQuit (p.log [.delivered]) throws

def shutdown (exitCode : Option ℕ) : HubProcess :=
  let p := p.log [.shutdownRequested]
  match p.coordinator with
  | none => p.gracefulShutdown (exitCode.getD 0)
  | some c => c.shutdown p exitCode

end HubProcess

/-! ## Runs -/

inductive LifecycleEvent where
  | onQuit (session throws : Bool)
  | onQuitDelivered (throws : Bool)
  | shutdown (exitCode : Option ℕ)
  /-- `stopLocalAgent` settles. -/
  | stopSettles (result : Except String AgentStopResult)
  /-- The callback in `finishQuit` runs. -/
  | afterStop
  | serverCloseSettles (outcomes : Outcomes)
  | timeout

namespace HubProcess

variable (p : HubProcess)

def stopSettles (result : Except String AgentStopResult) : Option HubProcess :=
  match p.coordinator with
  | some ⟨some .pending, teardownPromise⟩ =>
    some ((p.setCoordinator ⟨some (.settled (quitResult result)), teardownPromise⟩).log
      [.stopped (quitResult result).ok])
  | _ => none

def afterStop : Option HubProcess :=
  match p.coordinator with
  | some ⟨some (.settled result), some .afterStop⟩ =>
    some ((p.gracefulShutdown (if result.ok then 0 else 1)).setCoordinator
      ⟨some (.settled result), some .started⟩)
  | _ => none

/-- The process ends with these. -/
def finish (entries : List Entry) : HubProcess := { p.log entries with exited := true }

def step (e : LifecycleEvent) : Option HubProcess :=
  if p.exited then none
  else
    match e with
    | .onQuit session throws => some (p.onQuit session throws)
    | .onQuitDelivered throws => some (p.onQuitDelivered throws)
    | .shutdown exitCode => some (p.shutdown exitCode)
    | .stopSettles result => p.stopSettles result
    | .afterStop => p.afterStop
    | .serverCloseSettles outcomes =>
      p.shutdownPromise.map fun exitCode ↦ p.finish (afterServerClose exitCode outcomes)
    | .timeout => p.shutdownPromise.map fun _ ↦ p.finish (afterFailure (.timedOut .serverClose))

end HubProcess

/-! ## What a history owes -/

namespace Entry

/-- A call of the teardown, or how one ended. -/
def ofTeardown : Entry → Bool
  | .quitBegan | .shutdownRequested | .delivered | .stopped _ => false
  | _ => true

def isRequest : Entry → Bool
  | .quitBegan | .shutdownRequested => true
  | _ => false

/-- The place of a call in the order. -/
def rank? : Entry → Option ℕ
  | .serverClose => some 0
  | .dbClose => some 1
  | .exit _ => some 2
  | _ => none

theorem rank?_eq_none {e : Entry} (h : e.ofTeardown = false) : e.rank? = none := by
  cases e <;> first | rfl | cases h

end Entry

section Histories

variable {entries more : List Entry} {exitCode : ℕ}

/-- The quit was the first request. -/
def QuitFirst (entries : List Entry) : Prop := entries.find? Entry.isRequest = some .quitBegan

/-- What comes before the first one. -/
def before (e : Entry) (entries : List Entry) : List Entry := entries.takeWhile (· ≠ e)

theorem before_append_of_mem {e : Entry} (h : e ∈ entries) :
    before e (entries ++ more) = before e entries := by
  induction entries with
  | nil => exact absurd h List.not_mem_nil
  | cons e' entries ih =>
    rw [List.cons_append, before, before, List.takeWhile_cons, List.takeWhile_cons]
    split
    · rename_i hne
      rw [List.mem_cons] at h
      obtain rfl | h := h
      · simp at hne
      · exact congrArg _ (ih h)
    · rfl

theorem mem_before_append {e e' : Entry} (h : e' ∈ before e (entries ++ more)) :
    e' ∈ before e entries ∨ e' ∈ before e more := by
  by_cases he : e ∈ entries
  · rw [before_append_of_mem he] at h
    exact .inl h
  · have hall : ∀ x ∈ entries, decide (x ≠ e) = true := fun x hx ↦
      decide_eq_true fun heq ↦ he (heq ▸ hx)
    rw [before, List.takeWhile_append_of_pos hall, List.mem_append] at h
    rw [before, List.takeWhile_eq_self_iff.mpr hall]
    exact h

/-- Its calls are started once at most and in order, `db.close` only behind a `server.close` that
has succeeded. Where the quit was the first request, nothing of it comes before the response is
delivered, and the status is 0 only if the stop was confirmed and nothing has failed. -/
structure OneTeardown (entries : List Entry) : Prop where
  order : (entries.filterMap Entry.rank?).Pairwise (· < ·)
  closed : .dbClose ∉ before .serverClosed entries
  delivered : QuitFirst entries → ∀ e ∈ before .delivered entries, e.ofTeardown = false
  status : QuitFirst entries → .exit 0 ∈ entries →
    .stopped true ∈ entries ∧ ∀ phase, .failed phase ∉ entries ∧ .timedOut phase ∉ entries

theorem quitFirst_append (h : QuitFirst (entries ++ more)) :
    QuitFirst entries ∨ entries.find? Entry.isRequest = none ∧ QuitFirst more := by
  rw [QuitFirst, List.find?_append] at h
  cases hfound : entries.find? Entry.isRequest with
  | none =>
    rw [hfound] at h
    exact .inr ⟨rfl, h⟩
  | some e =>
    rw [hfound] at h
    exact .inl (hfound.trans h)

theorem quitFirst_of_append (hmore : .quitBegan ∉ more) (h : QuitFirst (entries ++ more)) :
    QuitFirst entries :=
  (quitFirst_append h).resolve_right fun h' ↦ hmore (List.mem_of_find?_eq_some h'.2)

theorem rank?_append_of_quiet (h : ∀ e ∈ more, e.ofTeardown = false) :
    (entries ++ more).filterMap Entry.rank? = entries.filterMap Entry.rank? := by
  rw [List.filterMap_append, List.filterMap_eq_nil_iff.mpr fun e he ↦ Entry.rank?_eq_none (h e he),
    List.append_nil]

/-- What is no part of a teardown does not matter to it. -/
theorem OneTeardown.append_quiet (h : OneTeardown entries)
    (hidle : entries.find? Entry.isRequest = none → ∀ e ∈ entries, e.ofTeardown = false)
    (hmore : ∀ e ∈ more, e.ofTeardown = false) : OneTeardown (entries ++ more) where
  order := by
    rw [rank?_append_of_quiet hmore]
    exact h.order
  closed := by
    intro hmem
    obtain hmem | hmem := mem_before_append hmem
    · exact h.closed hmem
    · exact absurd (hmore _ (List.takeWhile_subset _ hmem)) (by decide)
  delivered := by
    intro hquit e he
    obtain he | he := mem_before_append he
    · obtain hquit | ⟨hnone, -⟩ := quitFirst_append hquit
      · exact h.delivered hquit e he
      · exact hidle hnone e (List.takeWhile_subset _ he)
    · exact hmore e (List.takeWhile_subset _ he)
  status := by
    intro hquit hexit
    have hentries : Entry.exit 0 ∈ entries := by
      rw [List.mem_append] at hexit
      exact hexit.resolve_right fun hexit ↦ absurd (hmore _ hexit) (by decide)
    obtain hquit | ⟨hnone, -⟩ := quitFirst_append hquit
    · obtain ⟨hstopped, hclean⟩ := h.status hquit hentries
      refine ⟨List.mem_append_left _ hstopped, fun phase ↦ ⟨fun hmem ↦ ?_, fun hmem ↦ ?_⟩⟩
      · rw [List.mem_append] at hmem
        obtain hmem | hmem := hmem
        · exact (hclean phase).1 hmem
        · exact absurd (hmore _ hmem) (by simp [Entry.ofTeardown])
      · rw [List.mem_append] at hmem
        obtain hmem | hmem := hmem
        · exact (hclean phase).2 hmem
        · exact absurd (hmore _ hmem) (by simp [Entry.ofTeardown])
    · exact absurd (hidle hnone _ hentries) (by decide)

theorem oneTeardown_append_serverClose (hidle : ∀ e ∈ entries, e.ofTeardown = false)
    (hdelivered : QuitFirst entries → .delivered ∈ entries) :
    OneTeardown (entries ++ [.serverClose]) where
  order := by
    rw [List.filterMap_append, List.filterMap_eq_nil_iff.mpr fun e he ↦
      Entry.rank?_eq_none (hidle e he)]
    exact List.pairwise_singleton _ _
  closed := by
    intro hmem
    have hmem := List.takeWhile_subset _ hmem
    rw [List.mem_append, List.mem_singleton] at hmem
    obtain hmem | hmem := hmem
    · exact absurd (hidle _ hmem) (by decide)
    · cases hmem
  delivered := by
    intro hquit e he
    obtain hquit | ⟨-, hquit⟩ := quitFirst_append hquit
    · rw [before_append_of_mem (hdelivered hquit)] at he
      exact hidle e (List.takeWhile_subset _ he)
    · cases hquit
  status := by
    intro _ hexit
    rw [List.mem_append, List.mem_singleton] at hexit
    obtain hexit | hexit := hexit
    · exact absurd (hidle _ hexit) (by decide)
    · cases hexit

/-- What a teardown does once `server.close` has settled. -/
structure Ending (exitCode : ℕ) (more : List Entry) : Prop where
  order : ([0] ++ more.filterMap Entry.rank?).Pairwise (· < ·)
  closed : .dbClose ∉ before .serverClosed more
  noRequest : ∀ e ∈ more, e.isRequest = false
  status : .exit 0 ∈ more → exitCode = 0 ∧ ∀ phase, .failed phase ∉ more ∧ .timedOut phase ∉ more

theorem ending_afterFailure (exitCode : ℕ) (phase : Phase) :
    Ending exitCode (afterFailure (.timedOut phase)) where
  order := by simp [afterFailure, Entry.rank?, List.filterMap_cons]
  closed := by simp [afterFailure, before, List.takeWhile]
  noRequest := by simp [afterFailure, Entry.isRequest]
  status := by simp [afterFailure]

theorem ending_afterServerClose (exitCode : ℕ) (o : Outcomes) :
    Ending exitCode (afterServerClose exitCode o) := by
  obtain ⟨serverClose, dbClose, deleteRuntime⟩ := o
  rw [afterServerClose]
  constructor
  · cases serverClose <;> cases dbClose <;> cases deleteRuntime <;>
      simp [afterFailure, Entry.rank?, List.filterMap_cons]
  · cases serverClose <;> cases dbClose <;> cases deleteRuntime <;>
      simp [afterFailure, before, List.takeWhile]
  · cases serverClose <;> cases dbClose <;> cases deleteRuntime <;>
      simp [afterFailure, Entry.isRequest]
  · cases serverClose <;> cases dbClose <;> cases deleteRuntime <;>
      simp [afterFailure, eq_comm]

/-- The history of a hub whose server is closing. -/
structure Closing (exitCode : ℕ) (entries : List Entry) : Prop where
  order : entries.filterMap Entry.rank? = [0]
  clean : ∀ phase, .failed phase ∉ entries ∧ .timedOut phase ∉ entries
  delivered : QuitFirst entries → .delivered ∈ entries
  stopped : QuitFirst entries → exitCode = 0 → .stopped true ∈ entries

theorem Closing.rank_eq (h : Closing exitCode entries) {e : Entry}
    (he : e ∈ entries) {n : ℕ} (hrank : e.rank? = some n) : n = 0 := by
  have hmem : n ∈ entries.filterMap Entry.rank? := List.mem_filterMap.mpr ⟨e, he, hrank⟩
  rw [h.order] at hmem
  exact List.mem_singleton.mp hmem

theorem Closing.append_request (h : Closing exitCode entries)
    (hmore : ∀ e ∈ more, e.ofTeardown = false)
    (hquit : QuitFirst (entries ++ more) → QuitFirst entries) :
    Closing exitCode (entries ++ more) := by
  have hnot : ∀ {e : Entry}, e ∉ entries → e.ofTeardown = true → e ∉ entries ++ more := by
    intro e he hof hmem
    rw [List.mem_append] at hmem
    obtain hmem | hmem := hmem
    · exact he hmem
    · rw [hmore e hmem] at hof
      cases hof
  refine ⟨?_, fun phase ↦ ⟨?_, ?_⟩, fun hq ↦ ?_, fun hq hcode ↦ ?_⟩
  · rw [rank?_append_of_quiet hmore, h.order]
  · exact hnot (h.clean phase).1 rfl
  · exact hnot (h.clean phase).2 rfl
  · exact List.mem_append_left _ (h.delivered (hquit hq))
  · exact List.mem_append_left _ (h.stopped (hquit hq) hcode)

theorem Closing.append_quiet (h : Closing exitCode entries)
    (hmore : ∀ e ∈ more, e.ofTeardown = false) (hquit : .quitBegan ∉ more) :
    Closing exitCode (entries ++ more) :=
  h.append_request hmore (quitFirst_of_append hquit)

theorem OneTeardown.append_ending (h : OneTeardown entries)
    (hclosing : Closing exitCode entries) (hmore : Ending exitCode more) :
    OneTeardown (entries ++ more) where
  order := by
    rw [List.filterMap_append, hclosing.order]
    exact hmore.order
  closed := by
    intro hmem
    obtain hmem | hmem := mem_before_append hmem
    · exact h.closed hmem
    · exact hmore.closed hmem
  delivered := by
    intro hquit e he
    obtain hquit | ⟨-, hquit⟩ := quitFirst_append hquit
    · rw [before_append_of_mem (hclosing.delivered hquit)] at he
      exact h.delivered hquit e he
    · have hfound := List.find?_some hquit
      rw [hmore.noRequest _ (List.mem_of_find?_eq_some hquit)] at hfound
      cases hfound
  status := by
    intro hquit hexit
    rw [List.mem_append] at hexit
    obtain hexit | hexit := hexit
    · exact absurd (hclosing.rank_eq hexit rfl) (by decide)
    obtain ⟨hcode, hclean⟩ := hmore.status hexit
    obtain hquit | ⟨-, hquit⟩ := quitFirst_append hquit
    · refine ⟨List.mem_append_left _ (hclosing.stopped hquit hcode), fun phase ↦ ⟨?_, ?_⟩⟩
      · rw [List.mem_append]
        exact not_or.mpr ⟨(hclosing.clean phase).1, (hclean phase).1⟩
      · rw [List.mem_append]
        exact not_or.mpr ⟨(hclosing.clean phase).2, (hclean phase).2⟩
    · have hfound := List.find?_some hquit
      rw [hmore.noRequest _ (List.mem_of_find?_eq_some hquit)] at hfound
      cases hfound

end Histories

/-! ## The invariant -/

/-- The history and the promises of the hub agree. -/
structure HubProcess.Inv (p : HubProcess) : Prop where
  teardown : OneTeardown p.entries
  idle : p.shutdownPromise = none → ∀ e ∈ p.entries, e.ofTeardown = false
  closing : ∀ exitCode, p.shutdownPromise = some exitCode → p.exited = false →
    Closing exitCode p.entries
  noRequest : p.entries.find? Entry.isRequest = none → p.shutdownPromise = none ∧
    ∀ c, p.coordinator = some c → c.stopPromise = none ∧ c.teardownPromise = none
  quit : QuitFirst p.entries → ∃ c stop, p.coordinator = some c ∧ c.stopPromise = some stop ∧
    (c.teardownPromise = none → p.shutdownPromise = none) ∧
    (c.teardownPromise ≠ none → .delivered ∈ p.entries)
  stopped : ∀ c result, p.coordinator = some c → c.stopPromise = some (.settled result) →
    result.ok = true → .stopped true ∈ p.entries

namespace HubProcess

variable {p p' : HubProcess}

theorem inv_start : start.Inv where
  teardown :=
    { order := List.Pairwise.nil
      closed := List.not_mem_nil
      delivered := nofun
      status := fun h ↦ by cases h }
  idle := fun _ e he ↦ absurd he List.not_mem_nil
  closing := fun _ h ↦ by cases h
  noRequest := fun _ ↦ ⟨rfl, fun _ h ↦ by cases h⟩
  quit := nofun
  stopped := fun _ _ h ↦ by cases h

variable {c : QuitCoordinator}

section

variable (h : p.Inv)
include h

/-- What is no part of a teardown and no quit can be added. -/
theorem Inv.log {more : List Entry} (hmore : ∀ e ∈ more, e.ofTeardown = false)
    (hquit : .quitBegan ∉ more) : (p.log more).Inv where
  teardown := h.teardown.append_quiet (fun hnone ↦ h.idle (h.noRequest hnone).1) hmore
  idle := by
    intro hnone e he
    rw [HubProcess.log, List.mem_append] at he
    obtain he | he := he
    · exact h.idle hnone e he
    · exact hmore e he
  closing := fun exitCode hs hex ↦ (h.closing exitCode hs hex).append_quiet hmore hquit
  noRequest := by
    intro hnone
    rw [HubProcess.log, List.find?_append, Option.or_eq_none_iff] at hnone
    exact h.noRequest hnone.1
  quit := by
    intro hq
    obtain ⟨c, stop, hc, hstop, hnone, hdelivered⟩ := h.quit (quitFirst_of_append hquit hq)
    exact ⟨c, stop, hc, hstop, hnone, fun hne ↦ List.mem_append_left _ (hdelivered hne)⟩
  stopped := fun c result hc hstop hok ↦
    List.mem_append_left _ (h.stopped c result hc hstop hok)

theorem Inv.setCoordinator (hno : p.entries.find? Entry.isRequest = none →
      c.stopPromise = none ∧ c.teardownPromise = none)
    (hquit : QuitFirst p.entries → c.stopPromise.isSome ∧
      (c.teardownPromise = none → p.shutdownPromise = none) ∧
      (c.teardownPromise ≠ none → .delivered ∈ p.entries))
    (hstopped : ∀ result, c.stopPromise = some (.settled result) → result.ok = true →
      .stopped true ∈ p.entries) : (p.setCoordinator c).Inv where
  teardown := h.teardown
  idle := h.idle
  closing := h.closing
  noRequest := by
    intro hnone
    refine ⟨(h.noRequest hnone).1, fun c' hc' ↦ ?_⟩
    cases hc'
    exact hno hnone
  quit := by
    intro hq
    obtain ⟨hsome, hnone, hdelivered⟩ := hquit hq
    obtain ⟨stop, hstop⟩ := Option.isSome_iff_exists.mp hsome
    exact ⟨c, stop, rfl, hstop, hnone, hdelivered⟩
  stopped := by
    intro c' result hc' hstop hok
    cases hc'
    exact hstopped result hstop hok

/-- A quit begins. No teardown goes on where it is the first request. -/
theorem Inv.began (hbegan : ∀ c', p.coordinator = some c' → c'.stopPromise = none)
    (hc : c.stopPromise = some .pending)
    (hteardown : p.entries.find? Entry.isRequest = none → c.teardownPromise ≠ none →
      .delivered ∈ p.entries) : ((p.setCoordinator c).log [.quitBegan]).Inv := by
  have hnot : ¬QuitFirst p.entries := by
    intro hq
    obtain ⟨c', stop, hc', hstop, -⟩ := h.quit hq
    rw [hbegan c' hc'] at hstop
    cases hstop
  have hmore : ∀ e ∈ [Entry.quitBegan], e.ofTeardown = false := by decide
  refine ⟨h.teardown.append_quiet (fun hnone ↦ h.idle (h.noRequest hnone).1) hmore,
    fun hnone e he ↦ ?_, fun exitCode hs hex ↦ ?_, fun hnone ↦ ?_, fun hq ↦ ?_,
    fun c' result hc' hstop _ ↦ ?_⟩
  · obtain he | he := List.mem_append.mp he
    · exact h.idle hnone e he
    · exact hmore e he
  · have hfound : p.entries.find? Entry.isRequest ≠ none := by
      intro hnone
      cases (h.noRequest hnone).1.symm.trans hs
    exact (h.closing exitCode hs hex).append_request hmore fun hq ↦
      (quitFirst_append hq).resolve_right fun h' ↦ hfound h'.1
  · rw [HubProcess.log, List.find?_append, Option.or_eq_none_iff] at hnone
    cases hnone.2
  · obtain hq | ⟨hnone, -⟩ := quitFirst_append hq
    · exact absurd hq hnot
    · exact ⟨c, .pending, rfl, hc, fun _ ↦ (h.noRequest hnone).1,
        fun hne ↦ List.mem_append_left _ (hteardown hnone hne)⟩
  · cases hc'
    rw [hc] at hstop
    cases hstop

theorem Inv.gracefulShutdown (exitCode : ℕ) (hfound : p.entries.find? Entry.isRequest ≠ none)
    (hquit : QuitFirst p.entries → (∃ c, p.coordinator = some c ∧ c.teardownPromise ≠ none) ∧
      (exitCode = 0 → .stopped true ∈ p.entries)) : (p.gracefulShutdown exitCode).Inv := by
  rw [HubProcess.gracefulShutdown]
  cases hs : p.shutdownPromise with
  | some _ => exact h
  | none =>
    have hidle := h.idle hs
    have hdelivered : QuitFirst p.entries → .delivered ∈ p.entries := by
      intro hq
      obtain ⟨⟨c, hc, hne⟩, -⟩ := hquit hq
      obtain ⟨c', stop, hc', -, -, hdelivered⟩ := h.quit hq
      rw [hc] at hc'
      cases hc'
      exact hdelivered hne
    have hfirst : QuitFirst (p.entries ++ [.serverClose]) → QuitFirst p.entries :=
      quitFirst_of_append (by decide)
    refine ⟨oneTeardown_append_serverClose hidle hdelivered, ?_, fun exitCode' hs' _ ↦ ?_,
      fun hnone ↦ ?_, fun hq ↦ ?_, fun c result hc hstop hok ↦ ?_⟩
    · intro hnone
      cases hnone
    · cases hs'
      refine ⟨?_, fun phase ↦ ⟨fun hmem ↦ ?_, fun hmem ↦ ?_⟩, fun hq ↦ ?_, fun hq hcode ↦ ?_⟩
      · rw [HubProcess.log, List.filterMap_append, List.filterMap_eq_nil_iff.mpr fun e he ↦
          Entry.rank?_eq_none (hidle e he)]
        rfl
      · rw [HubProcess.log, List.mem_append, List.mem_singleton] at hmem
        obtain hmem | hmem := hmem
        · exact absurd (hidle _ hmem) (by simp [Entry.ofTeardown])
        · cases hmem
      · rw [HubProcess.log, List.mem_append, List.mem_singleton] at hmem
        obtain hmem | hmem := hmem
        · exact absurd (hidle _ hmem) (by simp [Entry.ofTeardown])
        · cases hmem
      · exact List.mem_append_left _ (hdelivered (hfirst hq))
      · exact List.mem_append_left _ ((hquit (hfirst hq)).2 hcode)
    · rw [HubProcess.log, List.find?_append, Option.or_eq_none_iff] at hnone
      exact absurd hnone.1 hfound
    · obtain ⟨⟨c, hc, hne⟩, -⟩ := hquit (hfirst hq)
      obtain ⟨c', stop, hc', hstop, -, hdelivered'⟩ := h.quit (hfirst hq)
      rw [hc] at hc'
      cases hc'
      exact ⟨c, stop, hc, hstop, fun hnone ↦ absurd hnone hne,
        fun hne' ↦ List.mem_append_left _ (hdelivered' hne')⟩
    · exact List.mem_append_left _ (h.stopped c result hc hstop hok)

/-! ### The operations -/

theorem Inv.onQuit (session throws : Bool) : (p.onQuit session throws).Inv := by
  rw [HubProcess.onQuit]
  cases session with
  | false => exact h
  | true =>
    rw [if_pos rfl]
    cases hc : p.coordinator with
    | none =>
      have hnot : ¬QuitFirst p.entries := by
        intro hq
        obtain ⟨c, stop, hc', -⟩ := h.quit hq
        cases hc.symm.trans hc'
      cases throws with
      | true =>
        exact h.setCoordinator (fun _ ↦ ⟨rfl, rfl⟩) (fun hq ↦ absurd hq hnot) fun _ hstop ↦ by
          cases hstop
      | false =>
        exact h.began (c := ⟨some .pending, none⟩) (fun c' hc' ↦ by cases hc.symm.trans hc') rfl
          fun _ hne ↦ absurd rfl hne
    | some c =>
      have hsame : p.setCoordinator c = p := by
        rw [HubProcess.setCoordinator, ← hc]
      dsimp only [Option.getD_some]
      rw [hsame, QuitCoordinator.beginQuit]
      cases hstop : c.stopPromise with
      | some stop =>
        dsimp only
        rw [hsame]
        exact h
      | none =>
        cases throws with
        | true =>
          dsimp only
          rw [if_pos rfl]
          exact h
        | false =>
          refine h.began (c := ⟨some .pending, c.teardownPromise⟩) (fun c' hc' ↦ ?_) rfl
            fun hnone hne ↦ absurd ((h.noRequest hnone).2 c hc).2 hne
          cases hc.symm.trans hc'
          exact hstop

/-- The teardown waits for the stop only once the response is delivered. -/
theorem Inv.finishQuit (hc : p.coordinator = some c) (hdelivered : .delivered ∈ p.entries)
    (throws : Bool) : (c.finishQuit p throws).Inv := by
  rw [QuitCoordinator.finishQuit]
  cases hteardown : c.teardownPromise with
  | some _ => exact h
  | none =>
    dsimp only
    rw [QuitCoordinator.beginQuit]
    cases hstop : c.stopPromise with
    | some stop =>
      refine h.setCoordinator (fun hnone ↦ ?_) (fun hq ↦ ?_) fun result hs hok ↦ ?_
      · rw [((h.noRequest hnone).2 c hc).1] at hstop
        cases hstop
      · refine ⟨?_, ?_, fun _ ↦ hdelivered⟩
        · rw [hstop]
          rfl
        · intro hnone
          cases hnone
      · exact h.stopped c result hc hs hok
    | none =>
      cases throws with
      | true => exact h
      | false =>
        refine h.began (c := ⟨some .pending, some .afterStop⟩) (fun c' hc' ↦ ?_) rfl
          fun _ _ ↦ hdelivered
        rw [hc] at hc'
        cases hc'
        exact hstop

theorem Inv.onQuitDelivered (throws : Bool) : (p.onQuitDelivered throws).Inv := by
  rw [HubProcess.onQuitDelivered]
  cases hc : p.coordinator with
  | none => exact h
  | some c =>
    have hlog : (p.log [.delivered]).Inv := h.log (by decide) (by decide)
    exact hlog.finishQuit hc (List.mem_append_right _ List.mem_cons_self) throws

end

theorem gracefulShutdown_entries (p : HubProcess) (exitCode : ℕ) :
    ∃ more, (p.gracefulShutdown exitCode).entries = p.entries ++ more ∧ .quitBegan ∉ more := by
  rw [HubProcess.gracefulShutdown]
  cases p.shutdownPromise with
  | some _ => exact ⟨[], (List.append_nil _).symm, List.not_mem_nil⟩
  | none => exact ⟨[.serverClose], rfl, by decide⟩

theorem Inv.shutdown (h : p.Inv) (exitCode : Option ℕ) : (p.shutdown exitCode).Inv := by
  have hlog : (p.log [.shutdownRequested]).Inv := h.log (by decide) (by decide)
  have hfound : (p.log [.shutdownRequested]).entries.find? Entry.isRequest ≠ none := by
    intro hnone
    rw [HubProcess.log, List.find?_append, Option.or_eq_none_iff] at hnone
    cases hnone.2
  rw [HubProcess.shutdown]
  cases hc : (p.log [.shutdownRequested]).coordinator with
  | none =>
    refine hlog.gracefulShutdown _ hfound fun hq ↦ ?_
    obtain ⟨c, stop, hc', -⟩ := hlog.quit hq
    cases hc.symm.trans hc'
  | some c =>
    dsimp only
    rw [QuitCoordinator.shutdown.eq_def]
    cases hstop : c.stopPromise with
    | some stop => exact hlog
    | none =>
      cases hteardown : c.teardownPromise with
      | some _ => exact hlog
      | none =>
        -- a quit that was first has a stop promise
        have hnot : ¬QuitFirst (p.log [.shutdownRequested]).entries := by
          intro hq
          obtain ⟨c', stop, hc', hstop', -⟩ := hlog.quit hq
          cases hc.symm.trans hc'
          cases hstop.symm.trans hstop'
        have hgraceful := hlog.gracefulShutdown (exitCode.getD 0) hfound fun hq ↦ absurd hq hnot
        obtain ⟨more, hentries, hmore⟩ :=
          gracefulShutdown_entries (p.log [.shutdownRequested]) (exitCode.getD 0)
        refine hgraceful.setCoordinator (fun hnone ↦ ?_) (fun hq ↦ ?_) fun _ hs ↦ ?_
        · rw [hentries, List.find?_append, Option.or_eq_none_iff] at hnone
          exact absurd hnone.1 hfound
        · rw [hentries] at hq
          exact absurd (quitFirst_of_append hmore hq) hnot
        · cases hs

theorem Inv.stopSettles (h : p.Inv) {result : Except String AgentStopResult}
    (hp' : p.stopSettles result = some p') : p'.Inv := by
  rw [HubProcess.stopSettles] at hp'
  split at hp' <;> cases hp'
  rename_i teardownPromise hc
  have hlog : (p.log [.stopped (quitResult result).ok]).Inv := by
    refine h.log (fun e he ↦ ?_) (by simp)
    rw [List.mem_singleton] at he
    rw [he]
    rfl
  refine hlog.setCoordinator (c := ⟨some (.settled (quitResult result)), teardownPromise⟩)
    (fun hnone ↦ ?_) (fun hq ↦ ?_) fun result' hs hok ↦ ?_
  · cases ((hlog.noRequest hnone).2 _ hc).1
  · obtain ⟨c, stop, hc', -, hrest⟩ := hlog.quit hq
    cases hc.symm.trans hc'
    exact ⟨rfl, hrest⟩
  · cases hs
    refine List.mem_append_right _ ?_
    rw [hok]
    exact List.mem_cons_self

theorem Inv.afterStop (h : p.Inv) (hp' : p.afterStop = some p') : p'.Inv := by
  rw [HubProcess.afterStop] at hp'
  split at hp' <;> cases hp'
  rename_i result hc
  have hfound : p.entries.find? Entry.isRequest ≠ none := by
    intro hnone
    cases ((h.noRequest hnone).2 _ hc).1
  have hgraceful := h.gracefulShutdown (if result.ok then 0 else 1) hfound fun hq ↦ by
    refine ⟨⟨_, hc, by simp⟩, fun hcode ↦ h.stopped _ result hc rfl ?_⟩
    by_contra hok
    rw [if_neg hok] at hcode
    cases hcode
  obtain ⟨more, hentries, hmore⟩ := gracefulShutdown_entries p (if result.ok then 0 else 1)
  refine hgraceful.setCoordinator (c := ⟨some (.settled result), some .started⟩)
    (fun hnone ↦ ?_) (fun hq ↦ ?_) fun result' hs hok ↦ ?_
  · rw [hentries, List.find?_append, Option.or_eq_none_iff] at hnone
    exact absurd hnone.1 hfound
  · rw [hentries] at hq
    obtain ⟨c, stop, hc', -, -, hdelivered⟩ := h.quit (quitFirst_of_append hmore hq)
    cases hc.symm.trans hc'
    refine ⟨rfl, ?_, fun _ ↦ ?_⟩
    · intro hnone
      cases hnone
    · rw [hentries]
      refine List.mem_append_left _ (hdelivered fun hnone ↦ ?_)
      cases hnone
  · cases hs
    rw [hentries]
    exact List.mem_append_left _ (h.stopped _ _ hc rfl hok)

theorem Inv.finish (h : p.Inv) {exitCode : ℕ} {more : List Entry}
    (hs : p.shutdownPromise = some exitCode) (hexited : p.exited = false)
    (hmore : Ending exitCode more) : (p.finish more).Inv := by
  have hfirst : QuitFirst (p.entries ++ more) → QuitFirst p.entries :=
    quitFirst_of_append fun hmem ↦ by cases hmore.noRequest _ hmem
  refine ⟨h.teardown.append_ending (h.closing exitCode hs hexited) hmore, fun hnone ↦ ?_,
    fun _ _ hex ↦ ?_, fun hnone ↦ ?_, fun hq ↦ ?_, fun c result hc hstop hok ↦ ?_⟩
  · cases hs.symm.trans hnone
  · cases hex
  · rw [HubProcess.finish, HubProcess.log, List.find?_append, Option.or_eq_none_iff] at hnone
    exact h.noRequest hnone.1
  · obtain ⟨c, stop, hc, hstop, hnone, hdelivered⟩ := h.quit (hfirst hq)
    exact ⟨c, stop, hc, hstop, hnone, fun hne ↦ List.mem_append_left _ (hdelivered hne)⟩
  · exact List.mem_append_left _ (h.stopped c result hc hstop hok)

theorem Inv.step (h : p.Inv) {e : LifecycleEvent} (hp' : p.step e = some p') : p'.Inv := by
  rw [HubProcess.step.eq_def] at hp'
  split at hp'
  · cases hp'
  rename_i hexited
  rw [Bool.not_eq_true] at hexited
  cases e with
  | onQuit session throws =>
    cases hp'
    exact h.onQuit session throws
  | onQuitDelivered throws =>
    cases hp'
    exact h.onQuitDelivered throws
  | shutdown exitCode =>
    cases hp'
    exact h.shutdown exitCode
  | stopSettles result => exact h.stopSettles hp'
  | afterStop => exact h.afterStop hp'
  | serverCloseSettles outcomes =>
    obtain ⟨exitCode, hs, rfl⟩ := Option.map_eq_some_iff.mp hp'
    exact h.finish hs hexited (ending_afterServerClose exitCode outcomes)
  | timeout =>
    obtain ⟨exitCode, hs, rfl⟩ := Option.map_eq_some_iff.mp hp'
    exact h.finish hs hexited (ending_afterFailure exitCode .serverClose)

end HubProcess

/-- **One teardown**, whatever requests and outcomes come in whatever order. -/
theorem teardown_of_run {es : List LifecycleEvent} {p : HubProcess}
    (hrun : run HubProcess.step .start es = some p) : OneTeardown p.entries :=
  (run_invariant HubProcess.Inv (fun _ _ _ h hp' ↦ h.step hp') HubProcess.inv_start hrun).teardown

/-- A quit that a signal joins: the teardown comes behind the response. -/
theorem teardown_of_joined_quit : ∃ p,
    run HubProcess.step .start [.onQuit true false, .shutdown none,
      .stopSettles (.ok ⟨true, "stopped", "", ""⟩), .onQuitDelivered false, .afterStop,
      .serverCloseSettles ⟨true, true, true⟩] = some p ∧ OneTeardown p.entries := by
  refine Exists.imp (fun p hrun ↦ ⟨hrun, teardown_of_run hrun⟩) ?_
  exact ⟨_, rfl⟩

end Lasterm.Hub.Shutdown
