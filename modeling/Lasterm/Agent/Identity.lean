import Lasterm.Library.PidTable
import Lasterm.Library.Runs
import Lasterm.Library.Shell
import Mathlib.Algebra.Order.Ring.Nat

/-!
# Stopping the recorded daemon

`stop` of `identity.rs`, on Linux. It reads the live record, takes a pidfd for the recorded pid,
then opens `/proc/<pid>`, and compares what it finds there with the record before it sends SIGTERM
through the pidfd. In between, processes exit, are reaped, and their pids are given to others; each
call of the kernel is a step of its own.

The pidfd has to come first. Where a poll of it says afterwards that its process has not exited,
that process still has its pid, so that the directory is its own
(`PidTable.Table.Sound.eq_or_isReported`).

A call can fail for reasons of its own at any time; such an error is taken to be another one than
those by which the kernel says that a process is gone.
-/

namespace Lasterm.Agent.Identity

open Shell PidTable

/-! ## Records -/

structure FileIdentity where
  device : ℕ
  inode : ℕ
  deriving DecidableEq

structure IdentityRecord where
  formatVersion : ℕ
  pid : ℕ
  creationTime : Text
  executable : Text
  executableFileIdentity : Option FileIdentity
  socket : Text

inductive IoError where
  /-- `ENOENT`. -/
  | notFound
  /-- `ESRCH`. -/
  | noProcess
  | invalidData
  | other
  deriving DecidableEq

inductive StopOutcome where
  | stopped
  | stillRunningAtBound
  | noRecord
  | recordDoesNotMatchLiveProcess
  deriving DecidableEq

/-- What is at the path of the live record. -/
inductive RecordFile where
  | noDirectory
  /-- The directory is not private, or the file cannot be opened. -/
  | refused (error : IoError)
  | absent
  | unreadable (error : IoError)
  | content (bytes : ByteArray)

def maxRecordBytes : ℕ := 64 * 1024

def formatVersion : ℕ := 2

/-- `read_live_record_at`, with `parse` for `serde_json::from_slice`. -/
def readLiveRecord (parse : ByteArray → Option IdentityRecord) :
    RecordFile → Except IoError (Option IdentityRecord)
  | .noDirectory | .absent => .ok none
  | .refused error | .unreadable error => .error error
  | .content bytes =>
    if maxRecordBytes < bytes.size then .error .invalidData
    else
      match parse bytes with
      | some record => .ok (some record)
      | none => .error .invalidData

/-! ## `/proc/<pid>/stat` -/

/-- A field of the line, which has no blank and no bracket in it. -/
structure Word where
  text : Text
  ne_nil : text ≠ []
  plain : ∀ c ∈ text, c.isWhitespace = false ∧ c ≠ ')'

/-- What the line says besides the pid and the start time. The name can be anything. -/
structure StatLine where
  comm : Text
  before : List Word
  after : List Word
  length_before : before.length = 19

def fields (words : List Word) : Text := words.flatMap fun w ↦ ' ' :: w.text

/-- The line that the kernel writes. -/
def statText (pid : ℕ) (line : StatLine) (start : Word) : Text :=
  (toString pid).toList ++ " (".toList ++ line.comm ++
    ')' :: (fields (line.before ++ start :: line.after) ++ ['\n'])

/-- `rsplit_once`, without what is in front. -/
def afterLast (c : Char) (t : Text) : Option Text :=
  if c ∈ t then some (t.reverse.takeWhile (· ≠ c)).reverse else none

def splitWhitespace (t : Text) : List Text := (t.splitOnP Char.isWhitespace).filter (· ≠ [])

/-- The start time in the line, which is the twentieth field behind the name. -/
def startTime (stat : Text) : Except IoError Text :=
  match afterLast ')' stat with
  | none => .error .invalidData
  | some rest =>
    match (splitWhitespace rest)[19]? with
    | none => .error .invalidData
    | some start => .ok start

theorem afterLast_append {c : Char} (front : Text) {back : Text} (h : c ∉ back) :
    afterLast c (front ++ c :: back) = some back := by
  have hback : ∀ d ∈ back.reverse, decide (d ≠ c) = true := by
    intro d hd
    refine decide_eq_true ?_
    rintro rfl
    exact h (List.mem_reverse.mp hd)
  rw [afterLast, if_pos (List.mem_append_right _ List.mem_cons_self), List.reverse_append,
    List.reverse_cons, List.append_assoc, List.takeWhile_append_of_pos hback, List.singleton_append,
    List.takeWhile_cons_of_neg (by simp), List.append_nil, List.reverse_reverse]

theorem splitOnP_fields (words : List Word) {front : Text}
    (h : ∀ c ∈ front, c.isWhitespace = false) :
    (front ++ (fields words ++ ['\n'])).splitOnP Char.isWhitespace =
      front :: (words.map Word.text ++ [[]]) := by
  induction words generalizing front with
  | nil =>
    rw [fields, List.flatMap_nil, List.nil_append,
      List.splitOnP_append_cons_of_forall_mem h '\n' (by decide), List.splitOnP_nil]
    rfl
  | cons word words ih =>
    rw [fields, List.flatMap_cons, List.cons_append, List.cons_append,
      List.splitOnP_append_cons_of_forall_mem h ' ' (by decide), List.append_assoc]
    exact congrArg _ (ih fun c hc ↦ (word.plain c hc).1)

theorem splitWhitespace_fields (words : List Word) :
    splitWhitespace (fields words ++ ['\n']) = words.map Word.text := by
  have hsplit := @splitOnP_fields words [] nofun
  have hwords : ∀ t ∈ words.map Word.text, decide (t ≠ []) = true := by
    intro t ht
    obtain ⟨word, -, rfl⟩ := List.mem_map.mp ht
    exact decide_eq_true word.ne_nil
  rw [List.nil_append] at hsplit
  rw [splitWhitespace, hsplit, List.filter_cons_of_neg (by simp), List.filter_append,
    List.filter_eq_self.mpr hwords]
  exact List.append_nil _

/-- Whatever the process is called, the start time is found. -/
theorem startTime_statText (pid : ℕ) (line : StatLine) (start : Word) :
    startTime (statText pid line start) = .ok start.text := by
  have hback : ')' ∉ fields (line.before ++ start :: line.after) ++ ['\n'] := by
    intro h
    rcases List.mem_append.mp h with h | h
    · obtain ⟨word, -, hword⟩ := List.mem_flatMap.mp h
      rcases List.mem_cons.mp hword with hblank | htext
      · exact absurd hblank (by decide)
      · exact (word.plain _ htext).2 rfl
    · exact absurd (List.mem_singleton.mp h) (by decide)
  have hfield : ((line.before ++ start :: line.after).map Word.text)[19]? = some start.text := by
    rw [List.getElem?_map, List.getElem?_append_right (Nat.le_of_eq line.length_before),
      line.length_before]
    rfl
  rw [startTime, statText, afterLast_append _ hback]
  dsimp only
  rw [splitWhitespace_fields, hfield]

/-! ## Processes -/

/-- What `/proc/<pid>/exe` leads to. -/
structure Executable where
  file : FileIdentity
  path : Text

abbrev Kernel := Table Word Executable

structure ProcessDetails where
  creationTime : Text
  executable : Text
  executableFileIdentity : Option FileIdentity

def trim (t : Text) : Text :=
  ((t.dropWhile Char.isWhitespace).reverse.dropWhile Char.isWhitespace).reverse

def creationTime (bootId start : Text) : Text := trim bootId ++ ':' :: start

section Matching

variable (canonicalize : Text → Option Text)

def pathsMatch (left right : Text) : Bool :=
  (canonicalize left).getD left = (canonicalize right).getD right

def detailsMatch (record : IdentityRecord) (live : ProcessDetails) : Bool :=
  record.creationTime = live.creationTime &&
    match record.executableFileIdentity, live.executableFileIdentity with
    | some recorded, some live => recorded = live
    | _, _ => pathsMatch canonicalize live.executable record.executable

end Matching

/-- The two handles. -/
structure ProcessReference where
  pidfd : ℕ
  procDir : ℕ

inductive ProcessStatus where
  | gone
  | mismatch
  | matching
  deriving DecidableEq

def processDisappeared (error : IoError) : Bool := error = .notFound || error = .noProcess

/-! ## The steps of `stop` -/

/-- Where `status` is, with what `linux_process_details` has read. -/
inductive StatusStep where
  | poll
  | openStat
  | readStat
  | readBootId (start : Text)
  | openExe (creation : Text)
  | readLink (creation : Text) (file : FileIdentity)

/-- What `status` is called for. -/
inductive Purpose where
  | validate
  /-- After SIGTERM could not be sent. -/
  | sendFailed (error : IoError)
  | wait

inductive StopState where
  | start
  | openPidfd (record : IdentityRecord)
  | openProcDir (record : IdentityRecord) (pidfd : ℕ)
  | status (purpose : Purpose) (record : IdentityRecord) (ref : ProcessReference)
      (current : StatusStep)
  | sendStop (record : IdentityRecord) (ref : ProcessReference)
  | done (result : Except IoError StopOutcome)

/-- What else a step may ask: the rest of the stat line, and whether the deadline has passed. -/
structure Answers where
  line : StatLine
  late : Bool

def openPidfd (k : Kernel) (record : IdentityRecord) : StopState :=
  if record.pid = 0 ∨ 2 ^ 31 ≤ record.pid then .done (.error .other)
  else
    match k.holder record.pid with
    | none => .done (.ok .recordDoesNotMatchLiveProcess)
    | some pidfd => .openProcDir record pidfd

def openProcDir (k : Kernel) (record : IdentityRecord) (pidfd : ℕ) : StopState :=
  match k.holder record.pid with
  | none => .done (.ok .recordDoesNotMatchLiveProcess)
  | some procDir => .status .validate record ⟨pidfd, procDir⟩ .poll

/-- What is done with a status. -/
def conclude (purpose : Purpose) (record : IdentityRecord) (ref : ProcessReference) (late : Bool) :
    Except IoError ProcessStatus → StopState
  | .error error => .done (.error error)
  | .ok .mismatch => .done (.ok .recordDoesNotMatchLiveProcess)
  | .ok .gone =>
    match purpose with
    | .validate => .done (.ok .recordDoesNotMatchLiveProcess)
    | .sendFailed _ | .wait => .done (.ok .stopped)
  | .ok .matching =>
    match purpose with
    | .validate => .sendStop record ref
    | .sendFailed error => .done (.error error)
    | .wait =>
      if late then .done (.ok .stillRunningAtBound) else .status .wait record ref .poll

/-- An error of `linux_process_details`. -/
def detailsFailed (error : IoError) : StatusStep ⊕ Except IoError ProcessStatus :=
  .inr (if processDisappeared error then .ok .gone else .error error)

section Steps

variable (bootId : Text) (canonicalize : Text → Option Text)

/-- A step of `status`, or what it returns. -/
def statusStep (k : Kernel) (record : IdentityRecord) (ref : ProcessReference) (line : StatLine) :
    StatusStep → StatusStep ⊕ Except IoError ProcessStatus
  | .poll => if k.isReported ref.pidfd then .inr (.ok .gone) else .inl .openStat
  | .openStat => if k.isHeld ref.procDir then .inl .readStat else detailsFailed .notFound
  | .readStat =>
    match k.process ref.procDir with
    | none => detailsFailed .noProcess
    | some proc =>
      if k.isHeld ref.procDir then
        match startTime (statText proc.pid line proc.birth) with
        | .error error => detailsFailed error
        | .ok start => .inl (.readBootId start)
      else detailsFailed .noProcess
  | .readBootId start => .inl (.openExe (creationTime bootId start))
  | .openExe creation =>
    match k.running ref.procDir with
    | none => detailsFailed .notFound
    | some exe => .inl (.readLink creation exe.file)
  | .readLink creation file =>
    match k.running ref.procDir with
    | none => detailsFailed .notFound
    | some exe =>
      if 4096 ≤ (String.ofList exe.path).utf8ByteSize then detailsFailed .invalidData
      else
        .inr (.ok (if detailsMatch canonicalize record ⟨creation, exe.path, some file⟩
          then .matching else .mismatch))

structure System where
  kernel : Kernel
  stop : StopState
  /-- The processes to which SIGTERM was sent. -/
  signals : List ℕ

inductive SystemEvent where
  | kernel (e : PidTable.Event Word Executable)
  /-- The next call of `stop` succeeds or fails as the kernel has it. -/
  | advance (answers : Answers)
  /-- It fails for another reason. -/
  | fail (error : IoError)

variable (parse : ByteArray → Option IdentityRecord) (file : RecordFile) (socket : Text)

/-- `stop`, up to the first call for the process. -/
def begin : StopState :=
  match readLiveRecord parse file with
  | .ok none => .done (.ok .noRecord)
  | .error error =>
    if error = .invalidData then .done (.ok .recordDoesNotMatchLiveProcess)
    else .done (.error error)
  | .ok (some record) =>
    if record.socket ≠ socket then .done (.ok .recordDoesNotMatchLiveProcess)
    else if record.formatVersion ≠ formatVersion then .done (.ok .recordDoesNotMatchLiveProcess)
    else .openPidfd record

namespace System

def advance (s : System) (answers : Answers) : Option System :=
  match s.stop with
  | .start => some { s with stop := begin parse file socket }
  | .openPidfd record => some { s with stop := openPidfd s.kernel record }
  | .openProcDir record pidfd => some { s with stop := openProcDir s.kernel record pidfd }
  | .status purpose record ref current =>
    match statusStep bootId canonicalize s.kernel record ref answers.line current with
    | .inl next => some { s with stop := .status purpose record ref next }
    | .inr result => some { s with stop := conclude purpose record ref answers.late result }
  | .sendStop record ref =>
    if s.kernel.isHeld ref.pidfd then
      some { s with stop := .status .wait record ref .poll, signals := s.signals ++ [ref.pidfd] }
    else some { s with stop := .status (.sendFailed .noProcess) record ref .poll }
  | .done _ => none

def fail (s : System) (error : IoError) : Option System :=
  if processDisappeared error then none
  else
    match s.stop with
    | .start | .done _ => none
    | .openPidfd _ | .openProcDir _ _ => some { s with stop := .done (.error error) }
    | .status purpose record ref _ =>
      some { s with stop := conclude purpose record ref false (.error error) }
    | .sendStop record ref =>
      some { s with stop := .status (.sendFailed error) record ref .poll }

def step (s : System) : SystemEvent → Option System
  | .kernel e => (s.kernel.step e).map fun kernel ↦ { s with kernel }
  | .advance answers => s.advance bootId canonicalize parse file socket answers
  | .fail error => s.fail error

end System

end Steps

/-! ## What `stop` knows of the process -/

section Knowledge

variable (bootId : Text) (canonicalize : Text → Option Text)

/-- A process that runs, with the pid of the record, this creation time and such an executable. -/
def Seen (record : IdentityRecord) (creation : Text) (P : Executable → Prop) (p : ℕ) (k : Kernel) :
    Prop :=
  ∃ proc, k.process p = some proc ∧ proc.phase = .running ∧ proc.pid = record.pid ∧
    creationTime bootId proc.birth.text = creation ∧ P proc.program

/-- The executable is the recorded one: the same file, or for a record without a file, the same
path. -/
def SameExecutable (record : IdentityRecord) (exe : Executable) : Prop :=
  match record.executableFileIdentity with
  | some file => file = exe.file
  | none => pathsMatch canonicalize exe.path record.executable = true

/-- A process that runs is the one of the record. -/
def Identified (record : IdentityRecord) (p : ℕ) : Kernel → Prop :=
  Seen bootId record record.creationTime (SameExecutable canonicalize record) p

variable (past : (Kernel → Prop) → Prop) (k : Kernel) (record : IdentityRecord)
  (ref : ProcessReference)

/-- `past P` says that the kernel has been in a state with the property `P`, up to now. -/
structure IsPast : Prop where
  now : ∀ {P : Kernel → Prop}, P k → past P
  imp : ∀ {P Q : Kernel → Prop}, (∀ k, P k → Q k) → past P → past Q

def Known (p : ℕ) : Prop := ∃ proc, k.process p = some proc ∧ proc.pid = record.pid

def Born (creation : Text) (p : ℕ) : Prop :=
  ∃ proc, k.process p = some proc ∧ creationTime bootId proc.birth.text = creation

/-- What was read is of the process. -/
def StepFacts (p : ℕ) : StatusStep → Prop
  | .poll | .openStat | .readStat => True
  | .readBootId start => Born bootId k (creationTime bootId start) p
  | .openExe creation => Born bootId k creation p
  | .readLink creation file =>
    Born bootId k creation p ∧ past (Seen bootId record creation (·.file = file) p)

/-- While `status` runs. Until the poll, the two handles may be of two processes. -/
structure StatusInv (current : StatusStep) : Prop where
  known : Known k record ref.pidfd
  same : ref.procDir = ref.pidfd ∨ current = .poll ∧ k.isReported ref.pidfd = true
  facts : StepFacts bootId past k record ref.procDir current

/-- What a status says of the process of the pidfd. -/
def StatusSpec : StatusStep ⊕ Except IoError ProcessStatus → Prop
  | .inl next => StatusInv bootId past k record ref next
  | .inr (.ok .gone) => k.Exited ref.pidfd
  | .inr (.ok .matching) =>
    ref.procDir = ref.pidfd ∧ past (Identified bootId canonicalize record ref.pidfd)
  | .inr _ => True

variable {bootId canonicalize past k record ref} {k' : Kernel}
  {past' : (Kernel → Prop) → Prop} {p : ℕ} {current : StatusStep}

theorem Known.later (h : Known k record p) (hlater : k.Later k') : Known k' record p := by
  obtain ⟨old, hold, hpid⟩ := h
  obtain ⟨new, hnew, hgrows⟩ := hlater p old hold
  exact ⟨new, hnew, hgrows.pid.trans hpid⟩

theorem Born.later {creation : Text} (h : Born bootId k creation p) (hlater : k.Later k') :
    Born bootId k' creation p := by
  obtain ⟨old, hold, hbirth⟩ := h
  obtain ⟨new, hnew, hgrows⟩ := hlater p old hold
  exact ⟨new, hnew, hgrows.birth ▸ hbirth⟩

theorem StepFacts.later (h : StepFacts bootId past k record p current)
    (hlater : k.Later k') (hpast : ∀ P, past P → past' P) :
    StepFacts bootId past' k' record p current := by
  cases current with
  | poll => trivial
  | openStat => trivial
  | readStat => trivial
  | readBootId start => exact Born.later h hlater
  | openExe creation => exact Born.later h hlater
  | readLink creation file => exact ⟨h.1.later hlater, hpast _ h.2⟩

theorem StatusInv.later (h : StatusInv bootId past k record ref current)
    (hlater : k.Later k') (hpast : ∀ P, past P → past' P) :
    StatusInv bootId past' k' record ref current where
  known := h.known.later hlater
  same := h.same.imp_right fun hpoll ↦ ⟨hpoll.1, hlater.isReported hpoll.2⟩
  facts := h.facts.later hlater hpast

theorem statusSpec_detailsFailed {error : IoError} (h : k.Exited ref.pidfd) :
    StatusSpec bootId canonicalize past k record ref (detailsFailed error) := by
  rw [detailsFailed]
  cases processDisappeared error with
  | true => exact h
  | false => trivial

/-- Behind the poll there is one process. -/
theorem StatusInv.eq (h : StatusInv bootId past k record ref current)
    (hcurrent : current ≠ .poll) : ref.procDir = ref.pidfd :=
  h.same.resolve_right fun hpoll ↦ hcurrent hpoll.1

theorem sameExecutable_of_detailsMatch {creation : Text} {exe : Executable} {file : FileIdentity}
    (h : detailsMatch canonicalize record ⟨creation, exe.path, some file⟩ = true) :
    record.creationTime = creation ∧
      (SameExecutable canonicalize record exe ∨
        ∀ exe', exe'.file = file → SameExecutable canonicalize record exe') := by
  rw [detailsMatch, Bool.and_eq_true] at h
  refine ⟨of_decide_eq_true h.1, ?_⟩
  have hexe := h.2
  simp only [SameExecutable]
  cases hfile : record.executableFileIdentity with
  | none =>
    rw [hfile] at hexe
    exact .inl hexe
  | some recorded =>
    rw [hfile] at hexe
    exact .inr fun exe' hexe' ↦ (of_decide_eq_true hexe).trans hexe'.symm

theorem statusStep_spec {line : StatLine} (hsound : k.Sound)
    (hpast : IsPast past k) (h : StatusInv bootId past k record ref current) :
    StatusSpec bootId canonicalize past k record ref
      (statusStep bootId canonicalize k record ref line current) := by
  cases current with
  | poll =>
    rw [statusStep]
    cases hreported : k.isReported ref.pidfd with
    | true => exact Table.exited_of_isReported hreported
    | false =>
      refine ⟨h.known, .inl (h.same.resolve_right fun hpoll ↦ ?_), trivial⟩
      exact absurd hpoll.2 (by simp [hreported])
  | openStat =>
    have hsame := h.eq nofun
    obtain ⟨proc, hproc, -⟩ := h.known
    rw [statusStep, hsame]
    cases hheld : k.isHeld ref.pidfd with
    | true => exact ⟨h.known, .inl hsame, trivial⟩
    | false => exact statusSpec_detailsFailed (hsound.exited_of_not_isHeld hproc hheld)
  | readStat =>
    have hsame := h.eq nofun
    obtain ⟨proc, hproc, -⟩ := h.known
    rw [statusStep, hsame, hproc]
    dsimp only
    cases hheld : k.isHeld ref.pidfd with
    | true =>
      rw [if_pos rfl, startTime_statText]
      exact ⟨h.known, .inl hsame, ⟨proc, hsame ▸ hproc, rfl⟩⟩
    | false => exact statusSpec_detailsFailed (hsound.exited_of_not_isHeld hproc hheld)
  | readBootId start => exact ⟨h.known, .inl (h.eq nofun), h.facts⟩
  | openExe creation =>
    have hsame := h.eq nofun
    obtain ⟨proc, hproc, hpid⟩ := h.known
    rw [statusStep, hsame]
    cases hrunning : k.running ref.pidfd with
    | none => exact statusSpec_detailsFailed (Table.exited_of_running_eq_none hproc hrunning)
    | some exe =>
      obtain ⟨hphase, rfl⟩ := Table.running_eq_some hproc hrunning
      obtain ⟨born, hborn, hcreation⟩ := h.facts
      rw [hsame] at hborn
      cases hproc.symm.trans hborn
      refine ⟨h.known, .inl hsame, h.facts, hpast.now ?_⟩
      exact ⟨proc, hsame ▸ hproc, hphase, hpid, hcreation, rfl⟩
  | readLink creation file =>
    have hsame := h.eq nofun
    obtain ⟨proc, hproc, hpid⟩ := h.known
    rw [statusStep, hsame]
    cases hrunning : k.running ref.pidfd with
    | none => exact statusSpec_detailsFailed (Table.exited_of_running_eq_none hproc hrunning)
    | some exe =>
      obtain ⟨hphase, rfl⟩ := Table.running_eq_some hproc hrunning
      obtain ⟨⟨born, hborn, hcreation⟩, hseen⟩ := h.facts
      rw [hsame] at hborn hseen
      cases hproc.symm.trans hborn
      dsimp only
      split
      · exact trivial
      · cases hmatch :
            detailsMatch canonicalize record ⟨creation, proc.program.path, some file⟩ with
        | false => exact trivial
        | true =>
          obtain ⟨hrecorded, hexe⟩ := sameExecutable_of_detailsMatch hmatch
          refine ⟨hsame, ?_⟩
          rcases hexe with hexe | hexe
          · exact hpast.now ⟨proc, hproc, hphase, hpid, hcreation.trans hrecorded.symm, hexe⟩
          · -- The file was seen a step ago.
            refine hpast.imp ?_ hseen
            rintro k' ⟨old, hold, hphase', hpid', hcreation', hfile⟩
            exact ⟨old, hold, hphase', hpid', hcreation'.trans hrecorded.symm, hexe _ hfile⟩

end Knowledge

/-! ## Whole runs -/

section WholeRuns

variable (bootId : Text) (canonicalize : Text → Option Text)
  (parse : ByteArray → Option IdentityRecord) (file : RecordFile) (socket : Text)

/-- The live record, as it was accepted. -/
structure Recorded (record : IdentityRecord) : Prop where
  read : readLiveRecord parse file = .ok (some record)
  socket : record.socket = socket
  version : record.formatVersion = formatVersion

variable (past : IdentityRecord → ℕ → (Kernel → Prop) → Prop)

/-- The process was found to be the one of the record. -/
def Validated (record : IdentityRecord) (p : ℕ) : Prop :=
  Recorded parse file socket record ∧ past record p (Identified bootId canonicalize record p)

/-- What is known of the process while a status is taken. -/
def PurposeInv (k : Kernel) (signals : List ℕ) (record : IdentityRecord) (ref : ProcessReference)
    (current : StatusStep) : Purpose → Prop
  | .validate =>
    signals = [] ∧ StatusInv bootId (past record ref.pidfd) k record ref current
  | .sendFailed _ | .wait =>
    past record ref.pidfd (Identified bootId canonicalize record ref.pidfd) ∧
      (∀ q ∈ signals, q = ref.pidfd) ∧ StatusInv bootId (fun _ ↦ True) k record ref current

def StopInv (k : Kernel) (signals : List ℕ) : StopState → Prop
  | .start => signals = []
  | .openPidfd record => signals = [] ∧ Recorded parse file socket record
  | .openProcDir record pidfd =>
    signals = [] ∧ Recorded parse file socket record ∧ Known k record pidfd
  | .status purpose record ref current =>
    Recorded parse file socket record ∧
      PurposeInv bootId canonicalize past k signals record ref current purpose
  | .sendStop record ref =>
    signals = [] ∧ Validated bootId canonicalize parse file socket past record ref.pidfd ∧
      Known k record ref.pidfd ∧ ref.procDir = ref.pidfd
  | .done result => result = .ok .stopped → ∃ record p,
      Validated bootId canonicalize parse file socket past record p ∧ k.Exited p ∧
        ∀ q ∈ signals, q = p

structure SystemInv (s : System) : Prop where
  sound : s.kernel.Sound
  signals : s.signals = [] ∨ ∃ record p, s.signals = [p] ∧
    Validated bootId canonicalize parse file socket past record p
  stop : StopInv bootId canonicalize parse file socket past s.kernel s.signals s.stop

/-- `stop` is finding out whether the process is the one of the record. -/
def Validating (record : IdentityRecord) (p : ℕ) (s : System) : Prop :=
  ∃ ref current, s.stop = .status .validate record ref current ∧ ref.pidfd = p

variable {bootId canonicalize parse file socket past}
  {past' : IdentityRecord → ℕ → (Kernel → Prop) → Prop} {k k' : Kernel} {record : IdentityRecord}
  {ref : ProcessReference} {signals : List ℕ} {s s' : System} {current : StatusStep}
  {purpose : Purpose}

theorem PurposeInv.later
    (h : PurposeInv bootId canonicalize past k signals record ref current purpose)
    (hlater : k.Later k') (hpast : ∀ record p P, past record p P → past' record p P) :
    PurposeInv bootId canonicalize past' k' signals record ref current purpose := by
  cases purpose with
  | validate => exact ⟨h.1, h.2.later hlater fun P ↦ hpast record ref.pidfd P⟩
  | sendFailed error => exact ⟨hpast _ _ _ h.1, h.2.1, h.2.2.later hlater fun _ ↦ id⟩
  | wait => exact ⟨hpast _ _ _ h.1, h.2.1, h.2.2.later hlater fun _ ↦ id⟩

theorem StopInv.later {stop : StopState}
    (h : StopInv bootId canonicalize parse file socket past k signals stop)
    (hlater : k.Later k') (hpast : ∀ record p P, past record p P → past' record p P) :
    StopInv bootId canonicalize parse file socket past' k' signals stop := by
  cases stop with
  | start => exact h
  | openPidfd record => exact h
  | openProcDir record pidfd => exact ⟨h.1, h.2.1, h.2.2.later hlater⟩
  | status purpose record ref current => exact ⟨h.1, h.2.later hlater hpast⟩
  | sendStop record ref =>
    obtain ⟨hsignals, hvalidated, hknown, hsame⟩ := h
    exact ⟨hsignals, hvalidated.imp_right (hpast _ _ _), hknown.later hlater, hsame⟩
  | done result =>
    intro hstopped
    obtain ⟨record, p, hvalidated, hexited, hq⟩ := h hstopped
    exact ⟨record, p, hvalidated.imp_right (hpast _ _ _), hlater.exited hexited, hq⟩

theorem SystemInv.later (h : SystemInv bootId canonicalize parse file socket past s)
    (hsound : k'.Sound) (hlater : s.kernel.Later k')
    (hpast : ∀ record p P, past record p P → past' record p P) :
    SystemInv bootId canonicalize parse file socket past' { s with kernel := k' } where
  sound := hsound
  signals := h.signals.imp_right fun ⟨record, p, hp, hvalidated⟩ ↦
    ⟨record, p, hp, hvalidated.imp_right (hpast _ _ _)⟩
  stop := h.stop.later hlater hpast

theorem stopInv_begin (hsignals : signals = []) :
    StopInv bootId canonicalize parse file socket past k signals (begin parse file socket) := by
  rw [begin]
  split
  · exact nofun
  · split
    · exact nofun
    · exact nofun
  · rename_i record hread
    split
    · exact nofun
    · rename_i hsocket
      split
      · exact nofun
      · rename_i hversion
        exact ⟨hsignals, hread, not_not.mp hsocket, not_not.mp hversion⟩

theorem stopInv_openPidfd (hsound : k.Sound)
    (h : StopInv bootId canonicalize parse file socket past k signals (.openPidfd record)) :
    StopInv bootId canonicalize parse file socket past k signals (openPidfd k record) := by
  rw [openPidfd]
  split
  · exact nofun
  · cases hholder : k.holder record.pid with
    | none => exact nofun
    | some pidfd =>
      obtain ⟨proc, hproc, hpid⟩ := hsound.held hholder
      exact ⟨h.1, h.2, proc, hproc, hpid⟩

theorem stopInv_openProcDir {pidfd : ℕ} (hsound : k.Sound)
    (h : StopInv bootId canonicalize parse file socket past k signals (.openProcDir record pidfd)) :
    StopInv bootId canonicalize parse file socket past k signals
      (openProcDir k record pidfd) := by
  obtain ⟨hsignals, hrecorded, hknown⟩ := h
  rw [openProcDir]
  cases hholder : k.holder record.pid with
  | none => exact nofun
  | some procDir =>
    obtain ⟨proc, hproc, hpid⟩ := hknown
    have hsame := hsound.eq_or_isReported hproc (hpid.symm ▸ hholder)
    exact ⟨hrecorded, hsignals, ⟨⟨proc, hproc, hpid⟩, hsame.imp_right fun h ↦ ⟨rfl, h⟩, trivial⟩⟩

/-- What is done with a status that says what it should. -/
theorem stopInv_conclude {late : Bool} {result : Except IoError ProcessStatus}
    (hrecorded : Recorded parse file socket record)
    (h : PurposeInv bootId canonicalize past k signals record ref current purpose)
    (hvalidate : purpose = .validate →
      StatusSpec bootId canonicalize (past record ref.pidfd) k record ref (.inr result))
    (hother : purpose ≠ .validate →
      StatusSpec bootId canonicalize (fun _ ↦ True) k record ref (.inr result)) :
    StopInv bootId canonicalize parse file socket past k signals
      (conclude purpose record ref late result) := by
  cases result with
  | error error => exact nofun
  | ok status =>
    cases status with
    | mismatch => exact nofun
    | gone =>
      cases purpose with
      | validate => exact nofun
      | sendFailed error => exact fun _ ↦ ⟨record, _, ⟨hrecorded, h.1⟩, hother nofun, h.2.1⟩
      | wait => exact fun _ ↦ ⟨record, _, ⟨hrecorded, h.1⟩, hother nofun, h.2.1⟩
    | matching =>
      cases purpose with
      | validate =>
        obtain ⟨hsame, hpast⟩ := hvalidate rfl
        exact ⟨h.1, ⟨hrecorded, hpast⟩, h.2.known, hsame⟩
      | sendFailed error => exact nofun
      | wait =>
        rw [conclude]
        cases late with
        | true => exact nofun
        | false =>
          exact ⟨hrecorded, h.1, h.2.1, h.2.2.known, .inl (hother nofun).1, trivial⟩

theorem isPast_true : IsPast (fun _ ↦ True) k := ⟨fun _ ↦ trivial, fun _ _ ↦ trivial⟩

theorem stopInv_statusStep (answers : Answers) {purpose : Purpose} {current : StatusStep}
    (hsound : k.Sound) (hpast : purpose = .validate → IsPast (past record ref.pidfd) k)
    (hrecorded : Recorded parse file socket record)
    (h : PurposeInv bootId canonicalize past k signals record ref current purpose) :
    StopInv bootId canonicalize parse file socket past k signals
      (match statusStep bootId canonicalize k record ref answers.line current with
      | .inl next => .status purpose record ref next
      | .inr result => conclude purpose record ref answers.late result) := by
  have hvalidate : purpose = .validate →
      StatusSpec bootId canonicalize (past record ref.pidfd) k record ref
        (statusStep bootId canonicalize k record ref answers.line current) := by
    rintro rfl
    exact statusStep_spec hsound (hpast rfl) h.2
  have hother : purpose ≠ .validate →
      StatusSpec bootId canonicalize (fun _ ↦ True) k record ref
        (statusStep bootId canonicalize k record ref answers.line current) := by
    intro hne
    cases purpose with
    | validate => exact absurd rfl hne
    | sendFailed error => exact statusStep_spec hsound isPast_true h.2.2
    | wait => exact statusStep_spec hsound isPast_true h.2.2
  cases hstep : statusStep bootId canonicalize k record ref answers.line current with
  | inl next =>
    rw [hstep] at hvalidate hother
    cases purpose with
    | validate => exact ⟨hrecorded, h.1, hvalidate rfl⟩
    | sendFailed error => exact ⟨hrecorded, h.1, h.2.1, hother nofun⟩
    | wait => exact ⟨hrecorded, h.1, h.2.1, hother nofun⟩
  | inr result =>
    rw [hstep] at hvalidate hother
    exact stopInv_conclude hrecorded h hvalidate hother

theorem SystemInv.advance {answers : Answers}
    (h : SystemInv bootId canonicalize parse file socket past s)
    (hpast : ∀ record p, Validating record p s → IsPast (past record p) s.kernel)
    (hs : s.advance bootId canonicalize parse file socket answers = some s') :
    SystemInv bootId canonicalize parse file socket past s' := by
  obtain ⟨k, stop, signals⟩ := s
  obtain ⟨hsound, hsignals, hstop⟩ := h
  cases stop with
  | start =>
    cases hs
    exact ⟨hsound, hsignals, stopInv_begin hstop⟩
  | openPidfd record =>
    cases hs
    exact ⟨hsound, hsignals, stopInv_openPidfd hsound hstop⟩
  | openProcDir record pidfd =>
    cases hs
    exact ⟨hsound, hsignals, stopInv_openProcDir hsound hstop⟩
  | status purpose record ref current =>
    have hnext := stopInv_statusStep answers hsound
      (by rintro rfl; exact hpast record ref.pidfd ⟨ref, current, rfl, rfl⟩) hstop.1 hstop.2
    rw [System.advance] at hs
    dsimp only at hs hnext
    cases hstep : statusStep bootId canonicalize k record ref answers.line current with
    | inl next =>
      rw [hstep] at hs hnext
      cases hs
      exact ⟨hsound, hsignals, hnext⟩
    | inr result =>
      rw [hstep] at hs hnext
      cases hs
      exact ⟨hsound, hsignals, hnext⟩
  | sendStop record ref =>
    obtain ⟨rfl, ⟨hrecorded, hidentified⟩, hknown, hsame⟩ := hstop
    rw [System.advance] at hs
    dsimp only at hs
    split at hs
    · cases hs
      refine ⟨hsound, .inr ⟨record, ref.pidfd, rfl, hrecorded, hidentified⟩, hrecorded, hidentified,
        fun q hq ↦ List.mem_singleton.mp hq, hknown, .inl hsame, trivial⟩
    · cases hs
      exact ⟨hsound, hsignals, hrecorded, hidentified, nofun, hknown, .inl hsame, trivial⟩
  | done result => cases hs

theorem SystemInv.fail {error : IoError}
    (h : SystemInv bootId canonicalize parse file socket past s)
    (hs : s.fail error = some s') : SystemInv bootId canonicalize parse file socket past s' := by
  obtain ⟨k, stop, signals⟩ := s
  obtain ⟨hsound, hsignals, hstop⟩ := h
  rw [System.fail] at hs
  split at hs
  · cases hs
  · cases stop with
    | start => cases hs
    | openPidfd record =>
      cases hs
      exact ⟨hsound, hsignals, nofun⟩
    | openProcDir record pidfd =>
      cases hs
      exact ⟨hsound, hsignals, nofun⟩
    | status purpose record ref current =>
      cases hs
      exact ⟨hsound, hsignals, nofun⟩
    | sendStop record ref =>
      cases hs
      obtain ⟨rfl, ⟨hrecorded, hidentified⟩, hknown, hsame⟩ := hstop
      exact ⟨hsound, hsignals, hrecorded, hidentified, nofun, hknown, .inl hsame, trivial⟩
    | done result => cases hs

end WholeRuns

/-- **`stop` signals the recorded process and no other.** Over every run from a sound table of
processes, SIGTERM is sent at most once, and only to a process that has been found running, with the
pid, the creation time and the executable of an accepted record; and `Stopped` is only reported when
that process has exited. -/
theorem stop_signals_recorded (bootId : Text) (canonicalize : Text → Option Text)
    (parse : ByteArray → Option IdentityRecord) (file : RecordFile) (socket : Text) {k : Kernel}
    (hk : k.Sound) {es : List SystemEvent} {s : System}
    (hrun : Runs.run (System.step bootId canonicalize parse file socket) ⟨k, .start, []⟩ es =
      some s) :
    s.signals.length ≤ 1 ∧
    (∀ p ∈ s.signals, ∃ record, Recorded parse file socket record ∧
      Runs.Passes (System.step bootId canonicalize parse file socket)
        (fun t ↦ Identified bootId canonicalize record p t.kernel ∧ Validating record p t)
        ⟨k, .start, []⟩ es) ∧
    (s.stop = .done (.ok .stopped) → ∃ record p, Recorded parse file socket record ∧
      Runs.Passes (System.step bootId canonicalize parse file socket)
        (fun t ↦ Identified bootId canonicalize record p t.kernel ∧ Validating record p t)
        ⟨k, .start, []⟩ es ∧
      s.kernel.Exited p ∧ ∀ q ∈ s.signals, q = p) := by
  let past (es : List SystemEvent) (record : IdentityRecord) (p : ℕ) (P : Kernel → Prop) : Prop :=
    Runs.Passes (System.step bootId canonicalize parse file socket)
      (fun t ↦ P t.kernel ∧ Validating record p t) ⟨k, .start, []⟩ es
  have hlonger : ∀ es e record p P, past es record p P → past (es ++ [e]) record p P :=
    fun es e record p P h ↦ h.append [e]
  have hinv : SystemInv bootId canonicalize parse file socket (past es) s := by
    refine Runs.run_history
      (fun es ↦ SystemInv bootId canonicalize parse file socket (past es)) ?_ ?_ hrun
    · exact ⟨hk, .inl rfl, rfl⟩
    · intro es t e t' ht hinv hstep
      have hlater := hinv.later hinv.sound (.refl _) (hlonger es e)
      cases e with
      | kernel e =>
        obtain ⟨k', hk', rfl⟩ := Option.map_eq_some_iff.mp hstep
        exact hinv.later (hinv.sound.step hk') (Table.later_of_step hk') (hlonger es _)
      | advance answers =>
        refine hlater.advance (fun record p hvalidating ↦ ?_) hstep
        exact ⟨fun hP ↦ Runs.Passes.append (Runs.passes_of_run ht ⟨hP, hvalidating⟩) _,
          fun hPQ ⟨es₁, es₂, u, hes, hu, hP⟩ ↦ ⟨es₁, es₂, u, hes, hu, hPQ _ hP.1, hP.2⟩⟩
      | fail error => exact hlater.fail hstep
  refine ⟨?_, fun p hp ↦ ?_, fun hstopped ↦ ?_⟩
  · rcases hinv.signals with hnil | ⟨record, p, hp, -⟩
    · simp [hnil]
    · simp [hp]
  · rcases hinv.signals with hnil | ⟨record, q, hq, hrecorded, hpast⟩
    · rw [hnil] at hp
      cases hp
    · rw [hq] at hp
      obtain rfl := List.mem_singleton.mp hp
      exact ⟨record, hrecorded, hpast⟩
  · have hstop := hinv.stop
    rw [hstopped] at hstop
    obtain ⟨record, p, ⟨hrecorded, hpast⟩, hexited, hq⟩ := hstop rfl
    exact ⟨record, p, hrecorded, hpast, hexited, hq⟩

/-! ## A stop -/

def sampleRecord : IdentityRecord where
  formatVersion := 2
  pid := 42
  creationTime := "b:5".toList
  executable := "/a".toList
  executableFileIdentity := some ⟨1, 2⟩
  socket := "/s".toList

def sampleStart : Word := ⟨['5'], by decide, List.forall_mem_singleton.mpr (by decide)⟩

def sampleAnswers : Answers where
  line := ⟨"a) b".toList, List.replicate 19 sampleStart, [], rfl⟩
  late := false

def sampleEvents : List SystemEvent :=
  .kernel (.spawn 7 42 sampleStart ⟨⟨1, 2⟩, "/a".toList⟩) ::
    (List.replicate 10 (.advance sampleAnswers) ++
      [.kernel (.exit 7), .kernel (.report 7), .advance sampleAnswers])

def sampleRun : Option System :=
  Runs.run (System.step ['b'] some (fun _ ↦ some sampleRecord) (.content .empty) "/s".toList)
    ⟨.empty, .start, []⟩ sampleEvents

theorem stop_signals_recorded_sample :
    ∃ s, sampleRun = some s ∧ s.stop = .done (.ok .stopped) ∧ s.signals = [7] ∧
      s.kernel.Exited 7 := by
  obtain ⟨s, hrun, hstop, hsignals⟩ : ∃ s, sampleRun = some s ∧ s.stop = .done (.ok .stopped) ∧
      s.signals = [7] := ⟨_, rfl, rfl, rfl⟩
  obtain ⟨-, -, hstopped⟩ := stop_signals_recorded ['b'] some (fun _ ↦ some sampleRecord)
    (.content .empty) "/s".toList Table.Sound.empty hrun
  obtain ⟨record, p, -, -, hexited, hp⟩ := hstopped hstop
  obtain rfl := hp 7 (by rw [hsignals]; exact List.mem_cons_self)
  exact ⟨s, hrun, hstop, hsignals, hexited⟩

end Lasterm.Agent.Identity
