import Lasterm.Agent.Identity

/-!
# The live record of a socket

`write_live_record` and `remove_live_record` of `identity.rs`, by any number of daemons on one
socket. A daemon that exits reads the record, compares it with its own, and removes the file at the
path; in between, its successor may have published. `ownOnly_iff_careful` says that a removal
deletes no other record exactly where none is published, and still there, between its read and its
removal.

A record is written to a file of its own, which is renamed to the path, so that what is read there
is a whole record. A call of the file system can fail at any time.
-/

namespace Lasterm.Agent.LiveRecord

open Identity Runs Shell

/-! ## Identities -/

/-- The components of a path, as `Path` compares them: empty ones and `.` do not count, except for a
`.` at the start. -/
def components (path : Text) : Bool × List Text :=
  let plain := fun part : Text ↦ part ≠ [] ∧ part ≠ ['.']
  (path.head? = some '/',
    match path.splitOnP (· = '/') with
    | ['.'] :: parts => ['.'] :: parts.filter plain
    | parts => parts.filter plain)

def sameIdentity (left right : IdentityRecord) : Bool :=
  left.formatVersion = right.formatVersion && left.pid = right.pid
    && left.creationTime = right.creationTime
    && components left.executable = components right.executable
    && left.executableFileIdentity = right.executableFileIdentity && left.socket = right.socket

/-! ## The calls -/

/-- A call of `remove_live_record`. -/
inductive Removal where
  | idle
  | reading (expected : IdentityRecord)
  | comparing (expected record : IdentityRecord)
  | unlinking (expected : IdentityRecord)
  | returned (result : Except Identity.IoError Unit)

/-- The record that a call which has read the file is to remove. -/
def Removal.expected? : Removal → Option IdentityRecord
  | .comparing expected _ | .unlinking expected => some expected
  | _ => none

/-- The record that the call is going to remove, by what it has read. -/
def Removal.matching? : Removal → Option IdentityRecord
  | .comparing expected record => if sameIdentity record expected then some expected else none
  | .unlinking expected => some expected
  | _ => none

theorem Removal.expected?_of_matching? {removal : Removal} {expected : IdentityRecord}
    (h : removal.matching? = some expected) : removal.expected? = some expected := by
  cases removal with
  | comparing expected' record =>
    rw [matching?] at h
    split at h
    · exact h
    · cases h
  | unlinking expected' => exact h
  | idle => cases h
  | reading _ => cases h
  | returned _ => cases h

structure RecordDir where
  live : Option IdentityRecord
  removals : ℕ → Removal

namespace RecordDir

variable (d : RecordDir)

def setRemoval (call : ℕ) (removal : Removal) : RecordDir :=
  { d with removals := Function.update d.removals call removal }

@[simp] theorem setRemoval_self (call : ℕ) (removal : Removal) :
    (d.setRemoval call removal).removals call = removal := Function.update_self ..

theorem setRemoval_of_ne {call call' : ℕ} (removal : Removal) (h : call' ≠ call) :
    (d.setRemoval call removal).removals call' = d.removals call' := Function.update_of_ne h ..

/-- `write_live_record`. It can fail before the rename, and also behind it. -/
def write (record : IdentityRecord) (renamed : Bool) : RecordDir :=
  if renamed then { d with live := some record } else d

/-- `read_live_record_at`. -/
def read (call : ℕ) (expected : IdentityRecord) : Option Identity.IoError → RecordDir
  | some error => d.setRemoval call (.returned (.error error))
  | none =>
    match d.live with
    | some record => d.setRemoval call (.comparing expected record)
    | none => d.setRemoval call (.returned (.ok ()))

def compare (call : ℕ) (expected record : IdentityRecord) : RecordDir :=
  d.setRemoval call
    (if sameIdentity record expected then .unlinking expected else .returned (.ok ()))

/-- `remove_file`. A file that is not there is fine. -/
def removeFile (call : ℕ) : Option Identity.IoError → RecordDir
  | some error =>
    d.setRemoval call (.returned (if error = .notFound then .ok () else .error error))
  | none => { d with live := none }.setRemoval call (.returned (.ok ()))

end RecordDir

/-! ## Runs -/

inductive RecordEvent where
  | write (record : IdentityRecord) (renamed : Bool)
  | remove (call : ℕ) (expected : IdentityRecord)
  | read (call : ℕ) (error : Option Identity.IoError)
  | compare (call : ℕ)
  | removeFile (call : ℕ) (error : Option Identity.IoError)

structure Daemons where
  dir : RecordDir
  /-- The record that was published last. -/
  published : Option IdentityRecord
  /-- A call that expects it has removed it. -/
  withdrawn : Bool
  /-- Since a call has read the file, a record was published, and the last one of them was not the
  one that the call expects. -/
  overtaken : ℕ → Bool

namespace Daemons

def start (live : Option IdentityRecord) : Daemons :=
  ⟨⟨live, fun _ ↦ .idle⟩, live, false, fun _ ↦ false⟩

variable (s : Daemons) {removal : Removal}

def overtakenBy (record : IdentityRecord) (call : ℕ) : Bool :=
  match (s.dir.removals call).expected? with
  | some expected => !sameIdentity record expected
  | none => s.overtaken call

def step : RecordEvent → Option Daemons
  | .write record renamed =>
    some { s with
      dir := s.dir.write record renamed
      published := if renamed then some record else s.published
      withdrawn := if renamed then false else s.withdrawn
      overtaken := if renamed then s.overtakenBy record else s.overtaken }
  | .remove call expected =>
    match s.dir.removals call with
    | .idle | .returned _ => some { s with dir := s.dir.setRemoval call (.reading expected) }
    | _ => none
  | .read call error =>
    match s.dir.removals call with
    | .reading expected =>
      some { s with
        dir := s.dir.read call expected error
        overtaken := Function.update s.overtaken call false }
    | _ => none
  | .compare call =>
    match s.dir.removals call with
    | .comparing expected record => some { s with dir := s.dir.compare call expected record }
    | _ => none
  | .removeFile call error =>
    match s.dir.removals call with
    | .unlinking expected =>
      some { s with
        dir := s.dir.removeFile call error
        withdrawn := s.withdrawn ||
          error.isNone && s.published.any fun record ↦ sameIdentity record expected }
    | _ => none

/-- A removal deletes the record that it expects, or none. -/
def Deletes (s' : Daemons) : RecordEvent → Prop
  | .removeFile call _ => ∀ expected record, s.dir.removals call = .unlinking expected →
      s.dir.live = some record → s'.dir.live = none → sameIdentity record expected = true
  | _ => s.dir.live.isSome = true → s'.dir.live.isSome = true

/-- The record that was published last is there until it is removed by a call that expects it. -/
def Survives : Prop := s.withdrawn = false → s.dir.live = s.published

def OwnOnly (e : RecordEvent) (s' : Daemons) : Prop := s.Deletes s' e ∧ s'.Survives

/-- No other record was published since the call has read the file, unless it was removed again. -/
def Careful : RecordEvent → Prop
  | .removeFile call none => s.overtaken call = true → s.withdrawn = true
  | _ => True

/-! ## The invariant -/

/-- What a call has to know of the record that was published last. -/
structure Told (removal : Removal) (overtaken : Bool) (published : Option IdentityRecord)
    (withdrawn : Bool) : Prop where
  superseded : ∀ expected, removal.expected? = some expected → overtaken = true →
    ∃ record, published = some record ∧ sameIdentity record expected = false
  matching : ∀ expected, removal.matching? = some expected → overtaken = false →
    withdrawn = false → ∃ record, published = some record ∧ sameIdentity record expected = true

theorem told_of_expected?_eq_none {overtaken : Bool}
    {published : Option IdentityRecord} {withdrawn : Bool} (h : removal.expected? = none) :
    Told removal overtaken published withdrawn where
  superseded := by
    intro expected hr
    rw [h] at hr
    cases hr
  matching := by
    intro expected hr
    rw [Removal.expected?_of_matching? hr] at h
    cases h

theorem Told.withdraw {overtaken : Bool} {published : Option IdentityRecord}
    {withdrawn : Bool} (h : Told removal overtaken published withdrawn) (b : Bool) :
    Told removal overtaken published (withdrawn || b) where
  superseded := h.superseded
  matching := fun expected hr hover hw ↦
    h.matching expected hr hover (Bool.or_eq_false_iff.mp hw).1

/-- The file and the calls under way, by the records published so far. -/
structure Inv : Prop where
  live_eq : s.dir.live = if s.withdrawn then none else s.published
  told : ∀ call, Told (s.dir.removals call) (s.overtaken call) s.published s.withdrawn

theorem inv_start (live : Option IdentityRecord) : (start live).Inv where
  live_eq := rfl
  told := fun _ ↦ told_of_expected?_eq_none rfl

variable {s}

section

variable (h : s.Inv)
include h

theorem Inv.published_of_live {record : IdentityRecord}
    (hlive : s.dir.live = some record) : s.published = some record ∧ s.withdrawn = false := by
  rw [h.live_eq] at hlive
  split at hlive
  · cases hlive
  · rename_i hw
    exact ⟨hlive, Bool.eq_false_iff.mpr hw⟩

/-- The other calls are as they were. -/
theorem Inv.told_setRemoval {call : ℕ} {removal : Removal}
    (hcall : Told removal (s.overtaken call) s.published s.withdrawn) (call' : ℕ) :
    Told ((s.dir.setRemoval call removal).removals call') (s.overtaken call') s.published
      s.withdrawn := by
  rcases eq_or_ne call' call with rfl | hne
  · rwa [RecordDir.setRemoval_self]
  · rw [RecordDir.setRemoval_of_ne _ _ hne]
    exact h.told call'

theorem Inv.write (record : IdentityRecord) (renamed : Bool) {s' : Daemons}
    (hs' : s.step (.write record renamed) = some s') : s'.Inv := by
  cases hs'
  cases renamed with
  | false => exact h
  | true =>
    refine ⟨rfl, fun call ↦ ⟨fun expected hr hover ↦ ?_, fun expected hr hover _ ↦ ?_⟩⟩
    · refine ⟨record, rfl, ?_⟩
      have hby : s.overtakenBy record call = true := hover
      rw [overtakenBy, show (s.dir.removals call).expected? = some expected from hr] at hby
      simpa using hby
    · refine ⟨record, rfl, ?_⟩
      have hby : s.overtakenBy record call = false := hover
      rw [overtakenBy, Removal.expected?_of_matching?
        (show (s.dir.removals call).matching? = some expected from hr)] at hby
      simpa using hby

theorem Inv.remove (call : ℕ) (expected : IdentityRecord) :
    Inv { s with dir := s.dir.setRemoval call (.reading expected) } where
  live_eq := h.live_eq
  told := h.told_setRemoval (told_of_expected?_eq_none rfl)

theorem Inv.forget (call : ℕ) (removal : Removal)
    (hcall : Told removal false s.published s.withdrawn) :
    Inv { s with
      dir := s.dir.setRemoval call removal
      overtaken := Function.update s.overtaken call false } where
  live_eq := h.live_eq
  told := by
    intro call'
    rcases eq_or_ne call' call with rfl | hne
    · simpa using hcall
    · simpa [RecordDir.setRemoval_of_ne _ _ hne, Function.update_of_ne hne] using h.told call'

/-- The call that has read the file expects what was published last, or lets it be. -/
theorem Inv.read (call : ℕ) (expected : IdentityRecord) (error : Option Identity.IoError) :
    Inv { s with
      dir := s.dir.read call expected error
      overtaken := Function.update s.overtaken call false } := by
  rw [RecordDir.read.eq_def]
  cases error with
  | some error => exact h.forget call _ (told_of_expected?_eq_none rfl)
  | none =>
    cases hlive : s.dir.live with
    | none => exact h.forget call _ (told_of_expected?_eq_none rfl)
    | some record =>
      refine h.forget call _ ⟨fun _ _ hover ↦ absurd hover Bool.false_ne_true, ?_⟩
      intro expected' hr _ _
      refine ⟨record, (h.published_of_live hlive).1, ?_⟩
      rw [Removal.matching?] at hr
      split at hr
      · cases hr
        assumption
      · cases hr

theorem Inv.compare {call : ℕ} {expected record : IdentityRecord}
    (hc : s.dir.removals call = .comparing expected record) :
    Inv { s with dir := s.dir.compare call expected record } := by
  rw [RecordDir.compare]
  refine ⟨h.live_eq, h.told_setRemoval ?_⟩
  have htold := h.told call
  rw [hc] at htold
  split
  · rename_i hsame
    refine ⟨htold.superseded, fun expected' hr ↦ htold.matching expected' ?_⟩
    rw [Removal.matching?, if_pos hsame]
    exact hr
  · exact told_of_expected?_eq_none rfl

theorem Inv.removeFile {call : ℕ} {expected : IdentityRecord}
    (hc : s.dir.removals call = .unlinking expected)
    (hcareful : s.overtaken call = true → s.withdrawn = true) :
    Inv { s with
      dir := s.dir.removeFile call none
      withdrawn := s.withdrawn ||
        Option.isNone (none : Option Identity.IoError) &&
          s.published.any fun record ↦ sameIdentity record expected } where
  live_eq := by
    have hgone :
        (s.withdrawn || s.published.any fun record ↦ sameIdentity record expected) = true := by
      cases hw : s.withdrawn with
      | true => rfl
      | false =>
        have hover : s.overtaken call = false := by
          rw [← Bool.not_eq_true]
          intro hover
          exact absurd (hcareful hover) (by simp [hw])
        have htold := h.told call
        rw [hc] at htold
        obtain ⟨record, hp, hsame⟩ := htold.matching expected rfl hover hw
        rw [hp]
        exact hsame
    exact (if_pos hgone).symm
  told := fun call' ↦ (h.told_setRemoval (told_of_expected?_eq_none rfl) call').withdraw _

theorem Inv.step {e : RecordEvent} {s' : Daemons} (hs' : s.step e = some s')
    (hcareful : s.Careful e) : s'.Inv := by
  cases e with
  | write record renamed => exact h.write record renamed hs'
  | remove call expected =>
    rw [Daemons.step] at hs'
    split at hs' <;> cases hs' <;> exact h.remove call expected
  | read call error =>
    rw [Daemons.step] at hs'
    split at hs' <;> cases hs'
    exact h.read call _ error
  | compare call =>
    rw [Daemons.step] at hs'
    split at hs' <;> cases hs'
    exact h.compare ‹_›
  | removeFile call error =>
    rw [Daemons.step] at hs'
    split at hs' <;> cases hs'
    cases error with
    -- A removal that fails leaves all as it was.
    | some error =>
      rw [Option.isNone_some, Bool.false_and, Bool.or_false]
      exact ⟨h.live_eq, h.told_setRemoval (told_of_expected?_eq_none rfl)⟩
    | none => exact h.removeFile ‹_› hcareful

end

/-- A step other than a removal that succeeds leaves a record where one was. -/
theorem live_isSome_of_step {e : RecordEvent} {s' : Daemons} (hs' : s.step e = some s')
    (he : ∀ call, e ≠ .removeFile call none) (hlive : s.dir.live.isSome = true) :
    s'.dir.live.isSome = true := by
  cases e with
  | write record renamed =>
    cases hs'
    cases renamed with
    | false => exact hlive
    | true => rfl
  | remove call expected =>
    rw [Daemons.step] at hs'
    split at hs' <;> cases hs' <;> exact hlive
  | read call error =>
    rw [Daemons.step] at hs'
    split at hs' <;> cases hs'
    rw [RecordDir.read.eq_def]
    split
    · exact hlive
    · split <;> exact hlive
  | compare call =>
    rw [Daemons.step] at hs'
    split at hs' <;> cases hs'
    exact hlive
  | removeFile call error =>
    rw [Daemons.step] at hs'
    split at hs' <;> cases hs'
    cases error with
    | some error => exact hlive
    | none => exact absurd rfl (he call)

theorem Inv.deletes_iff (h : s.Inv) {e : RecordEvent} {s' : Daemons} (hs' : s.step e = some s') :
    s.Deletes s' e ↔ s.Careful e := by
  cases e with
  | removeFile call error =>
    cases error with
    | some error =>
      refine iff_of_true (fun expected record _ hlive hgone ↦ ?_) trivial
      have hsome := live_isSome_of_step hs' (fun call' h' ↦ by cases h') (by rw [hlive]; rfl)
      rw [hgone] at hsome
      cases hsome
    | none =>
      rw [Daemons.step] at hs'
      split at hs' <;> cases hs'
      rename_i expected hc
      have htold := h.told call
      rw [hc] at htold
      constructor
      · intro hdel hover
        obtain ⟨record, hp, hne⟩ := htold.superseded expected rfl hover
        cases hw : s.withdrawn with
        | true => rfl
        | false =>
          have hlive : s.dir.live = some record := by
            rw [h.live_eq, hw, hp]
            rfl
          exact absurd (hdel expected record hc hlive rfl) (by simp [hne])
      · intro hcareful expected' record hc' hlive _
        rw [hc] at hc'
        cases hc'
        obtain ⟨hp, hw⟩ := h.published_of_live hlive
        cases hover : s.overtaken call with
        | true => exact absurd (hcareful hover) (by simp [hw])
        | false =>
          obtain ⟨record', hp', hsame⟩ := htold.matching expected rfl hover hw
          rw [hp] at hp'
          cases hp'
          exact hsame
  | write record renamed =>
    exact iff_of_true (live_isSome_of_step hs' fun call h' ↦ by cases h') trivial
  | remove call expected =>
    exact iff_of_true (live_isSome_of_step hs' fun call h' ↦ by cases h') trivial
  | read call error =>
    exact iff_of_true (live_isSome_of_step hs' fun call h' ↦ by cases h') trivial
  | compare call =>
    exact iff_of_true (live_isSome_of_step hs' fun call h' ↦ by cases h') trivial

theorem Inv.survives (h : s.Inv) : s.Survives := by
  intro hw
  rw [h.live_eq, hw]
  rfl

end Daemons

/-- **Whose record a removal deletes**: along a run, every removal deletes the record that it
expects or none, and the record that was published last stays until a call that expects it removes
it, exactly where no other record is published between the read and the removal of a call, or it is
gone by then. -/
theorem ownOnly_iff_careful (live : Option IdentityRecord) (es : List RecordEvent) :
    Along Daemons.step (fun s e s' ↦ s.OwnOnly e s') (Daemons.start live) es ↔
      Along Daemons.step (fun s e _ ↦ s.Careful e) (Daemons.start live) es := by
  refine along_congr_of_keeps Daemons.Inv (fun s e s' h hs' ↦ ?_) (Daemons.inv_start live)
  refine ⟨⟨fun howned ↦ (h.deletes_iff hs').mp howned.1, fun hcareful ↦ ?_⟩, h.step hs'⟩
  exact ⟨(h.deletes_iff hs').mpr hcareful, (h.step hs' hcareful).survives⟩

/-- The record of a daemon on `/run/a.sock`. -/
def daemonRecord (pid : ℕ) (creationTime : Text) : IdentityRecord where
  formatVersion := formatVersion
  pid := pid
  creationTime := creationTime
  executable := "/bin/agent".toList
  executableFileIdentity := none
  socket := "/run/a.sock".toList

/-- The exiting daemon has compared its record when its successor publishes. -/
theorem removal_deletes_successor :
    ¬ ∀ (live : Option IdentityRecord) (es : List RecordEvent),
      Along Daemons.step (fun s e s' ↦ s.OwnOnly e s') (Daemons.start live) es := by
  intro hall
  let exiting := daemonRecord 100 "1".toList
  let successor := daemonRecord 200 "2".toList
  have halong := hall (some exiting)
    [.remove 0 exiting, .read 0 none, .compare 0, .write successor true, .removeFile 0 none]
  have hown : Daemons.OwnOnly _ _ _ := along_getElem halong 4 rfl rfl rfl
  exact absurd (hown.1 exiting successor rfl rfl rfl) (by decide)

end Lasterm.Agent.LiveRecord
