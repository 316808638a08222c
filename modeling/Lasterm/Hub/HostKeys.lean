import Lasterm.Library.OrderedMap
import Lasterm.Library.Runs

/-!
# Which host keys get a connection

Model of the verification of SSH host keys: the `hostVerifier` of `SshAgent.start`, the SPAWN that
leads a connect with its prompt and its retry (`_connectSshAgent`), the two ways to reconnect, and
TEST_CONNECT.

What is assumed of `ssh2` is in `present`: the verifier is asked before any credentials are sent, a
connect whose verifier says no ends there, and a connect without a verifier accepts every key. An
attempt and its retry are two presentations. A host name has no `@`, and a port no colon, so that a
key of `trustedOnceFingerprints` is a pair.

Two gaps break what the other paths keep: TEST_CONNECT sets no verifier, and an answer to
HOST_VERIFY that is no trust answer counts as `trust_once`. Without them a key gets past the
verification only if it was stored or approved (`safe_of_careful`).
-/

namespace Lasterm.Hub

open Runs

/-- The row of an SSH host. -/
structure SshHost where
  sshHost : String
  sshPort : Option ℕ
  /-- `ssh_fingerprint`. -/
  fingerprint : Option String

/-- `sshHost.split("@")[1]`, or all of it where there is no `@`. -/
def sshHostname (sshHost : String) : String :=
  match sshHost.toList.dropWhile (· ≠ '@') with
  | [] => sshHost
  | _ :: rest => String.ofList (rest.takeWhile (· ≠ '@'))

def SshHost.hostKey (host : SshHost) : String × ℕ :=
  (sshHostname host.sshHost, host.sshPort.getD 22)

inductive ConnectPath
  /-- The SPAWN that leads a connect for a session. -/
  | spawn (sessionId : String)
  /-- `scheduleReconnect`, or `onReconnectAgent` in a restart. -/
  | reconnect
  | testConnect
  deriving DecidableEq

inductive ConnectPhase
  /-- In the first `start`. -/
  | connecting
  /-- HOST_VERIFY is with the user. -/
  | prompting (capturedFingerprint : String)
  /-- In the `start` of the retry. -/
  | retrying (capturedFingerprint action : String)
  | over

structure ConnectAttempt where
  path : ConnectPath
  hostId : String
  hostKey : String × ℕ
  /-- The fingerprint of the host in the database when the attempt was made. TEST_CONNECT does not
  read it. -/
  stored : Option String
  /-- The arguments of the current `start`. -/
  storedFingerprint : Option String
  sessionTrustedFingerprint : Option String
  phase : ConnectPhase
  aborted : Bool

structure HostKeys where
  hosts : OrderedMap String SshHost
  /-- The id of the session of each host, in `ctx.sessions`. -/
  sessions : OrderedMap String String
  trustedOnceFingerprints : OrderedMap (String × ℕ) String
  attempts : List ConnectAttempt
  /-- The keys that got past the verification, with their attempts. -/
  authenticating : List (ℕ × String)
  /-- The fingerprints that users approved with `trust_once`, by host name and port. -/
  approvedOnce : List ((String × ℕ) × String)

inductive KeyEvent
  /-- A host is created or edited. The API does not write the fingerprint. -/
  | putHost (hostId sshHost : String) (sshPort : Option ℕ)
  | deleteHost (hostId : String)
  | putSession (hostId sessionId : String)
  | deleteSession (hostId : String)
  | spawn (hostId : String)
  | reconnect (hostId : String)
  | testConnect (hostId hostname : String) (port : ℕ)
  /-- The server of an attempt presents a key with this SHA-256, in base 64. -/
  | present (n : ℕ) (hash : String)
  /-- HOST_VERIFY is resolved. -/
  | answer (n : ℕ) (result : Option String)
  | abort (n : ℕ)
  /-- An attempt fails for another reason. -/
  | fail (n : ℕ)

namespace HostKeys

/-! ## The verifier -/

inductive Verdict
  | accept
  | tofu
  | mismatch
  deriving DecidableEq

/-- The truth value of a fingerprint in the source. -/
def present? (fingerprint : Option String) : Bool := fingerprint.any (· ≠ "")

/-- The `hostVerifier` that `start` sets. -/
def hostVerifier (storedFingerprint sessionTrustedFingerprint : Option String)
    (fingerprint : String) :
    Verdict :=
  if present? sessionTrustedFingerprint ∧ sessionTrustedFingerprint = some fingerprint then .accept
  else if present? storedFingerprint = false then .tofu
  else if storedFingerprint = some fingerprint then .accept
  else .mismatch

def fingerprintOf (hash : String) : String := "SHA256:" ++ hash

/-! ## The paths -/

def setAttempt (s : HostKeys) (n : ℕ) (a : ConnectAttempt) : HostKeys :=
  { s with attempts := s.attempts.set n a }

/-- `getHostFingerprint`. -/
def getHostFingerprint (s : HostKeys) (hostId : String) : Option String :=
  (s.hosts.get hostId).bind SshHost.fingerprint

/-- `updateHostFingerprint`. -/
def updateHostFingerprint (s : HostKeys) (hostId fingerprint : String) : HostKeys :=
  match s.hosts.get hostId with
  | none => s
  | some host =>
    { s with hosts := s.hosts.set hostId { host with fingerprint := some fingerprint } }

/-- An attempt with the fingerprints that the database and `trustedOnceFingerprints` have for the
host. -/
def connect (s : HostKeys) (path : ConnectPath) (hostId : String) (host : SshHost) : HostKeys :=
  { s with attempts := s.attempts ++ [{
      path := path
      hostId := hostId
      hostKey := host.hostKey
      stored := host.fingerprint
      storedFingerprint := host.fingerprint
      sessionTrustedFingerprint := s.trustedOnceFingerprints.get host.hostKey
      phase := .connecting
      aborted := false }] }

/-- `_testSshConnectivity`, which sets no `hostVerifier`. -/
def testConnect (s : HostKeys) (hostId : String) (hostKey : String × ℕ) : HostKeys :=
  { s with attempts := s.attempts ++ [{
      path := .testConnect
      hostId := hostId
      hostKey := hostKey
      stored := s.getHostFingerprint hostId
      storedFingerprint := none
      sessionTrustedFingerprint := none
      phase := .connecting
      aborted := false }] }

def authenticate (s : HostKeys) (n : ℕ) (a : ConnectAttempt) (fingerprint : String) : HostKeys :=
  { s.setAttempt n { a with phase := .over } with
    authenticating := s.authenticating ++ [(n, fingerprint)] }

/-- The server presents its key. Only the first `start` of a SPAWN asks the user about a key that is
refused. -/
def present (s : HostKeys) (n : ℕ) (a : ConnectAttempt) (fingerprint : String) : HostKeys :=
  match a.path with
  | .testConnect => s.authenticate n a fingerprint
  | .reconnect =>
    match hostVerifier a.storedFingerprint a.sessionTrustedFingerprint fingerprint with
    | .accept => s.authenticate n a fingerprint
    | .tofu | .mismatch => s.setAttempt n { a with phase := .over }
  | .spawn _ =>
    match hostVerifier a.storedFingerprint a.sessionTrustedFingerprint fingerprint with
    | .accept => s.authenticate n a fingerprint
    | .tofu | .mismatch =>
      match a.phase with
      | .connecting => s.setAttempt n { a with phase := .prompting fingerprint }
      | _ => s.setAttempt n { a with phase := .over }

/-- The session of the SPAWN is current and its connect was not aborted. -/
def current (s : HostKeys) (a : ConnectAttempt) : Prop :=
  a.aborted = false ∧ ∃ sessionId, a.path = .spawn sessionId ∧
    s.sessions.get a.hostId = some sessionId

instance (s : HostKeys) (a : ConnectAttempt) : Decidable (s.current a) :=
  match h : a.path with
  | .spawn sessionId =>
    decidable_of_iff (a.aborted = false ∧ s.sessions.get a.hostId = some sessionId) <| by
      simp [current, h]
  | .reconnect | .testConnect => isFalse (by simp [current, h])

/-- The approval of the user, as far as `_connectSshAgent` keeps it. -/
def trust (s : HostKeys) (a : ConnectAttempt) (fingerprint action : String) : HostKeys :=
  if action = "trust_permanent" then s.updateHostFingerprint a.hostId fingerprint
  else
    { s with trustedOnceFingerprints := s.trustedOnceFingerprints.set a.hostKey fingerprint }

/-- Note what the user approved. -/
def note (s : HostKeys) (a : ConnectAttempt) (fingerprint action : String) : HostKeys :=
  if action = "trust_once" then
    { s with approvedOnce := s.approvedOnce ++ [(a.hostKey, fingerprint)] }
  else s

/-- The part of `_connectSshAgent` between the prompt and the retry. -/
def answer (s : HostKeys) (n : ℕ) (a : ConnectAttempt) (fingerprint action : String) : HostKeys :=
  let ended := s.setAttempt n { a with phase := .over }
  if action = "reject" then ended
  else if s.current a then
    ((s.note a fingerprint action).trust a fingerprint action).setAttempt n { a with
      storedFingerprint := if action = "trust_permanent" then some fingerprint else none
      sessionTrustedFingerprint := if action = "trust_once" then some fingerprint else none
      phase := .retrying fingerprint action }
  else ended

def step (s : HostKeys) : KeyEvent → Option HostKeys
  | .putHost hostId sshHost sshPort =>
    some { s with hosts := s.hosts.set hostId ⟨sshHost, sshPort, s.getHostFingerprint hostId⟩ }
  | .deleteHost hostId => some { s with hosts := s.hosts.delete hostId }
  | .putSession hostId sessionId => some { s with sessions := s.sessions.set hostId sessionId }
  | .deleteSession hostId => some { s with sessions := s.sessions.delete hostId }
  | .spawn hostId =>
    match s.hosts.get hostId, s.sessions.get hostId with
    | some host, some sessionId => some (s.connect (.spawn sessionId) hostId host)
    | _, _ => none
  | .reconnect hostId =>
    match s.hosts.get hostId, s.sessions.get hostId with
    | some host, some _ => some (s.connect .reconnect hostId host)
    | _, _ => none
  | .testConnect hostId hostname port => some (s.testConnect hostId (hostname, port))
  | .present n hash =>
    match s.attempts[n]? with
    | none => none
    | some a =>
      match a.phase with
      | .connecting | .retrying _ _ => some (s.present n a (fingerprintOf hash))
      | .prompting _ | .over => none
  | .answer n result =>
    match s.attempts[n]? with
    | none => none
    | some a =>
      match a.phase with
      | .prompting fingerprint => some (s.answer n a fingerprint (result.getD "reject"))
      | _ => none
  | .abort n => (s.attempts[n]?).map fun a ↦ s.setAttempt n { a with aborted := true }
  | .fail n => (s.attempts[n]?).map fun a ↦ s.setAttempt n { a with phase := .over }

def start (hosts : OrderedMap String SshHost) : HostKeys := ⟨hosts, .empty, .empty, [], [], []⟩

/-! ## Safety -/

/-- The fingerprint is the one that was stored for the host, one that was approved with `trust_once`
for its name and port, or, in a retry, the one that the user has just approved. -/
def Approved (s : HostKeys) (a : ConnectAttempt) (fingerprint : String) : Prop :=
  match a.phase with
  | .retrying approved action =>
    fingerprint = approved ∧ (action = "trust_permanent" ∨ action = "trust_once")
  | _ => a.stored = some fingerprint ∨ (a.hostKey, fingerprint) ∈ s.approvedOnce

instance (s : HostKeys) (a : ConnectAttempt) (fingerprint : String) :
    Decidable (s.Approved a fingerprint) :=
  match h : a.phase with
  | .retrying approved action =>
    decidable_of_iff (fingerprint = approved ∧
      (action = "trust_permanent" ∨ action = "trust_once")) <| by
      simp [Approved, h]
  | .connecting | .prompting _ | .over =>
    decidable_of_iff (a.stored = some fingerprint ∨ (a.hostKey, fingerprint) ∈ s.approvedOnce) <| by
      simp [Approved, h]

/-- What a step may do: let an approved key pass, and store the fingerprint that a `trust_permanent`
answer is about while the session is current. -/
structure Safe (s : HostKeys) (e : KeyEvent) (s' : HostKeys) : Prop where
  passes : ∀ n fingerprint, s'.authenticating = s.authenticating ++ [(n, fingerprint)] →
    ∃ a, s.attempts[n]? = some a ∧ s.Approved a fingerprint
  stores : ∀ hostId fingerprint, s'.getHostFingerprint hostId = some fingerprint →
    s.getHostFingerprint hostId ≠ some fingerprint →
    ∃ n a, e = .answer n (some "trust_permanent") ∧ s.attempts[n]? = some a ∧ a.hostId = hostId ∧
      a.phase = .prompting fingerprint ∧ s.current a

/-- Which steps do not reach the gaps: TEST_CONNECT only meets keys that are trusted anyway, and
HOST_VERIFY is answered with null or with a trust answer. -/
def Careful (s : HostKeys) : KeyEvent → HostKeys → Prop
  | .present n hash, _ =>
    ∀ a ∈ s.attempts[n]?, a.path = .testConnect → s.Approved a (fingerprintOf hash)
  | .answer _ result, _ => ∀ action ∈ result, action ∈ ["trust_permanent", "trust_once", "reject"]
  | _, _ => True

instance (s : HostKeys) : (e : KeyEvent) → (s' : HostKeys) → Decidable (Careful s e s')
  | .present n hash, _ =>
    inferInstanceAs (Decidable
      (∀ a ∈ s.attempts[n]?, a.path = .testConnect → s.Approved a (fingerprintOf hash)))
  | .answer _ result, _ =>
    inferInstanceAs (Decidable
      (∀ action ∈ result, action ∈ ["trust_permanent", "trust_once", "reject"]))
  | .putHost .., _ | .deleteHost _, _ | .putSession .., _ | .deleteSession _, _ | .spawn _, _
  | .reconnect _, _ | .testConnect .., _ | .abort _, _ | .fail _, _ => isTrue trivial

/-! ## The invariant -/

/-- What the arguments of the current `start` are known to be. -/
def Grounded (s : HostKeys) (a : ConnectAttempt) : Prop :=
  match a.phase with
  | .connecting => a.path ≠ .testConnect → a.storedFingerprint = a.stored ∧
      ∀ fingerprint, a.sessionTrustedFingerprint = some fingerprint →
        (a.hostKey, fingerprint) ∈ s.approvedOnce
  | .retrying approved action =>
    (∀ fingerprint, a.storedFingerprint = some fingerprint →
      fingerprint = approved ∧ action = "trust_permanent") ∧
    (∀ fingerprint, a.sessionTrustedFingerprint = some fingerprint →
      fingerprint = approved ∧ action = "trust_once") ∧ a.path ≠ .testConnect
  | .prompting _ => a.path ≠ .testConnect
  | .over => True

structure Known (s : HostKeys) : Prop where
  trusted : ∀ key fingerprint, s.trustedOnceFingerprints.get key = some fingerprint →
    (key, fingerprint) ∈ s.approvedOnce
  attempts : ∀ (n : ℕ) a, s.attempts[n]? = some a → s.Grounded a

variable {s s' : HostKeys} {n : ℕ} {a a' : ConnectAttempt} {fingerprint action hostId : String}
  {e : KeyEvent}

theorem accept_of_hostVerifier {stored sessionTrusted : Option String}
    (h : hostVerifier stored sessionTrusted fingerprint = .accept) :
    sessionTrusted = some fingerprint ∨ stored = some fingerprint := by
  rw [hostVerifier] at h
  split at h
  · rename_i hsession
    exact .inl hsession.2
  · split at h
    · cases h
    · split at h
      · rename_i hstored
        exact .inr hstored
      · cases h

/-- **What the verifier lets through is approved.** -/
theorem Grounded.approved (h : s.Grounded a) (hpath : a.path ≠ .testConnect)
    (hphase : a.phase = .connecting ∨ ∃ approved action, a.phase = .retrying approved action)
    (haccept : hostVerifier a.storedFingerprint a.sessionTrustedFingerprint fingerprint = .accept) :
    s.Approved a fingerprint := by
  rcases hphase with hphase | ⟨approved, action, hphase⟩
  · simp only [Grounded, hphase] at h
    simp only [Approved, hphase]
    obtain ⟨hstored, hsession⟩ := h hpath
    rcases accept_of_hostVerifier haccept with heq | heq
    · exact .inr (hsession _ heq)
    · exact .inl (hstored ▸ heq)
  · simp only [Grounded, hphase] at h
    simp only [Approved, hphase]
    obtain ⟨hstored, hsession, -⟩ := h
    rcases accept_of_hostVerifier haccept with heq | heq
    · exact ⟨(hsession _ heq).1, .inr (hsession _ heq).2⟩
    · exact ⟨(hstored _ heq).1, .inl (hstored _ heq).2⟩

/-- More approvals keep what is known. -/
theorem Grounded.mono (h : s.Grounded a) (hmono : s.approvedOnce ⊆ s'.approvedOnce) :
    s'.Grounded a := by
  unfold Grounded at h ⊢
  split
  · rename_i hphase
    rw [hphase] at h
    exact fun hpath ↦ ⟨(h hpath).1, fun fingerprint hfp ↦ hmono ((h hpath).2 fingerprint hfp)⟩
  all_goals
    rename_i hphase
    rw [hphase] at h
    exact h

section

variable (h : s.Known)
include h

theorem Known.setAttempt (ha : s.Grounded a) (n : ℕ) : (s.setAttempt n a).Known where
  trusted := h.trusted
  attempts m b hb := by
    rw [HostKeys.setAttempt, List.getElem?_set] at hb
    split at hb
    · split at hb
      · cases hb
        exact ha.mono (List.Subset.refl _)
      · cases hb
    · exact (h.attempts m b hb).mono (List.Subset.refl _)

/-- Hosts and sessions do not count. -/
theorem Known.congr (hattempts : s'.attempts = s.attempts)
    (htrusted : s'.trustedOnceFingerprints = s.trustedOnceFingerprints)
    (happroved : s'.approvedOnce = s.approvedOnce) : s'.Known where
  trusted := by rw [htrusted, happroved]; exact h.trusted
  attempts m b hb := by
    rw [hattempts] at hb
    exact (h.attempts m b hb).mono (happroved ▸ List.Subset.refl _)

theorem Known.append (ha : s.Grounded a) :
    Known { s with attempts := s.attempts ++ [a] } where
  trusted := h.trusted
  attempts m b hb := by
    rw [List.getElem?_append] at hb
    split at hb
    · exact (h.attempts m b hb).mono (List.Subset.refl _)
    · obtain rfl := List.mem_singleton.mp (List.mem_of_getElem? hb)
      exact ha.mono (List.Subset.refl _)

theorem Known.connect (path : ConnectPath) (hostId : String) (host : SshHost) :
    (s.connect path hostId host).Known :=
  h.append fun _ ↦ ⟨rfl, fun fingerprint hfp ↦ h.trusted _ fingerprint hfp⟩

theorem Known.testConnect (hostId : String) (hostKey : String × ℕ) :
    (s.testConnect hostId hostKey).Known :=
  h.append fun hpath ↦ absurd rfl hpath

theorem Known.authenticate : (s.authenticate n a fingerprint).Known :=
  (h.setAttempt (a := { a with phase := .over }) trivial n).congr rfl rfl rfl

theorem Known.over : (s.setAttempt n { a with phase := .over }).Known :=
  h.setAttempt (a := { a with phase := .over }) trivial n

theorem Known.present : (s.present n a fingerprint).Known := by
  rw [HostKeys.present]
  split
  · exact h.authenticate
  · split
    · exact h.authenticate
    · exact h.over
    · exact h.over
  · rename_i sessionId hpath
    have hgrounded : s.Grounded { a with phase := .prompting fingerprint } := by
      change a.path ≠ .testConnect
      rw [hpath]
      nofun
    have hprompt := h.setAttempt hgrounded n
    split
    · exact h.authenticate
    all_goals
      split
      · exact hprompt
      · exact h.over

/-- A trust answer about a fingerprint: what is approved is noted. -/
theorem Known.trust (haction : action ∈ ["trust_permanent", "trust_once"]) :
    ((s.note a fingerprint action).trust a fingerprint action).Known := by
  rw [List.mem_cons, List.mem_singleton] at haction
  rcases haction with rfl | rfl
  · rw [HostKeys.trust, if_pos rfl, note, if_neg (by decide), updateHostFingerprint]
    split
    · exact h
    · exact h.congr rfl rfl rfl
  · rw [HostKeys.trust, if_neg (by decide), note, if_pos rfl]
    constructor
    · intro key fp hget
      rw [OrderedMap.get_set] at hget
      rw [List.mem_append, List.mem_singleton]
      split at hget
      · rename_i hkey
        exact .inr (by rw [← hkey, Option.some.inj hget])
      · exact .inl (h.trusted key fp hget)
    · intro m b hb
      exact (h.attempts m b hb).mono (List.subset_append_left _ _)

theorem Known.answer (haction : action ∈ ["trust_permanent", "trust_once", "reject"]) :
    (s.answer n a fingerprint action).Known := by
  rw [HostKeys.answer]
  by_cases hreject : action = "reject"
  · rw [if_pos hreject]
    exact h.over
  · rw [if_neg hreject]
    have htrust : action ∈ ["trust_permanent", "trust_once"] := by
      simp only [List.mem_cons, List.not_mem_nil, or_false] at haction ⊢
      tauto
    split
    · rename_i hcurrent
      obtain ⟨-, sessionId, hpath, -⟩ := hcurrent
      refine (h.trust htrust).setAttempt ?_ n
      change (∀ fp, (if action = "trust_permanent" then some fingerprint else none) = some fp →
          fp = fingerprint ∧ action = "trust_permanent") ∧
        (∀ fp, (if action = "trust_once" then some fingerprint else none) = some fp →
          fp = fingerprint ∧ action = "trust_once") ∧ a.path ≠ .testConnect
      refine ⟨fun fp hfp ↦ ?_, fun fp hfp ↦ ?_, ?_⟩
      · split at hfp
        · rename_i hpermanent
          exact ⟨(Option.some.inj hfp).symm, hpermanent⟩
        · cases hfp
      · split at hfp
        · rename_i honce
          exact ⟨(Option.some.inj hfp).symm, honce⟩
        · cases hfp
      · rw [hpath]
        nofun
    · exact h.over

end

/-! ## One step -/

/-- A step that neither lets a key pass nor stores a fingerprint. -/
theorem safe_of_eq (hauth : s'.authenticating = s.authenticating)
    (hstored : ∀ hostId fingerprint, s'.getHostFingerprint hostId = some fingerprint →
      s.getHostFingerprint hostId = some fingerprint) : Safe s e s' where
  passes _ _ h := absurd (hauth.symm.trans h) (by simp)
  stores hostId fingerprint h hne := absurd (hstored hostId fingerprint h) hne

theorem getHostFingerprint_putHost {sshHost : String} {sshPort : Option ℕ} (hostId' : String) :
    getHostFingerprint
      { s with hosts := s.hosts.set hostId ⟨sshHost, sshPort, s.getHostFingerprint hostId⟩ }
      hostId' =
      s.getHostFingerprint hostId' := by
  rw [getHostFingerprint, OrderedMap.get_set]
  split
  · rename_i heq
    rw [← heq]
    rfl
  · rfl

theorem getHostFingerprint_updateHostFingerprint {hostId' fp : String}
    (h : (s.updateHostFingerprint hostId fingerprint).getHostFingerprint hostId' = some fp) :
    (hostId = hostId' ∧ fp = fingerprint) ∨ s.getHostFingerprint hostId' = some fp := by
  rw [updateHostFingerprint] at h
  split at h
  · exact .inr h
  · rw [getHostFingerprint, OrderedMap.get_set] at h
    split at h
    · rename_i heq
      exact .inl ⟨heq, (Option.some.inj h).symm⟩
    · exact .inr h

theorem authenticating_trust :
    ((s.note a fingerprint action).trust a fingerprint action).authenticating =
      s.authenticating := by
  rw [trust, note, updateHostFingerprint]
  split
  · split
    · split <;> rfl
    · split <;> rfl
  · split <;> rfl

theorem safe_authenticate (ha : s.attempts[n]? = some a)
    (happroved : s.Approved a fingerprint) : Safe s e (s.authenticate n a fingerprint) where
  passes m fp h := by
    rw [authenticate, List.append_cancel_left_eq, List.singleton_inj, Prod.mk.injEq] at h
    obtain ⟨rfl, rfl⟩ := h
    exact ⟨a, ha, happroved⟩
  stores hostId fp h hne := absurd h hne

theorem safe_present (h : s.Known) (ha : s.attempts[n]? = some a)
    (hphase : a.phase = .connecting ∨ ∃ approved action, a.phase = .retrying approved action)
    (hcareful : a.path = .testConnect → s.Approved a fingerprint) :
    Safe s e (s.present n a fingerprint) := by
  have hquiet : ∀ b, Safe s e (s.setAttempt n b) := fun b ↦ safe_of_eq rfl fun _ _ hfp ↦ hfp
  rw [HostKeys.present]
  split
  · rename_i hpath
    exact safe_authenticate ha (hcareful hpath)
  all_goals
    rename_i hpath
    split
    · rename_i haccept
      exact safe_authenticate ha
        ((h.attempts n a ha).approved (by rw [hpath]; nofun) hphase haccept)
  · exact hquiet _
  · exact hquiet _
  all_goals
    split
    · exact hquiet _
    · exact hquiet _

theorem safe_answer (ha : s.attempts[n]? = some a) (hphase : a.phase = .prompting fingerprint)
    (result : Option String) :
    Safe s (.answer n result) (s.answer n a fingerprint (result.getD "reject")) := by
  have hquiet : ∀ b, Safe s (.answer n result) (s.setAttempt n b) :=
    fun b ↦ safe_of_eq rfl fun _ _ hfp ↦ hfp
  rw [HostKeys.answer]
  by_cases hreject : result.getD "reject" = "reject"
  · rw [if_pos hreject]
    exact hquiet _
  · rw [if_neg hreject]
    split
    · rename_i hcurrent
      by_cases hpermanent : result.getD "reject" = "trust_permanent"
      · have hresult : result = some "trust_permanent" := by
          rcases result with _ | action
          · exact absurd rfl hreject
          · exact congrArg some hpermanent
        subst hresult
        constructor
        · intro m fp h
          exact absurd (authenticating_trust.symm.trans h) (by simp)
        · intro hostId fp hfp hne
          have hget : (s.updateHostFingerprint a.hostId fingerprint).getHostFingerprint hostId =
              some fp := hfp
          rcases getHostFingerprint_updateHostFingerprint hget with ⟨rfl, rfl⟩ | hsame
          · exact ⟨n, a, rfl, ha, rfl, hphase, hcurrent⟩
          · exact absurd hsame hne
      · refine safe_of_eq ?_ fun hostId fp hfp ↦ ?_
        · rw [trust, if_neg hpermanent, note]
          split <;> rfl
        · rw [trust, if_neg hpermanent, note] at hfp
          split at hfp <;> exact hfp
    · exact hquiet _

theorem step_known (h : s.Known) {e : KeyEvent} :
    Ensures (fun s' ↦ Careful s e s' → s'.Known ∧ Safe s e s') (s.step e) := by
  cases e with
  | putHost hostId sshHost sshPort =>
    refine .of_some fun _ ↦ ⟨h.congr rfl rfl rfl, safe_of_eq rfl fun hostId' fp hfp ↦ ?_⟩
    rwa [getHostFingerprint_putHost] at hfp
  | deleteHost hostId =>
    refine .of_some fun _ ↦ ⟨h.congr rfl rfl rfl, safe_of_eq rfl fun hostId' fp hfp ↦ ?_⟩
    rw [getHostFingerprint, OrderedMap.get_delete] at hfp
    split at hfp
    · cases hfp
    · exact hfp
  | putSession hostId sessionId =>
    exact .of_some fun _ ↦ ⟨h.congr rfl rfl rfl, safe_of_eq rfl fun _ _ hfp ↦ hfp⟩
  | deleteSession hostId =>
    exact .of_some fun _ ↦ ⟨h.congr rfl rfl rfl, safe_of_eq rfl fun _ _ hfp ↦ hfp⟩
  | spawn hostId =>
    simp only [step]
    split
    · exact .of_some fun _ ↦ ⟨h.connect _ _ _, safe_of_eq rfl fun _ _ hfp ↦ hfp⟩
    · exact .of_none
  | reconnect hostId =>
    simp only [step]
    split
    · exact .of_some fun _ ↦ ⟨h.connect _ _ _, safe_of_eq rfl fun _ _ hfp ↦ hfp⟩
    · exact .of_none
  | testConnect hostId hostname port =>
    exact .of_some fun _ ↦ ⟨h.testConnect _ _, safe_of_eq rfl fun _ _ hfp ↦ hfp⟩
  | present n hash =>
    simp only [step]
    split
    · exact .of_none
    · rename_i a ha
      split
      · rename_i hphase
        refine .of_some fun hcareful ↦ ?_
        exact ⟨h.present, safe_present h ha (.inl hphase) (hcareful a ha)⟩
      · rename_i approved action hphase
        refine .of_some fun hcareful ↦ ?_
        exact ⟨h.present, safe_present h ha (.inr ⟨approved, action, hphase⟩) (hcareful a ha)⟩
      · exact .of_none
      · exact .of_none
  | answer n result =>
    simp only [step]
    split
    · exact .of_none
    · rename_i a ha
      split
      · rename_i fingerprint hphase
        refine .of_some fun hcareful ↦ ?_
        have haction : result.getD "reject" ∈ ["trust_permanent", "trust_once", "reject"] := by
          rcases result with _ | action
          · simp
          · exact hcareful action rfl
        exact ⟨h.answer haction, safe_answer ha hphase result⟩
      · exact .of_none
  | abort n =>
    refine .map fun a ha _ ↦ ?_
    have hgrounded : s.Grounded { a with aborted := true } := h.attempts n a ha
    exact ⟨h.setAttempt hgrounded n, safe_of_eq rfl fun _ _ hfp ↦ hfp⟩
  | fail n =>
    exact .map fun _ _ _ ↦ ⟨h.over, safe_of_eq rfl fun _ _ hfp ↦ hfp⟩

/-! ## Whole runs -/

/-- **No credentials to an unapproved key.** Along every run in which TEST_CONNECT only meets keys
that are trusted anyway and HOST_VERIFY only gets trust answers, a key gets past the verification
only if it was stored for the host, approved with `trust_once` for its name and port, or just
approved for this connect; and a fingerprint is only stored by a `trust_permanent` answer about it
in a current session. -/
theorem safe_of_careful {hosts : OrderedMap String SshHost} {es : List KeyEvent}
    (hcareful : Along step Careful (start hosts) es) : Along step Safe (start hosts) es := by
  have hstart : (start hosts).Known := by
    constructor
    · intro key fingerprint h
      rw [start, OrderedMap.get_empty] at h
      cases h
    · intro n a h
      simp [start] at h
  have hstep : ∀ s e s', s.Known → Careful s e s' → s.step e = some s' → s'.Known ∧ Safe s e s' :=
    fun _ _ _ h hc hstep ↦ step_known h hstep hc
  exact along_of_invariant Known hstep hstart hcareful

/-- A first connect, its approval for this run, and the retry. -/
def firstConnect : List KeyEvent :=
  [.putHost "web" "me@example.org" none, .putSession "web" "session", .spawn "web",
    .present 0 "key", .answer 0 (some "trust_once"), .present 0 "key"]

theorem safe_of_careful_firstConnect :
    Along step Safe (start .empty) firstConnect ∧
      (run step (start .empty) firstConnect).map authenticating = some [(0, "SHA256:key")] :=
  ⟨safe_of_careful (by decide), rfl⟩

/-- TEST_CONNECT to a server that nobody has approved. -/
theorem testConnect_accepts_any_key :
    ∃ es s, run step (start .empty) es = some s ∧ s.authenticating = [(0, "SHA256:impostor")] ∧
      ¬ Along step Safe (start .empty) es := by
  refine ⟨[.testConnect "web" "example.org" 22, .present 0 "impostor"], _, rfl, rfl,
    fun halong ↦ ?_⟩
  have hsafe := along_getElem halong 1 rfl rfl rfl
  obtain ⟨a, ha, happroved⟩ := hsafe.passes 0 "SHA256:impostor" rfl
  cases ha
  revert happroved
  decide

end HostKeys

end Lasterm.Hub
