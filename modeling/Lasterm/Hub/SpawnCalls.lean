import Lasterm.Hub.Acquisition

/-!
# The calls of `handleSpawn`

Model of how `handleSpawn` uses the acquisitions of its host. A call enters by joining the
acquisition in the map or by leading a new one, and is then suspended until the promise is settled,
or until its own connect is over. It holds its lease until it returns; the `finally` releases it.

Every step of a call issues operations under their guards (`step_guarded`), so what
`Acquisitions.Coherent` says of guarded operations holds of the hub. No lease is leaked: when all
calls have returned, every lease is released (`released_of_returned`).
-/

namespace Lasterm.Hub

open Runs

/-- Where a call of `handleSpawn` is suspended, and what it holds there. -/
inductive SpawnPoint
  /-- A follower waits for the `connectPromise` of the acquisition. -/
  | follower (acq lease : ℕ)
  /-- The leader waits for the session and for `_connectSshAgent`. -/
  | leader (acq lease : ℕ)
  /-- The spawn body. Where the host had an agent there is no lease. -/
  | body (lease : Option ℕ)
  | returned
  deriving DecidableEq

def SpawnPoint.lease : SpawnPoint → Option ℕ
  | .follower _ l | .leader _ l => some l
  | .body l => l
  | .returned => none

def SpawnPoint.acq : SpawnPoint → Option ℕ
  | .follower a _ | .leader a _ => some a
  | .body _ | .returned => none

structure Spawns where
  acquisitions : Acquisitions
  calls : List SpawnPoint

/-- What happens to the calls. `current` says that the session of the host is the one of the call,
`agentConnected` that the host has a connected agent, `hasChannels` that a channel belongs to the
session. -/
inductive SpawnEvent
  | enter (hostId clientId : String) (agentConnected : Bool)
  | followed (n : ℕ) (current agentConnected hasChannels : Bool)
  | connected (n : ℕ) (result : Except String String) (current agentConnected hasChannels : Bool)
  | clientGone (n : ℕ) (hasChannels : Bool)
  | finished (n : ℕ) (hasChannels : Bool)
  | closeSession (hostId : String)
  | shutdown

namespace Spawns

def empty : Spawns := ⟨.empty, []⟩

def lead (s : Spawns) (hostId clientId : String) : Spawns where
  acquisitions := s.acquisitions.acquire hostId clientId
  calls := s.calls ++ [.leader s.acquisitions.acqs.length s.acquisitions.leases.length]

/-- The acquisition section up to its first `await`. -/
def enter (s : Spawns) (hostId clientId : String) : Spawns :=
  match s.acquisitions.map.get hostId with
  | none => s.lead hostId clientId
  | some a =>
    match s.acquisitions.join a clientId with
    | (t, some l) => { acquisitions := t, calls := s.calls ++ [.follower a l] }
    | (_, none) => s.lead hostId clientId

/-- Return through the `finally`. -/
def finish (s : Spawns) (n l : ℕ) (hasChannels : Bool) : Spawns where
  acquisitions := (s.acquisitions.release l hasChannels).1
  calls := s.calls.set n .returned

/-- `failConnectingAcq`, and the return after it. -/
def failConnecting (s : Spawns) (n a l : ℕ) (message : String) (hasChannels : Bool) : Spawns :=
  { s with acquisitions := s.acquisitions.fail a message }.finish n l hasChannels

def step (s : Spawns) : SpawnEvent → Option Spawns
  | .enter hostId clientId agentConnected =>
    some (if agentConnected then { s with calls := s.calls ++ [.body none] }
      else s.enter hostId clientId)
  | .followed n current agentConnected hasChannels =>
    match s.calls[n]? with
    | some (.follower a l) =>
      match (s.acquisitions.acqs[a]?).bind Acquisition.connectPromise with
      | none => none
      | some (.rejected _) => some (s.finish n l hasChannels)
      | some (.resolved _) =>
        some (if current && agentConnected then { s with calls := s.calls.set n (.body (some l)) }
          else s.finish n l hasChannels)
    | _ => none
  | .connected n result current agentConnected hasChannels =>
    match s.calls[n]? with
    | some (.leader a l) =>
      match result with
      | .error message => some (s.failConnecting n a l message hasChannels)
      | .ok sessionId =>
        if s.acquisitions.InMap a
            ∧ (∀ q ∈ s.acquisitions.acqs[a]?, q.state = .connecting ∧ q.aborted = false) ∧
              current then
          let t := { s with acquisitions := s.acquisitions.commit a sessionId }
          some (if agentConnected then { t with calls := s.calls.set n (.body (some l)) }
            else t.finish n l hasChannels)
        else some (s.failConnecting n a l "SSH connect aborted" hasChannels)
    | _ => none
  | .clientGone n hasChannels | .finished n hasChannels =>
    match s.calls[n]? with
    | some (.body (some l)) => some (s.finish n l hasChannels)
    | some (.body none) => some { s with calls := s.calls.set n .returned }
    | _ => none
  | .closeSession hostId => some { s with acquisitions := s.acquisitions.close hostId }
  | .shutdown => some { s with acquisitions := s.acquisitions.shutdownAll }

variable {s s' : Spawns} {e : SpawnEvent} {n a l : ℕ} {p : SpawnPoint}

/-! ## The calls obey the guards -/

/-- Calls hold what was issued to them, and every lease that is not released is held by a call. -/
structure Valid (s : Spawns) : Prop where
  coherent : s.acquisitions.Coherent
  acq : ∀ p ∈ s.calls, ∀ a ∈ p.acq, a < s.acquisitions.acqs.length
  lease : ∀ p ∈ s.calls, ∀ l ∈ p.lease, l < s.acquisitions.leases.length
  held : ∀ (l : ℕ) x, s.acquisitions.leases[l]? = some x → x.released = false →
    ∃ p ∈ s.calls, p.lease = some l

theorem valid_empty : empty.Valid where
  coherent := Acquisitions.coherent_empty
  acq p hp := by cases hp
  lease p hp := by cases hp
  held l x hx := by cases hx

/-- Every step of a call is a run of operations, each issued under its guard. -/
def Guarded (s : Spawns) (s' : Spawns) : Prop :=
  ∃ ops, run Acquisitions.step s.acquisitions ops = some s'.acquisitions

theorem Guarded.refl {calls : List SpawnPoint} : s.Guarded { s with calls := calls } := ⟨[], rfl⟩

theorem guarded_of_apply (op : Acquisitions.Op) {calls : List SpawnPoint}
    (hguard : s.acquisitions.Guard op) :
    s.Guarded { acquisitions := s.acquisitions.apply op, calls := calls } :=
  ⟨[op], by rw [run_cons, Acquisitions.step, if_pos hguard]; rfl⟩

theorem Guarded.trans {s'' : Spawns} (h : s.Guarded s') (h' : s'.Guarded s'') : s.Guarded s'' := by
  obtain ⟨ops, hops⟩ := h
  obtain ⟨ops', hops'⟩ := h'
  exact ⟨ops ++ ops', by rw [run_append, hops, Option.bind_some, hops']⟩

theorem guarded_finish (hl : l < s.acquisitions.leases.length) (hasChannels : Bool) :
    s.Guarded (s.finish n l hasChannels) :=
  guarded_of_apply (.release l hasChannels) hl

/-! ## What the steps of a call keep -/

section

variable (h : s.Valid)
include h

/-- Operations that issue and release no lease. -/
theorem Valid.withAcquisitions {t : Acquisitions} (hcoherent : t.Coherent)
    (hevolves : s.acquisitions.Evolves t) (hleases : t.leases = s.acquisitions.leases) :
    Valid { s with acquisitions := t } where
  coherent := hcoherent
  acq p hp a ha := hevolves.lt (h.acq p hp a ha)
  lease p hp l hl := hleases ▸ h.lease p hp l hl
  held l x hx hheld := h.held l x (hleases ▸ hx) hheld

/-- A call that goes on with the lease it has. -/
theorem Valid.proceed {p' : SpawnPoint} (hp : s.calls[n]? = some p)
    (hacq : p'.acq = none) (hlease : p'.lease = p.lease) :
    Valid { s with calls := s.calls.set n p' } where
  coherent := h.coherent
  acq r hr a ha := by
    rcases List.mem_or_eq_of_mem_set hr with hr | rfl
    · exact h.acq r hr a ha
    · rw [hacq] at ha
      cases ha
  lease r hr l hl := by
    rcases List.mem_or_eq_of_mem_set hr with hr | rfl
    · exact h.lease r hr l hl
    · exact h.lease p (List.mem_of_getElem? hp) l (hlease ▸ hl)
  held l x hx hheld := by
    obtain ⟨r, hr, hl⟩ := h.held l x hx hheld
    obtain ⟨m, hm⟩ := List.mem_iff_getElem?.mp hr
    by_cases hmn : n = m
    · subst hmn
      cases hp.symm.trans hm
      refine ⟨p', List.mem_iff_getElem?.mpr ⟨n, ?_⟩, hlease.trans hl⟩
      exact List.getElem?_set_self (List.getElem?_eq_some_iff.mp hp).1
    · exact ⟨r, List.mem_iff_getElem?.mpr ⟨m, (List.getElem?_set_ne hmn).trans hm⟩, hl⟩

theorem Valid.finish (hp : s.calls[n]? = some p) (hl : p.lease = some l)
    (hasChannels : Bool) : (s.finish n l hasChannels).Valid := by
  have hlt : l < s.acquisitions.leases.length := h.lease p (List.mem_of_getElem? hp) l hl
  refine ⟨h.coherent.release hlt hasChannels, fun r hr a ha ↦ ?_, fun r hr k hk ↦ ?_,
    fun k x hx hheld ↦ ?_⟩
  · refine (Acquisitions.evolves_apply _ (.release l hasChannels)).lt ?_
    rcases List.mem_or_eq_of_mem_set hr with hr | rfl
    · exact h.acq r hr a ha
    · cases ha
  · rw [Spawns.finish, Acquisitions.length_leases_release]
    rcases List.mem_or_eq_of_mem_set hr with hr | rfl
    · exact h.lease r hr k hk
    · cases hk
  · rw [Spawns.finish, Acquisitions.leases_release, Option.map_eq_some_iff] at hx
    obtain ⟨x, hx, rfl⟩ := hx
    by_cases hlk : l = k
    · rw [if_pos hlk] at hheld
      cases hheld
    · rw [if_neg hlk] at hheld
      obtain ⟨r, hr, hrl⟩ := h.held k x hx hheld
      obtain ⟨m, hm⟩ := List.mem_iff_getElem?.mp hr
      have hmn : n ≠ m := by
        rintro rfl
        cases hp.symm.trans hm
        exact hlk (Option.some.inj (hl.symm.trans hrl))
      exact ⟨r, List.mem_iff_getElem?.mpr ⟨m, (List.getElem?_set_ne hmn).trans hm⟩, hrl⟩

/-- A new call, with the lease that was issued to it. -/
theorem Valid.issue {t : Acquisitions} {x : Lease} (hcoherent : t.Coherent)
    (hevolves : s.acquisitions.Evolves t) (hleases : t.leases = s.acquisitions.leases ++ [x])
    (hacq : ∀ a ∈ p.acq, a < t.acqs.length) (hlease : p.lease = some s.acquisitions.leases.length) :
    Valid { acquisitions := t, calls := s.calls ++ [p] } where
  coherent := hcoherent
  acq r hr a ha := by
    rcases List.mem_append.mp hr with hr | hr
    · exact hevolves.lt (h.acq r hr a ha)
    · obtain rfl := List.mem_singleton.mp hr
      exact hacq a ha
  lease r hr l hl := by
    rw [hleases, List.length_append, List.length_singleton]
    rcases List.mem_append.mp hr with hr | hr
    · exact Nat.lt_succ_of_lt (h.lease r hr l hl)
    · obtain rfl := List.mem_singleton.mp hr
      cases hlease.symm.trans hl
      exact Nat.lt_succ_self _
  held l y hy hheld := by
    rw [hleases] at hy
    rcases Acquisitions.getElem?_append_lease.mp hy with hy | ⟨rfl, -⟩
    · obtain ⟨r, hr, hl⟩ := h.held l y hy hheld
      exact ⟨r, List.mem_append_left _ hr, hl⟩
    · exact ⟨p, List.mem_append_right _ List.mem_cons_self, hlease⟩

theorem Valid.enter (hostId clientId : String) :
    s.Guarded (s.enter hostId clientId) ∧ (s.enter hostId clientId).Valid := by
  rcases hmap : s.acquisitions.map.get hostId with _ | a
  · have heq : s.enter hostId clientId = s.lead hostId clientId := by rw [Spawns.enter, hmap]
    have hguard : s.acquisitions.Guard (.acquire hostId clientId) := by
      intro a ha
      rw [hmap] at ha
      cases ha
    rw [heq]
    refine ⟨guarded_of_apply (.acquire hostId clientId) hguard, h.issue (h.coherent.acquire hmap)
      (Acquisitions.evolves_apply _ (.acquire hostId clientId)) rfl ?_ rfl⟩
    intro a ha
    cases ha
    simp [Acquisitions.acquire]
  · obtain ⟨q, hq, rfl, -⟩ := h.coherent.pending hostId a hmap
    have hin : s.acquisitions.InMap a := ⟨q, hq, hmap⟩
    have hjoin := h.coherent.join_eq hq hmap clientId
    have heq : s.enter q.hostId clientId =
        { acquisitions := (s.acquisitions.join a clientId).1,
          calls := s.calls ++ [.follower a s.acquisitions.leases.length] } := by
      rw [Spawns.enter, hmap]
      simp only [hjoin]
    rw [heq]
    refine ⟨guarded_of_apply (.join a clientId) hin, h.issue (h.coherent.join hin)
      (Acquisitions.evolves_apply _ (.join a clientId)) (by rw [hjoin]) ?_ rfl⟩
    intro b hb
    cases hb
    exact (Acquisitions.evolves_apply _ (.join a clientId)).lt (List.getElem?_eq_some_iff.mp hq).1

theorem Valid.failConnecting (hp : s.calls[n]? = some (.leader a l)) (message : String)
    (hasChannels : Bool) :
    s.Guarded (s.failConnecting n a l message hasChannels) ∧
      (s.failConnecting n a l message hasChannels).Valid := by
  have hmem : .leader a l ∈ s.calls := List.mem_of_getElem? hp
  have ha : a < s.acquisitions.acqs.length := h.acq _ hmem a rfl
  have hfail : Valid { s with acquisitions := s.acquisitions.fail a message } :=
    h.withAcquisitions
      (Acquisitions.step_coherent (.fail a message) h.coherent (if_pos ha))
      (Acquisitions.evolves_apply _ (.fail a message)) Acquisitions.leases_fail
  have hguarded : s.Guarded { s with acquisitions := s.acquisitions.fail a message } :=
    guarded_of_apply (.fail a message) ha
  exact ⟨hguarded.trans (guarded_finish (hfail.lease _ hmem l rfl) hasChannels),
    hfail.finish hp rfl hasChannels⟩

end

theorem step_followed {current connected hasChannels : Bool}
    (hstep : s.step (.followed n current connected hasChannels) = some s') :
    ∃ a l, s.calls[n]? = some (.follower a l) ∧
      (s' = { s with calls := s.calls.set n (.body (some l)) } ∨
        s' = s.finish n l hasChannels) := by
  rw [step] at hstep
  split at hstep
  · rename_i a l hp
    refine ⟨a, l, hp, ?_⟩
    split at hstep
    · cases hstep
    · exact .inr (Option.some.inj hstep).symm
    · cases hstep
      split
      · exact .inl rfl
      · exact .inr rfl
  · cases hstep

theorem step_connected {result : Except String String} {current connected hasChannels : Bool}
    (hstep : s.step (.connected n result current connected hasChannels) = some s') :
    ∃ a l, s.calls[n]? = some (.leader a l) ∧
      ((∃ message, s' = s.failConnecting n a l message hasChannels) ∨
        ∃ sessionId, s.acquisitions.Guard (.commit a sessionId) ∧
          (s' = { acquisitions := s.acquisitions.commit a sessionId,
                  calls := s.calls.set n (.body (some l)) } ∨
            s' = { s with acquisitions := s.acquisitions.commit a sessionId }.finish n l
              hasChannels)) := by
  rw [step] at hstep
  split at hstep
  · rename_i a l hp
    refine ⟨a, l, hp, ?_⟩
    split at hstep
    · exact .inl ⟨_, (Option.some.inj hstep).symm⟩
    · rename_i sessionId
      split at hstep
      · rename_i hguard
        cases hstep
        refine .inr ⟨sessionId, ⟨hguard.1, hguard.2.1⟩, ?_⟩
        split
        · exact .inl rfl
        · exact .inr rfl
      · exact .inl ⟨_, (Option.some.inj hstep).symm⟩
  · cases hstep

theorem Valid.enterBody (h : s.Valid) : Valid { s with calls := s.calls ++ [.body none] } := by
  refine ⟨h.coherent, fun r hr a ha ↦ ?_, fun r hr l hl ↦ ?_, fun l x hx hheld ↦ ?_⟩
  · rcases List.mem_append.mp hr with hr | hr
    · exact h.acq r hr a ha
    · obtain rfl := List.mem_singleton.mp hr
      cases ha
  · rcases List.mem_append.mp hr with hr | hr
    · exact h.lease r hr l hl
    · obtain rfl := List.mem_singleton.mp hr
      cases hl
  · obtain ⟨r, hr, hl⟩ := h.held l x hx hheld
    exact ⟨r, List.mem_append_left _ hr, hl⟩

theorem Valid.leaveBody {hasChannels : Bool} (h : s.Valid)
    (hstep : s.step (.finished n hasChannels) = some s') : s.Guarded s' ∧ s'.Valid := by
  rw [step] at hstep
  split at hstep
  · rename_i l hp
    cases hstep
    exact ⟨guarded_finish (h.lease _ (List.mem_of_getElem? hp) l rfl) hasChannels,
      h.finish hp rfl hasChannels⟩
  · rename_i hp
    cases hstep
    exact ⟨.refl, h.proceed hp rfl rfl⟩
  · cases hstep

/-- **One step** of the calls issues operations under their guards and keeps the invariant. -/
theorem step_guarded (h : s.Valid) (hstep : s.step e = some s') : s.Guarded s' ∧ s'.Valid := by
  cases e with
  | enter hostId clientId connected =>
    cases hstep
    split
    · exact ⟨.refl, h.enterBody⟩
    · exact h.enter hostId clientId
  | followed n current connected hasChannels =>
    obtain ⟨a, l, hp, hs'⟩ := step_followed hstep
    have hmem : .follower a l ∈ s.calls := List.mem_of_getElem? hp
    rcases hs' with rfl | rfl
    · exact ⟨.refl, h.proceed hp rfl rfl⟩
    · exact ⟨guarded_finish (h.lease _ hmem l rfl) hasChannels, h.finish hp rfl hasChannels⟩
  | connected n result current connected hasChannels =>
    obtain ⟨a, l, hp, hs'⟩ := step_connected hstep
    have hmem : .leader a l ∈ s.calls := List.mem_of_getElem? hp
    rcases hs' with ⟨message, rfl⟩ | ⟨sessionId, hguard, hs'⟩
    · exact h.failConnecting hp message hasChannels
    · have hcommit : Valid { s with acquisitions := s.acquisitions.commit a sessionId } :=
        h.withAcquisitions
          (Acquisitions.step_coherent (.commit a sessionId) h.coherent (if_pos hguard))
          (Acquisitions.evolves_apply _ (.commit a sessionId)) Acquisitions.leases_commit
      have hguarded : s.Guarded { s with acquisitions := s.acquisitions.commit a sessionId } :=
        guarded_of_apply (.commit a sessionId) hguard
      rcases hs' with rfl | rfl
      · exact ⟨hguarded, hcommit.proceed hp rfl rfl⟩
      · exact ⟨hguarded.trans (guarded_finish (hcommit.lease _ hmem l rfl) hasChannels),
          hcommit.finish hp rfl hasChannels⟩
  | clientGone n hasChannels =>
    exact h.leaveBody hstep
  | finished n hasChannels =>
    exact h.leaveBody hstep
  | closeSession hostId =>
    cases hstep
    exact ⟨guarded_of_apply (.close hostId) trivial, h.withAcquisitions h.coherent.close
      (Acquisitions.evolves_apply _ (.close hostId)) Acquisitions.leases_close⟩
  | shutdown =>
    cases hstep
    exact ⟨guarded_of_apply .shutdownAll trivial, h.withAcquisitions h.coherent.shutdownAll
      (Acquisitions.evolves_apply _ .shutdownAll) rfl⟩

/-- **Over every run** of the calls, the acquisitions go through a run of guarded operations. -/
theorem run_guarded {es : List SpawnEvent} (hrun : run step empty es = some s) :
    (∃ ops, run Acquisitions.step .empty ops = some s.acquisitions) ∧ s.Valid := by
  refine run_invariant (fun s ↦ empty.Guarded s ∧ s.Valid) ?_ ⟨.refl, valid_empty⟩ hrun
  rintro t e t' ⟨hguarded, hvalid⟩ hstep
  obtain ⟨hguarded', hvalid'⟩ := step_guarded hvalid hstep
  exact ⟨hguarded.trans hguarded', hvalid'⟩

/-- **No lease is leaked**: when all calls have returned, every lease is released and no acquisition
has a lease left. -/
theorem released_of_returned {es : List SpawnEvent} (hrun : run step empty es = some s)
    (hreturned : ∀ p ∈ s.calls, p = .returned) :
    (∀ x ∈ s.acquisitions.leases, x.released = true) ∧
    ∀ q ∈ s.acquisitions.acqs, q.leases = [] := by
  obtain ⟨-, hvalid⟩ := run_guarded hrun
  have hall : ∀ (l : ℕ) x, s.acquisitions.leases[l]? = some x → x.released = true := by
    intro l x hx
    by_contra hheld
    obtain ⟨p, hp, hl⟩ := hvalid.held l x hx (Bool.not_eq_true _ ▸ hheld)
    rw [hreturned p hp] at hl
    cases hl
  constructor
  · intro x hx
    obtain ⟨l, hl⟩ := List.mem_iff_getElem?.mp hx
    exact hall l x hl
  · intro q hq
    obtain ⟨a, ha⟩ := List.mem_iff_getElem?.mp hq
    rw [List.eq_nil_iff_forall_not_mem]
    intro l hl
    obtain ⟨x, hx, -, hheld⟩ := (hvalid.coherent.leases a q ha l).mp hl
    rw [hall l x hx] at hheld
    cases hheld

/-- Two calls share a connect, and both return. -/
def sharedConnect : List SpawnEvent :=
  [.enter "h" "c1" false, .enter "h" "c2" false, .connected 0 (.ok "s") true true true,
    .followed 1 true true true, .finished 1 true, .finished 0 true]

theorem released_of_returned_sharedConnect : ∃ s, run step empty sharedConnect = some s ∧
    ∀ x ∈ s.acquisitions.leases, x.released = true :=
  ⟨_, rfl, (@released_of_returned _ sharedConnect rfl (by decide)).1⟩

end Spawns

end Lasterm.Hub
