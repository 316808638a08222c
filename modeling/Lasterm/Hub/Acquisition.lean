import Lasterm.Library.OrderedMap
import Lasterm.Library.Runs

/-!
# The acquisition of a session

Model of `session/session-acquisition.ts`, with the guards of `handleSpawn`, which uses it. While an
SSH host has no agent, the SPAWNs for it share one acquisition: the first leads the connect, the
others join and wait for its promise, and each holds a lease.

The objects of the source live in a heap: an acquisition or a lease is the number of its creation,
which stands for the identity of the object. `Acquisitions` is that heap with `ctx.acquisitions`.

The invariant is `Acquisitions.Coherent`: an acquisition is in the map exactly while its promise is
pending, and its set of leases is what was issued for it and not released. Every operation keeps it
under the guards of its callers (`step_coherent`), and what the machine promises over whole runs is
read off it (`acquisitions_coherent`).
-/

namespace Lasterm.Hub

open Runs

/-- `SessionAcquisition.state`. RECONNECTING is reserved in the source and never set. -/
inductive AcqState
  | connecting
  | closing
  | failed
  deriving DecidableEq

/-- What a `connectPromise` was settled with: the id of the session, or the message of the error. -/
inductive Settlement
  | resolved (sessionId : String)
  | rejected (message : String)

structure Acquisition where
  hostId : String
  state : AcqState
  /-- `controller.signal.aborted`. -/
  aborted : Bool
  /-- `none` while the promise is pending. -/
  connectPromise : Option Settlement
  /-- The set of leases, by their numbers. -/
  leases : List ℕ

structure Lease where
  hostId : String
  /-- `_acq`. -/
  acq : ℕ
  clientId : String
  released : Bool

namespace Acquisition

/-- `_resolve` and `_reject`: a promise that is settled stays as it is. -/
def settle (q : Acquisition) (outcome : Settlement) : Acquisition :=
  { q with connectPromise := some (q.connectPromise.getD outcome) }

/-- CLOSING, abort and rejection, as in `release`, `close` and `shutdownAll`. -/
def closing (message : String) (q : Acquisition) : Acquisition :=
  { q with state := .closing, aborted := true }.settle (.rejected message)

/-- CONNECTING, neither aborted nor settled. -/
structure Pending (q : Acquisition) : Prop where
  connecting : q.state = .connecting
  running : q.aborted = false
  unsettled : q.connectPromise = none

/-- What leaving the map does to an acquisition: it is settled, for good, and its host and leases
are left alone. -/
structure SettledBy (f : Acquisition → Acquisition) : Prop where
  hostId : ∀ q, (f q).hostId = q.hostId
  leases : ∀ q, (f q).leases = q.leases
  settled : ∀ q, (f q).connectPromise ≠ none
  final : ∀ q, q.connectPromise ≠ none → (f q).connectPromise = q.connectPromise

theorem settledBy_settle {f : Acquisition → Acquisition} {outcome : Settlement}
    (hhost : ∀ q, (f q).hostId = q.hostId) (hleases : ∀ q, (f q).leases = q.leases)
    (hpromise : ∀ q, (f q).connectPromise = q.connectPromise) :
    SettledBy fun q ↦ (f q).settle outcome where
  hostId := hhost
  leases := hleases
  settled q := Option.some_ne_none _
  final q hq := by
    obtain ⟨x, hx⟩ := Option.ne_none_iff_exists'.mp hq
    rw [settle, hpromise, hx]
    rfl

theorem settledBy_closing (message : String) : SettledBy (closing message) :=
  settledBy_settle (fun _ ↦ rfl) (fun _ ↦ rfl) (fun _ ↦ rfl)

end Acquisition

/-- The acquisitions and leases that were ever created, and `ctx.acquisitions`. -/
structure Acquisitions where
  acqs : List Acquisition
  leases : List Lease
  map : OrderedMap String ℕ

namespace Acquisitions

/-! ## The primitives -/

def empty : Acquisitions := ⟨[], [], .empty⟩

def acquire (s : Acquisitions) (hostId clientId : String) : Acquisitions where
  acqs := s.acqs ++ [⟨hostId, .connecting, false, none, [s.leases.length]⟩]
  leases := s.leases ++ [⟨hostId, s.acqs.length, clientId, false⟩]
  map := s.map.set hostId s.acqs.length

/-- A lease on an acquisition that is neither CLOSING nor FAILED. -/
def join (s : Acquisitions) (a : ℕ) (clientId : String) : Acquisitions × Option ℕ :=
  match s.acqs[a]? with
  | none => (s, none)
  | some q =>
    if q.state = .closing ∨ q.state = .failed then (s, none)
    else
      ({ s with
          acqs := s.acqs.modify a fun q ↦ { q with leases := q.leases ++ [s.leases.length] }
          leases := s.leases ++ [⟨q.hostId, a, clientId, false⟩] },
        some s.leases.length)

/-- Delete the entry of a host, if it still is this acquisition. -/
def evict (s : Acquisitions) (hostId : String) (a : ℕ) : Acquisitions :=
  if s.map.get hostId = some a then { s with map := s.map.delete hostId } else s

def modify (s : Acquisitions) (a : ℕ) (f : Acquisition → Acquisition) : Acquisitions :=
  { s with acqs := s.acqs.modify a f }

def commit (s : Acquisitions) (a : ℕ) (sessionId : String) : Acquisitions :=
  match s.acqs[a]? with
  | none => s
  | some q => (s.evict q.hostId a).modify a fun q ↦ q.settle (.resolved sessionId)

def fail (s : Acquisitions) (a : ℕ) (message : String) : Acquisitions :=
  match s.acqs[a]? with
  | none => s
  | some q =>
    (s.evict q.hostId a).modify a fun q ↦ { q with state := .failed }.settle (.rejected message)

/-- Mark a lease as released and take it out of the set of its acquisition. -/
def drop (s : Acquisitions) (l a : ℕ) : Acquisitions :=
  { s with
    acqs := s.acqs.modify a fun q ↦ { q with leases := q.leases.erase l }
    leases := s.leases.modify l fun x ↦ { x with released := true } }

/-- The second component says whether the acquisition was reaped. -/
def release (s : Acquisitions) (l : ℕ) (hasChannels : Bool) : Acquisitions × Bool :=
  match s.leases[l]? with
  | none => (s, false)
  | some lease =>
    if lease.released then (s, false)
    else
      let t := s.drop l lease.acq
      if t.map.get lease.hostId = some lease.acq
          ∧ (∀ q ∈ t.acqs[lease.acq]?, q.leases = []) ∧ hasChannels = false then
        ((t.evict lease.hostId lease.acq).modify lease.acq
          (.closing "session abandoned: all spawn intents released with no channels"), true)
      else (t, false)

def close (s : Acquisitions) (hostId : String) : Acquisitions :=
  match s.map.get hostId with
  | none => s
  | some a => (s.evict hostId a).modify a (.closing "session closed")

def shutdownAll (s : Acquisitions) : Acquisitions :=
  { s with
    acqs := s.map.entries.foldl (fun acqs e ↦ acqs.modify e.2 (.closing "hub shutting down")) s.acqs
    map := .empty }

/-! ## The operations under their guards -/

inductive Op
  | acquire (hostId clientId : String)
  | join (a : ℕ) (clientId : String)
  | commit (a : ℕ) (sessionId : String)
  | fail (a : ℕ) (message : String)
  | release (l : ℕ) (hasChannels : Bool)
  | close (hostId : String)
  | shutdownAll

def apply (s : Acquisitions) : Op → Acquisitions
  | .acquire hostId clientId => s.acquire hostId clientId
  | .join a clientId => (s.join a clientId).1
  | .commit a sessionId => s.commit a sessionId
  | .fail a message => s.fail a message
  | .release l hasChannels => (s.release l hasChannels).1
  | .close hostId => s.close hostId
  | .shutdownAll => s.shutdownAll

/-- The acquisition is the entry of its host. -/
def InMap (s : Acquisitions) (a : ℕ) : Prop := ∃ q ∈ s.acqs[a]?, s.map.get q.hostId = some a

/-- What `handleSpawn` has checked when it issues the operation. It acquires where there is no
entry, or where the entry refused to be joined; it joins the entry; it commits the entry while it is
CONNECTING and not aborted; it fails and releases what it holds. Sessions are closed and the hub is
shut down at any time. -/
def Guard (s : Acquisitions) : Op → Prop
  | .acquire hostId clientId => ∀ a ∈ s.map.get hostId, (s.join a clientId).2 = none
  | .join a _ => s.InMap a
  | .commit a _ => s.InMap a ∧ ∀ q ∈ s.acqs[a]?, q.state = .connecting ∧ q.aborted = false
  | .fail a _ => a < s.acqs.length
  | .release l _ => l < s.leases.length
  | .close _ | .shutdownAll => True

instance (s : Acquisitions) (a : ℕ) : Decidable (s.InMap a) :=
  inferInstanceAs (Decidable (∃ q ∈ s.acqs[a]?, s.map.get q.hostId = some a))

instance (s : Acquisitions) : (op : Op) → Decidable (s.Guard op)
  | .acquire hostId clientId =>
    inferInstanceAs (Decidable (∀ a ∈ s.map.get hostId, (s.join a clientId).2 = none))
  | .join a _ => inferInstanceAs (Decidable (s.InMap a))
  | .commit a _ =>
    inferInstanceAs (Decidable
      (s.InMap a ∧ ∀ q ∈ s.acqs[a]?, q.state = .connecting ∧ q.aborted = false))
  | .fail a _ => inferInstanceAs (Decidable (a < s.acqs.length))
  | .release l _ => inferInstanceAs (Decidable (l < s.leases.length))
  | .close _ | .shutdownAll => isTrue trivial

/-- One operation issued under its guard. -/
def step (s : Acquisitions) (op : Op) : Option Acquisitions :=
  if s.Guard op then some (s.apply op) else none

/-! ## What the operations keep -/

/-- The invariant of the state machine. -/
structure Coherent (s : Acquisitions) : Prop where
  /-- The map holds pending acquisitions, each under its own host. -/
  pending : ∀ h a, s.map.get h = some a → ∃ q, s.acqs[a]? = some q ∧ q.hostId = h ∧ q.Pending
  /-- An acquisition that is not in the map is settled. -/
  settled : ∀ a q, s.acqs[a]? = some q → s.map.get q.hostId ≠ some a → q.connectPromise ≠ none
  /-- The leases of an acquisition are those issued for it and not released. -/
  leases : ∀ (a : ℕ) q, s.acqs[a]? = some q →
    ∀ l, l ∈ q.leases ↔ ∃ x, s.leases[l]? = some x ∧ x.acq = a ∧ x.released = false
  distinct : ∀ (a : ℕ) q, s.acqs[a]? = some q → q.leases.Nodup
  /-- A lease names an acquisition and its host. -/
  owner : ∀ (l : ℕ) x, s.leases[l]? = some x → ∃ q, s.acqs[x.acq]? = some q ∧ q.hostId = x.hostId

variable {s s' : Acquisitions} {a b l : ℕ} {q : Acquisition} {hostId clientId : String}
  {f : Acquisition → Acquisition}

theorem coherent_empty : empty.Coherent where
  pending h a hmap := absurd hmap (by simp [empty])
  settled a q hq := absurd hq (by simp [empty])
  leases a q hq := absurd hq (by simp [empty])
  distinct a q hq := absurd hq (by simp [empty])
  owner l x hx := absurd hx (by simp [empty])

theorem inMap_iff (hq : s.acqs[a]? = some q) : s.InMap a ↔ s.map.get q.hostId = some a := by
  simp [InMap, hq]

@[simp] theorem acqs_evict : (s.evict hostId a).acqs = s.acqs := by
  rw [evict]
  split <;> rfl

@[simp] theorem leases_evict : (s.evict hostId a).leases = s.leases := by
  rw [evict]
  split <;> rfl

theorem get_evict (h : String) :
    (s.evict hostId a).map.get h =
      if hostId = h ∧ s.map.get hostId = some a then none else s.map.get h := by
  rw [evict]
  by_cases hmap : s.map.get hostId = some a
  · rw [if_pos hmap, OrderedMap.get_delete]
    simp [hmap]
  · rw [if_neg hmap, if_neg fun h ↦ hmap h.2]

theorem acqs_modify (f : Acquisition → Acquisition) (b : ℕ) :
    (s.modify a f).acqs[b]? = s.acqs[b]?.map fun p ↦ if a = b then f p else p := by
  rw [modify, List.getElem?_modify]
  rfl

/-- An acquisition that is settled and taken out of the map, if it was in it. -/
theorem Coherent.leave (h : s.Coherent) (hf : Acquisition.SettledBy f)
    (hq : s.acqs[a]? = some q) : ((s.evict q.hostId a).modify a f).Coherent where
  pending h' b hmap := by
    rw [modify, get_evict] at hmap
    split at hmap
    · cases hmap
    · rename_i hne
      obtain ⟨p, hp, rfl, hpending⟩ := h.pending h' b hmap
      have hab : a ≠ b := by
        rintro rfl
        cases hq.symm.trans hp
        exact hne ⟨rfl, hmap⟩
      refine ⟨p, ?_, rfl, hpending⟩
      simp only [acqs_modify, acqs_evict, hp, Option.map_some, if_neg hab]
  settled b p hp hmap := by
    rw [acqs_modify, acqs_evict, Option.map_eq_some_iff] at hp
    obtain ⟨p, hp, rfl⟩ := hp
    by_cases hab : a = b
    · rw [if_pos hab]
      exact hf.settled p
    · rw [if_neg hab] at hmap ⊢
      refine h.settled b p hp fun hget ↦ hmap ?_
      rw [modify, get_evict, if_neg, hget]
      rintro ⟨hhost, hget'⟩
      rw [hhost, hget] at hget'
      exact hab (Option.some.inj hget').symm
  leases b p hp := by
    rw [acqs_modify, acqs_evict, Option.map_eq_some_iff] at hp
    obtain ⟨p, hp, rfl⟩ := hp
    rw [modify, leases_evict]
    split
    · rw [hf.leases]
      exact h.leases b p hp
    · exact h.leases b p hp
  distinct b p hp := by
    rw [acqs_modify, acqs_evict, Option.map_eq_some_iff] at hp
    obtain ⟨p, hp, rfl⟩ := hp
    split
    · rw [hf.leases]
      exact h.distinct b p hp
    · exact h.distinct b p hp
  owner l x hx := by
    rw [modify, leases_evict] at hx
    obtain ⟨p, hp, hhost⟩ := h.owner l x hx
    refine ⟨if a = x.acq then f p else p, ?_, ?_⟩
    · rw [acqs_modify, acqs_evict, hp, Option.map_some]
    · split
      · rw [hf.hostId, hhost]
      · exact hhost

theorem Coherent.lt_of_map (h : s.Coherent) (hmap : s.map.get hostId = some a) :
    a < s.acqs.length := by
  obtain ⟨q, hq, -⟩ := h.pending _ _ hmap
  exact (List.getElem?_eq_some_iff.mp hq).1

/-- An entry of the map can be joined, so that `acquire` is only reached where there is none. -/
theorem Coherent.get_eq_none (h : s.Coherent) (hguard : s.Guard (.acquire hostId clientId)) :
    s.map.get hostId = none := by
  rw [Option.eq_none_iff_forall_ne_some]
  intro a hmap
  obtain ⟨q, hq, -, hpending⟩ := h.pending _ _ hmap
  have hrefused : (s.join a clientId).2 = none := hguard a hmap
  rw [join, hq] at hrefused
  simp [hpending.connecting] at hrefused

theorem getElem?_acquire_acqs (hb : b < s.acqs.length) :
    (s.acquire hostId clientId).acqs[b]? = s.acqs[b]? :=
  List.getElem?_append_left hb

theorem eq_of_getElem?_acquire (hq : (s.acquire hostId clientId).acqs[b]? = some q) :
    s.acqs[b]? = some q ∨
      b = s.acqs.length ∧ q = ⟨hostId, .connecting, false, none, [s.leases.length]⟩ := by
  rw [acquire, List.getElem?_append] at hq
  split at hq
  · exact .inl hq
  · rw [List.getElem?_singleton] at hq
    split at hq
    · exact .inr ⟨by omega, (Option.some.inj hq).symm⟩
    · cases hq

theorem Coherent.lt_of_mem_leases (h : s.Coherent) (hq : s.acqs[a]? = some q) (hl : l ∈ q.leases) :
    l < s.leases.length := by
  obtain ⟨x, hx, -⟩ := (h.leases a q hq l).mp hl
  exact (List.getElem?_eq_some_iff.mp hx).1

/-- A lease that is issued for an acquisition joins the leases of this one and of no other. -/
theorem getElem?_append_lease {xs : List Lease} {x : Lease} {y : Lease} :
    (xs ++ [x])[l]? = some y ↔ xs[l]? = some y ∨ l = xs.length ∧ y = x := by
  rw [List.getElem?_append]
  split
  · rename_i hl
    constructor
    · exact .inl
    · rintro (h | ⟨rfl, -⟩)
      · exact h
      · exact absurd hl (Nat.lt_irrefl _)
  · rename_i hl
    rw [List.getElem?_singleton, List.getElem?_eq_none (Nat.le_of_not_lt hl)]
    constructor
    · intro h
      split at h
      · exact .inr ⟨by omega, (Option.some.inj h).symm⟩
      · cases h
    · rintro (h | ⟨rfl, rfl⟩)
      · cases h
      · simp

theorem Coherent.acquire (h : s.Coherent) (hmap : s.map.get hostId = none) :
    (s.acquire hostId clientId).Coherent where
  pending h' b hget := by
    rw [Acquisitions.acquire, OrderedMap.get_set] at hget
    split at hget
    · rename_i hhost
      cases hget
      exact ⟨_, List.getElem?_concat_length, hhost, rfl, rfl, rfl⟩
    · obtain ⟨q, hq, hhost, hpending⟩ := h.pending h' b hget
      exact ⟨q, (getElem?_acquire_acqs (h.lt_of_map hget)).trans hq, hhost, hpending⟩
  settled b q hq hget := by
    rcases eq_of_getElem?_acquire hq with hq | ⟨rfl, rfl⟩
    · refine h.settled b q hq fun hget' ↦ hget ?_
      rw [Acquisitions.acquire, OrderedMap.get_set_of_ne, hget']
      rintro rfl
      rw [hmap] at hget'
      cases hget'
    · exact absurd (OrderedMap.get_set_self _ _ _) hget
  leases b q hq l := by
    rcases eq_of_getElem?_acquire hq with hq | ⟨rfl, rfl⟩
    · rw [h.leases b q hq l]
      constructor
      · rintro ⟨x, hx, hacq, hreleased⟩
        exact ⟨x, getElem?_append_lease.mpr (.inl hx), hacq, hreleased⟩
      · rintro ⟨x, hx, rfl, hreleased⟩
        rcases getElem?_append_lease.mp hx with hx | ⟨-, rfl⟩
        · exact ⟨x, hx, rfl, hreleased⟩
        · exact absurd (List.getElem?_eq_some_iff.mp hq).1 (Nat.lt_irrefl _)
    · rw [List.mem_singleton]
      constructor
      · rintro rfl
        exact ⟨_, getElem?_append_lease.mpr (.inr ⟨rfl, rfl⟩), rfl, rfl⟩
      · rintro ⟨x, hx, hacq, -⟩
        rcases getElem?_append_lease.mp hx with hx | ⟨rfl, -⟩
        · obtain ⟨q, hq, -⟩ := h.owner l x hx
          rw [hacq] at hq
          exact absurd (List.getElem?_eq_some_iff.mp hq).1 (Nat.lt_irrefl _)
        · rfl
  distinct b q hq := by
    rcases eq_of_getElem?_acquire hq with hq | ⟨-, rfl⟩
    · exact h.distinct b q hq
    · exact List.nodup_singleton _
  owner l x hx := by
    rcases getElem?_append_lease.mp hx with hx | ⟨-, rfl⟩
    · obtain ⟨q, hq, hhost⟩ := h.owner l x hx
      exact ⟨q, (getElem?_acquire_acqs (List.getElem?_eq_some_iff.mp hq).1).trans hq, hhost⟩
    · exact ⟨_, List.getElem?_concat_length, rfl⟩

/-- What `join` does to an entry of the map: it always succeeds. -/
theorem Coherent.join_eq (h : s.Coherent) (hq : s.acqs[a]? = some q)
    (hmap : s.map.get q.hostId = some a) (clientId : String) :
    s.join a clientId =
      ({ s.modify a fun q ↦ { q with leases := q.leases ++ [s.leases.length] } with
          leases := s.leases ++ [⟨q.hostId, a, clientId, false⟩] }, some s.leases.length) := by
  obtain ⟨p, hp, -, hpending⟩ := h.pending _ _ hmap
  cases hq.symm.trans hp
  rw [Acquisitions.join, hq]
  simp [hpending.connecting, modify]

theorem Coherent.join (h : s.Coherent) (hin : s.InMap a) : (s.join a clientId).1.Coherent := by
  obtain ⟨q, hq, hmap⟩ := hin
  rw [h.join_eq hq hmap clientId]
  refine ⟨fun h' b hget ↦ ?_, fun b p hp hget ↦ ?_, fun b p hp l ↦ ?_, fun b p hp ↦ ?_,
    fun l x hx ↦ ?_⟩
  · obtain ⟨p, hp, hhost, hpending⟩ := h.pending h' b hget
    refine ⟨_, (acqs_modify _ b).trans (by rw [hp, Option.map_some]), ?_, ?_⟩
    · split <;> exact hhost
    · split <;> exact ⟨hpending.1, hpending.2, hpending.3⟩
  · rw [acqs_modify, Option.map_eq_some_iff] at hp
    obtain ⟨p, hp, rfl⟩ := hp
    split at hget <;> split <;> exact h.settled b p hp hget
  · rw [acqs_modify, Option.map_eq_some_iff] at hp
    obtain ⟨p, hp, rfl⟩ := hp
    simp only [getElem?_append_lease, or_and_right, exists_or, ← h.leases b p hp l]
    by_cases hab : a = b
    · simp [hab]
    · simp [hab]
  · rw [acqs_modify, Option.map_eq_some_iff] at hp
    obtain ⟨p, hp, rfl⟩ := hp
    split
    · rw [List.nodup_append]
      refine ⟨h.distinct b p hp, List.nodup_singleton _, ?_⟩
      rintro l hl l' hl' rfl
      rw [List.mem_singleton] at hl'
      exact absurd (hl' ▸ h.lt_of_mem_leases hp hl) (Nat.lt_irrefl _)
    · exact h.distinct b p hp
  · rcases getElem?_append_lease.mp hx with hx | ⟨-, rfl⟩
    · obtain ⟨p, hp, hhost⟩ := h.owner l x hx
      refine ⟨_, (acqs_modify _ _).trans (by rw [hp, Option.map_some]), ?_⟩
      split <;> exact hhost
    · refine ⟨_, (acqs_modify _ _).trans (by rw [hq, Option.map_some]), ?_⟩
      split <;> rfl

theorem acqs_drop (b : ℕ) :
    (s.drop l a).acqs[b]? =
      s.acqs[b]?.map fun q ↦ if a = b then { q with leases := q.leases.erase l } else q := by
  rw [drop, List.getElem?_modify]
  rfl

theorem leases_drop (k : ℕ) :
    (s.drop l a).leases[k]? =
      s.leases[k]?.map fun x ↦ if l = k then { x with released := true } else x := by
  rw [drop, List.getElem?_modify]
  rfl

theorem Coherent.drop (h : s.Coherent) {x : Lease} (hx : s.leases[l]? = some x) :
    (s.drop l x.acq).Coherent where
  pending h' b hget := by
    obtain ⟨p, hp, hhost, hpending⟩ := h.pending h' b hget
    refine ⟨_, (acqs_drop b).trans (by rw [hp, Option.map_some]), ?_, ?_⟩
    · split <;> exact hhost
    · split <;> exact ⟨hpending.1, hpending.2, hpending.3⟩
  settled b p hp hget := by
    rw [acqs_drop, Option.map_eq_some_iff] at hp
    obtain ⟨p, hp, rfl⟩ := hp
    split at hget <;> split <;> exact h.settled b p hp hget
  leases b p hp k := by
    rw [acqs_drop, Option.map_eq_some_iff] at hp
    obtain ⟨p, hp, rfl⟩ := hp
    simp only [leases_drop, Option.map_eq_some_iff]
    by_cases hlk : l = k
    · subst hlk
      have hgone : ¬ ∃ y, (∃ z, s.leases[l]? = some z ∧
        (if l = l then { z with released := true } else z)
          = y) ∧ y.acq = b ∧ y.released = false := by
        rintro ⟨y, ⟨z, -, rfl⟩, -, hreleased⟩
        rw [if_pos rfl] at hreleased
        cases hreleased
      refine iff_of_false ?_ hgone
      split
      · exact (h.distinct b p hp).not_mem_erase
      · rename_i hne
        intro hmem
        obtain ⟨y, hy, hacq, -⟩ := (h.leases b p hp l).mp hmem
        cases hx.symm.trans hy
        exact hne hacq
    · have hkeep : (k ∈ (if x.acq = b then { p with leases := p.leases.erase l } else p).leases)
          ↔ k ∈ p.leases := by
        split
        · exact List.mem_erase_of_ne (Ne.symm hlk)
        · exact Iff.rfl
      rw [hkeep, h.leases b p hp k]
      simp [hlk]
  distinct b p hp := by
    rw [acqs_drop, Option.map_eq_some_iff] at hp
    obtain ⟨p, hp, rfl⟩ := hp
    split
    · exact (h.distinct b p hp).erase l
    · exact h.distinct b p hp
  owner k y hy := by
    rw [leases_drop, Option.map_eq_some_iff] at hy
    obtain ⟨y, hy, rfl⟩ := hy
    obtain ⟨p, hp, hhost⟩ := h.owner k y hy
    have hacq : (if l = k then { y with released := true } else y).acq = y.acq := by split <;> rfl
    have hhost' : (if l = k then { y with released := true } else y).hostId = y.hostId := by
      split <;> rfl
    rw [hacq, hhost']
    refine ⟨_, (acqs_drop y.acq).trans (by rw [hp, Option.map_some]), ?_⟩
    split <;> exact hhost

/-- The two ways a lease that is still held is released: the lease is dropped, and where it was the
last one of the entry of the host and there is no channel, the acquisition is closed. -/
theorem release_eq {x : Lease} (hx : s.leases[l]? = some x) (hheld : x.released = false)
    (hasChannels : Bool) :
    s.release l hasChannels = (s.drop l x.acq, false) ∨
      s.release l hasChannels = (((s.drop l x.acq).evict x.hostId x.acq).modify x.acq
        (.closing "session abandoned: all spawn intents released with no channels"), true) := by
  rw [release, hx]
  simp only [hheld, Bool.false_eq_true, if_false]
  split
  · exact .inr rfl
  · exact .inl rfl

theorem release_of_released {x : Lease} (hx : s.leases[l]? = some x) (hreleased : x.released = true)
    (hasChannels : Bool) : s.release l hasChannels = (s, false) := by
  rw [release, hx]
  simp only [hreleased, if_true]

theorem leases_release (l : ℕ) (hasChannels : Bool) (k : ℕ) :
    (s.release l hasChannels).1.leases[k]? =
      s.leases[k]?.map fun x ↦ if l = k then { x with released := true } else x := by
  rcases hx : s.leases[l]? with _ | x
  · rw [release, hx]
    by_cases hlk : l = k
    · rw [← hlk, hx, Option.map_none]
    · simp [hlk]
  · rcases Bool.eq_false_or_eq_true x.released with hreleased | hheld
    · rw [release_of_released hx hreleased]
      by_cases hlk : l = k
      · rw [← hlk, hx, Option.map_some, if_pos rfl, ← hreleased]
      · simp [hlk]
    · rcases release_eq hx hheld hasChannels with heq | heq
      · rw [heq, leases_drop]
      · rw [heq, modify, leases_evict, leases_drop]

theorem length_leases_release (l : ℕ) (hasChannels : Bool) :
    (s.release l hasChannels).1.leases.length = s.leases.length := by
  have hnone : ∀ k : ℕ, (s.release l hasChannels).1.leases[k]? = none ↔
      s.leases[k]? = none := by
    intro k
    rw [leases_release, Option.map_eq_none_iff]
  simp only [List.getElem?_eq_none_iff] at hnone
  exact Nat.le_antisymm ((hnone _).mpr (Nat.le_refl _)) ((hnone _).mp (Nat.le_refl _))

theorem Coherent.release (h : s.Coherent) (hl : l < s.leases.length) (hasChannels : Bool) :
    (s.release l hasChannels).1.Coherent := by
  have hx : s.leases[l]? = some s.leases[l] := List.getElem?_eq_getElem hl
  rcases Bool.eq_false_or_eq_true s.leases[l].released with hreleased | hheld
  · rw [release_of_released hx hreleased]
    exact h
  · rcases release_eq hx hheld hasChannels with heq | heq
    · rw [heq]
      exact h.drop hx
    · obtain ⟨q, hq, hhost⟩ := (h.drop hx).owner l { s.leases[l] with released := true }
        (by rw [leases_drop, hx, Option.map_some, if_pos rfl])
      rw [heq]
      exact hhost ▸ (h.drop hx).leave (Acquisition.settledBy_closing _) hq

theorem acqs_shutdownAll (b : ℕ) :
    s.shutdownAll.acqs[b]? = s.acqs[b]?.map fun q ↦
      if b ∈ s.map.entries.map Prod.snd then q.closing "hub shutting down" else q := by
  have hfold : ∀ (es : List (String × ℕ)) (acqs : List Acquisition),
      (es.foldl (fun acqs e ↦ acqs.modify e.2 (.closing "hub shutting down")) acqs)[b]? =
        acqs[b]?.map fun q ↦ if b ∈ es.map Prod.snd then q.closing "hub shutting down" else q := by
    intro es
    induction es with
    | nil => simp
    | cons e es ih =>
      intro acqs
      rw [List.foldl_cons, ih, List.getElem?_modify, Option.map_eq_map, Option.map_map]
      congr 1
      funext q
      -- Closing an acquisition twice leaves it as closing it once.
      by_cases he : e.2 = b <;> by_cases hes : b ∈ es.map Prod.snd <;>
        simp [he, hes, Ne.symm, Acquisition.closing, Acquisition.settle]
  exact hfold s.map.entries s.acqs

theorem mem_values : b ∈ s.map.entries.map Prod.snd ↔ ∃ h, s.map.get h = some b := by
  simp [OrderedMap.get_eq_some_iff]

theorem Coherent.inMap_iff_exists (h : s.Coherent) (hq : s.acqs[a]? = some q) :
    (∃ h, s.map.get h = some a) ↔ s.map.get q.hostId = some a := by
  constructor
  · rintro ⟨h', hmap⟩
    obtain ⟨p, hp, rfl, -⟩ := h.pending h' a hmap
    cases hq.symm.trans hp
    exact hmap
  · intro hmap
    exact ⟨_, hmap⟩

theorem Coherent.shutdownAll (h : s.Coherent) : s.shutdownAll.Coherent where
  pending h' b hget := by cases hget
  settled b p hp _ := by
    rw [acqs_shutdownAll, Option.map_eq_some_iff] at hp
    obtain ⟨p, hp, rfl⟩ := hp
    split
    · exact (Acquisition.settledBy_closing _).settled p
    · rename_i hout
      rw [mem_values, h.inMap_iff_exists hp] at hout
      exact h.settled b p hp hout
  leases b p hp := by
    rw [acqs_shutdownAll, Option.map_eq_some_iff] at hp
    obtain ⟨p, hp, rfl⟩ := hp
    split <;> exact h.leases b p hp
  distinct b p hp := by
    rw [acqs_shutdownAll, Option.map_eq_some_iff] at hp
    obtain ⟨p, hp, rfl⟩ := hp
    split <;> exact h.distinct b p hp
  owner k x hx := by
    obtain ⟨p, hp, hhost⟩ := h.owner k x hx
    refine ⟨_, (acqs_shutdownAll x.acq).trans (by rw [hp, Option.map_some]), ?_⟩
    split <;> exact hhost

theorem commit_eq (hq : s.acqs[a]? = some q) (sessionId : String) :
    s.commit a sessionId = (s.evict q.hostId a).modify a fun q ↦
      q.settle (.resolved sessionId) := by
  rw [commit, hq]

theorem fail_eq (hq : s.acqs[a]? = some q) (message : String) :
    s.fail a message =
      (s.evict q.hostId a).modify a fun q ↦ { q with state := .failed }.settle
        (.rejected message) := by
  rw [fail, hq]

theorem leases_commit {sessionId : String} : (s.commit a sessionId).leases = s.leases := by
  rw [commit]
  split
  · rfl
  · exact leases_evict

theorem leases_fail {message : String} : (s.fail a message).leases = s.leases := by
  rw [fail]
  split
  · rfl
  · exact leases_evict

theorem leases_close : (s.close hostId).leases = s.leases := by
  rw [close]
  split
  · rfl
  · exact leases_evict

theorem settledBy_commit (sessionId : String) :
    Acquisition.SettledBy fun q ↦ q.settle (.resolved sessionId) :=
  Acquisition.settledBy_settle (fun _ ↦ rfl) (fun _ ↦ rfl) (fun _ ↦ rfl)

theorem settledBy_fail (message : String) :
    Acquisition.SettledBy fun q ↦ { q with state := .failed }.settle (.rejected message) :=
  Acquisition.settledBy_settle (fun _ ↦ rfl) (fun _ ↦ rfl) (fun _ ↦ rfl)

theorem Coherent.close (h : s.Coherent) : (s.close hostId).Coherent := by
  rcases hmap : s.map.get hostId with _ | a
  · rw [Acquisitions.close, hmap]
    exact h
  · obtain ⟨q, hq, rfl, -⟩ := h.pending _ _ hmap
    rw [Acquisitions.close, hmap]
    exact h.leave (Acquisition.settledBy_closing _) hq

/-- **One operation** issued under its guard keeps the invariant. -/
theorem step_coherent (op : Op) (h : s.Coherent) (hstep : s.step op = some s') : s'.Coherent := by
  rw [step, Option.ite_none_right_eq_some] at hstep
  obtain ⟨hguard, hs'⟩ := hstep
  cases hs'
  cases op with
  | acquire hostId clientId =>
    exact h.acquire (h.get_eq_none hguard)
  | join a clientId =>
    exact h.join hguard
  | commit a sessionId =>
    obtain ⟨q, hq, -⟩ := hguard.1
    rw [apply, commit_eq hq]
    exact h.leave (settledBy_commit sessionId) hq
  | fail a message =>
    rw [apply, fail_eq (List.getElem?_eq_getElem hguard)]
    exact h.leave (settledBy_fail message) (List.getElem?_eq_getElem hguard)
  | release l hasChannels =>
    exact h.release hguard hasChannels
  | close hostId =>
    exact h.close
  | shutdownAll =>
    exact h.shutdownAll

/-! ## Leaving the map -/

/-- How the state can change: acquisitions stay what they are, a settled promise keeps its value,
and the map takes in none that existed before. -/
structure Evolves (s s' : Acquisitions) : Prop where
  kept : ∀ (a : ℕ) q, s.acqs[a]? = some q → ∃ q', s'.acqs[a]? = some q' ∧ q'.hostId = q.hostId ∧
    (q.connectPromise ≠ none → q'.connectPromise = q.connectPromise)
  fresh : ∀ a h, a < s.acqs.length → s'.map.get h = some a → s.map.get h = some a

theorem Evolves.refl (s : Acquisitions) : s.Evolves s where
  kept _ q hq := ⟨q, hq, rfl, fun _ ↦ rfl⟩
  fresh _ _ _ hmap := hmap

theorem evolves_leave (hf : Acquisition.SettledBy f) :
    s.Evolves ((s.evict hostId a).modify a f) where
  kept b q hq := by
    refine ⟨_, (acqs_modify f b).trans (by rw [acqs_evict, hq, Option.map_some]), ?_, ?_⟩
    · split
      · exact hf.hostId q
      · rfl
    · intro hsettled
      split
      · exact hf.final q hsettled
      · rfl
  fresh b h _ hmap := by
    rw [modify, get_evict] at hmap
    split at hmap
    · cases hmap
    · exact hmap

theorem evolves_drop : s.Evolves (s.drop l a) where
  kept b q hq := by
    refine ⟨_, (acqs_drop b).trans (by rw [hq, Option.map_some]), ?_, fun _ ↦ ?_⟩
    all_goals split <;> rfl
  fresh _ _ _ hmap := hmap

theorem Evolves.trans {s'' : Acquisitions} (h : s.Evolves s') (h' : s'.Evolves s'') :
    s.Evolves s'' where
  kept a q hq := by
    obtain ⟨q', hq', hhost, hkeep⟩ := h.kept a q hq
    obtain ⟨q'', hq'', hhost', hkeep'⟩ := h'.kept a q' hq'
    refine ⟨q'', hq'', hhost'.trans hhost, fun hsettled ↦ ?_⟩
    rw [hkeep' (by rwa [hkeep hsettled]), hkeep hsettled]
  fresh a h₀ ha hmap := by
    obtain ⟨q', hq', -⟩ := h.kept a _ (List.getElem?_eq_getElem ha)
    exact h.fresh a h₀ ha (h'.fresh a h₀ (List.getElem?_eq_some_iff.mp hq').1 hmap)

theorem evolves_apply (s : Acquisitions) (op : Op) : s.Evolves (s.apply op) := by
  cases op with
  | acquire hostId clientId =>
    refine ⟨fun b q hq ↦ ⟨q, ?_, rfl, fun _ ↦ rfl⟩, fun b h hb hmap ↦ ?_⟩
    · exact (getElem?_acquire_acqs (List.getElem?_eq_some_iff.mp hq).1).trans hq
    · rw [apply, acquire, OrderedMap.get_set] at hmap
      split at hmap
      · exact absurd (Option.some.inj hmap) (Nat.ne_of_gt hb)
      · exact hmap
  | join a clientId =>
    rw [apply, join]
    split
    · exact .refl s
    · split
      · exact .refl s
      · refine ⟨fun b q hq ↦ ?_, fun _ _ _ hmap ↦ hmap⟩
        refine ⟨_, (acqs_modify _ b).trans (by rw [hq, Option.map_some]), ?_, fun _ ↦ ?_⟩
        all_goals split <;> rfl
  | commit a sessionId =>
    rw [apply, commit]
    split
    · exact .refl s
    · exact evolves_leave (settledBy_commit sessionId)
  | fail a message =>
    rw [apply, fail]
    split
    · exact .refl s
    · exact evolves_leave (settledBy_fail message)
  | release l hasChannels =>
    rw [apply]
    rcases hx : s.leases[l]? with _ | x
    · rw [release, hx]
      exact .refl s
    · rcases Bool.eq_false_or_eq_true x.released with hreleased | hheld
      · rw [release_of_released hx hreleased]
        exact .refl s
      · rcases release_eq hx hheld hasChannels with heq | heq
        · rw [heq]
          exact evolves_drop
        · rw [heq]
          exact evolves_drop.trans (evolves_leave (Acquisition.settledBy_closing _))
  | close hostId =>
    rw [apply, close]
    split
    · exact .refl s
    · exact evolves_leave (Acquisition.settledBy_closing _)
  | shutdownAll =>
    refine ⟨fun b q hq ↦ ?_, fun b h _ hmap ↦ by cases hmap⟩
    refine ⟨_, (acqs_shutdownAll b).trans (by rw [hq, Option.map_some]), ?_, fun hsettled ↦ ?_⟩
    · split <;> rfl
    · split
      · exact (Acquisition.settledBy_closing _).final q hsettled
      · rfl

theorem Evolves.lt (h : s.Evolves s') (ha : a < s.acqs.length) : a < s'.acqs.length := by
  obtain ⟨q', hq', -⟩ := h.kept a _ (List.getElem?_eq_getElem ha)
  exact (List.getElem?_eq_some_iff.mp hq').1

/-- The promises that an operation settles are those of the acquisitions that it takes out of
the map. -/
def SettlesOnLeaving (s s' : Acquisitions) : Prop :=
  ∀ (a : ℕ) q, s.acqs[a]? = some q → ∃ q', s'.acqs[a]? = some q' ∧
    (q.connectPromise = none ∧ q'.connectPromise ≠ none ↔ s.InMap a ∧ ¬ s'.InMap a) ∧
    (q.connectPromise ≠ none → q'.connectPromise = q.connectPromise)

theorem Coherent.unsettled_iff (h : s.Coherent) (hq : s.acqs[a]? = some q) :
    q.connectPromise = none ↔ s.InMap a := by
  rw [inMap_iff hq]
  constructor
  · intro hnone
    by_contra hout
    exact h.settled a q hq hout hnone
  · intro hmap
    obtain ⟨p, hp, -, hpending⟩ := h.pending _ _ hmap
    cases hq.symm.trans hp
    exact hpending.unsettled

theorem settlesOnLeaving (h : s.Coherent) (h' : s'.Coherent) (hevolves : s.Evolves s') :
    s.SettlesOnLeaving s' := by
  intro a q hq
  obtain ⟨q', hq', -, hkeep⟩ := hevolves.kept a q hq
  refine ⟨q', hq', ?_, hkeep⟩
  rw [h.unsettled_iff hq, ne_eq, h'.unsettled_iff hq']

/-! ## Acquisitions that were replaced -/

/-- The acquisition an operation is about: the argument, or the one that the lease belongs to. -/
def target (s : Acquisitions) : Op → Option ℕ
  | .join a _ | .commit a _ | .fail a _ => some a
  | .release l _ => s.leases[l]?.map Lease.acq
  | .acquire _ _ | .close _ | .shutdownAll => none

/-- Every other acquisition in the map stays in it and stays as it is. -/
def SparesOthers (s : Acquisitions) (a : ℕ) (s' : Acquisitions) : Prop :=
  ∀ b, b ≠ a → s.InMap b → s'.InMap b ∧ s'.acqs[b]? = s.acqs[b]?

theorem sparesOthers_of_eq (hacqs : ∀ b, b ≠ a → s'.acqs[b]? = s.acqs[b]?)
    (hmap : ∀ b h, b ≠ a → s.map.get h = some b → s'.map.get h = some b) : s.SparesOthers a s' := by
  rintro b hb ⟨q, hq, hget⟩
  exact ⟨⟨q, (hacqs b hb).trans hq, hmap b _ hb hget⟩, hacqs b hb⟩

theorem sparesOthers_leave :
    s.SparesOthers a ((s.evict hostId a).modify a f) := by
  apply sparesOthers_of_eq
  · intro b hb
    rw [acqs_modify, acqs_evict]
    simp [hb.symm]
  · intro b h hb hget
    rw [modify, get_evict, if_neg, hget]
    rintro ⟨rfl, hget'⟩
    exact hb (Option.some.inj (hget.symm.trans hget'))

theorem sparesOthers_drop : s.SparesOthers a (s.drop l a) := by
  apply sparesOthers_of_eq
  · intro b hb
    rw [acqs_drop]
    simp [hb.symm]
  · intro b h _ hget
    exact hget

theorem SparesOthers.trans {s'' : Acquisitions} (h : s.SparesOthers a s')
    (h' : s'.SparesOthers a s'') :
    s.SparesOthers a s'' := by
  intro b hb hin
  obtain ⟨hin', heq⟩ := h b hb hin
  obtain ⟨hin'', heq'⟩ := h' b hb hin'
  exact ⟨hin'', heq'.trans heq⟩

/-- An operation about one acquisition spares the others, whether or not its guard holds. -/
theorem sparesOthers_apply {op : Op} (htarget : s.target op = some a) :
    s.SparesOthers a (s.apply op) := by
  have hrefl : s.SparesOthers a s := fun b _ hin ↦ ⟨hin, rfl⟩
  cases op with
  | acquire hostId clientId =>
    cases htarget
  | join a' clientId =>
    cases htarget
    rw [apply, join]
    split
    · exact hrefl
    · split
      · exact hrefl
      · apply sparesOthers_of_eq
        · intro b hb
          exact List.getElem?_modify_ne _ _ (Ne.symm hb)
        · intro b h _ hget
          exact hget
  | commit a' sessionId =>
    cases htarget
    rw [apply, commit]
    split
    · exact hrefl
    · exact sparesOthers_leave
  | fail a' message =>
    cases htarget
    rw [apply, fail]
    split
    · exact hrefl
    · exact sparesOthers_leave
  | release l hasChannels =>
    obtain ⟨x, hx, rfl⟩ := Option.map_eq_some_iff.mp htarget
    rw [apply]
    rcases Bool.eq_false_or_eq_true x.released with hreleased | hheld
    · rw [release_of_released hx hreleased]
      exact hrefl
    · rcases release_eq hx hheld hasChannels with heq | heq
      · rw [heq]
        exact sparesOthers_drop
      · rw [heq]
        exact sparesOthers_drop.trans sparesOthers_leave
  | close hostId =>
    cases htarget
  | shutdownAll =>
    cases htarget

/-- **The state machine of acquisitions**. After every sequence of operations issued under their
guards, the map holds only pending acquisitions, the leases of an acquisition are those issued for
it and not released, and an acquisition is settled exactly when it is not in the map. The next
operation settles the promises of the acquisitions that it takes out of the map and changes no other
promise; if it is about an acquisition, it leaves every other one in the map, and so a newer one of
the same host, as it is. -/
theorem acquisitions_coherent {ops : List Op} (hrun : run step empty ops = some s) :
    (∀ h a, s.map.get h = some a → ∃ q, s.acqs[a]? = some q ∧ q.hostId = h ∧ q.Pending) ∧
    (∀ (a : ℕ) q, s.acqs[a]? = some q → q.leases.Nodup ∧
      ∀ l, l ∈ q.leases ↔ ∃ x, s.leases[l]? = some x ∧ x.acq = a ∧ x.released = false) ∧
    (∀ (a : ℕ) q, s.acqs[a]? = some q → (q.connectPromise ≠ none ↔ ¬ s.InMap a)) ∧
    ∀ op s', s.step op = some s' → s.SettlesOnLeaving s' ∧
      ∀ a, s.target op = some a → s.SparesOthers a s' := by
  have h : s.Coherent :=
    run_invariant Coherent (fun _ op _ h hstep ↦ step_coherent op h hstep) coherent_empty hrun
  refine ⟨h.pending, fun a q hq ↦ ⟨h.distinct a q hq, h.leases a q hq⟩, fun a q hq ↦ ?_,
    fun op s' hstep ↦ ?_⟩
  · rw [ne_eq, h.unsettled_iff hq]
  · have h' : s'.Coherent := step_coherent op h hstep
    rw [step, Option.ite_none_right_eq_some] at hstep
    obtain rfl := Option.some.inj hstep.2
    exact ⟨settlesOnLeaving h h' (evolves_apply s op), fun a htarget ↦ sparesOthers_apply htarget⟩

/-- A session is closed while the first client connects, and a second client leads a new connect. -/
def replacement : List Op := [.acquire "web" "first", .close "web", .acquire "web" "second"]

/-- When the first connect fails after that, the second acquisition is spared. -/
theorem acquisitions_coherent_replacement :
    ∃ s s', run step empty replacement = some s ∧
      s.step (.fail 0 "SSH connection failed") = some s' ∧
      s.InMap 1 ∧ s.SparesOthers 0 s' := by
  refine ⟨_, _, rfl, rfl, by decide, ?_⟩
  have hrun : run step empty replacement = some _ := rfl
  exact ((acquisitions_coherent hrun).2.2.2 (.fail 0 "SSH connection failed") _ rfl).2 0 rfl

end Acquisitions

end Lasterm.Hub
