import Mathlib.Data.List.Nodup

/-!
# Optimistic updates with snapshots

A value is updated at once, and some of the updates are requests that may still fail. A request
keeps what it is about to change, and where it fails, that is put back.

What is to come of it is the value that the updates which have not failed lead to (`replay`). A
failure leads there if what the request kept is still what is to be put back (`Clear`): no later
update that is left changes it, and no rollback of an earlier request has changed it since. So the
requests that failed together with all that came of them do no harm to those before them.

Of a request it is only asked that it changes nothing but the place that it keeps, and that what is
elsewhere does not depend on that place.
-/

namespace Optimistic

/-- Updates of values. `capture` is what a request for one keeps, if it makes sense at all. -/
structure Rollbacks (σ υ κ : Type) where
  apply : υ → σ → σ
  capture : υ → σ → Option κ
  undo : κ → σ → σ
  /-- What was kept stands in the value. -/
  Fresh : κ → σ → Prop
  /-- The values agree but for the place that is kept. -/
  Off : κ → σ → σ → Prop
  fresh_capture : ∀ {u x k}, capture u x = some k → Fresh k x
  off_apply : ∀ {u x k}, capture u x = some k → ∀ y, Off k (apply u y) y
  off_congr : ∀ {k x y} (u), Off k x y → Off k (apply u x) (apply u y)
  undo_eq : ∀ {k x y}, Off k x y → Fresh k y → undo k x = y

variable {σ υ κ : Type} (R : Rollbacks σ υ κ)

/-- What was kept stays as it is. -/
def Keeps (k : κ) (f : σ → σ) : Prop := ∀ x, R.Fresh k x → R.Fresh k (f x)

/-- An update, with the number of the request if it is one. -/
structure Entry (υ : Type) where
  request : Option ℕ
  update : υ

/-- A request that is pending. `undone` has what was put back for earlier ones since. -/
structure Request (κ : Type) where
  id : ℕ
  captured : κ
  undone : List κ

def replay (base : σ) (log : List (Entry υ)) : σ := log.foldl (fun x e ↦ R.apply e.update x) base

theorem replay_append (base : σ) (log log' : List (Entry υ)) :
    replay R base (log ++ log') = replay R (replay R base log) log' := List.foldl_append

theorem replay_cons (base : σ) (e : Entry υ) (log : List (Entry υ)) :
    replay R base (e :: log) = replay R (R.apply e.update base) log := rfl

variable {R}

theorem off_replay {k : κ} {x y : σ} (h : R.Off k x y) (log : List (Entry υ)) :
    R.Off k (replay R x log) (replay R y log) := by
  induction log generalizing x y with
  | nil => exact h
  | cons e log ih => exact ih (R.off_congr e.update h)

theorem fresh_replay {k : κ} {x : σ} (h : R.Fresh k x) {log : List (Entry υ)}
    (hlog : ∀ e ∈ log, Keeps R k (R.apply e.update)) : R.Fresh k (replay R x log) := by
  induction log generalizing x with
  | nil => exact h
  | cons e log ih =>
    obtain ⟨he, hlog⟩ := List.forall_mem_cons.mp hlog
    exact ih (he x h) hlog

/-- **A rollback**: it leads to what comes of the others alone. -/
theorem undo_replay {k : κ} {u : υ} {x : σ} (hx : R.Fresh k x) (hu : ∀ y, R.Off k (R.apply u y) y)
    {log : List (Entry υ)} (hlog : ∀ e ∈ log, Keeps R k (R.apply e.update)) :
    R.undo k (replay R (R.apply u x) log) = replay R x log :=
  R.undo_eq (off_replay (hu x) log) (fresh_replay hx hlog)

/-! ## The log -/

/-- The entries behind that of a request. -/
def behind (id : ℕ) (log : List (Entry υ)) : List (Entry υ) :=
  (log.dropWhile fun e ↦ e.request ≠ some id).tail

section

variable {before after : List (Entry υ)} {id : ℕ} {u : υ}

/-- The numbers of requests grow along the log. -/
def Increasing (log : List (Entry υ)) : Prop := (log.filterMap Entry.request).Pairwise (· < ·)

section

variable (h : Increasing (before ++ ⟨some id, u⟩ :: after))
include h

theorem Increasing.around :
    (∀ e ∈ before, ∀ n ∈ e.request, n < id) ∧ ∀ e ∈ after, ∀ n ∈ e.request, id < n := by
  have hcons : ((⟨some id, u⟩ : Entry υ) :: after).filterMap Entry.request =
      id :: after.filterMap Entry.request := rfl
  rw [Increasing, List.filterMap_append, hcons] at h
  obtain ⟨-, hafter, hbefore⟩ := List.pairwise_append.mp h
  constructor
  · intro e he n hn
    exact hbefore n (List.mem_filterMap.mpr ⟨e, he, hn⟩) id List.mem_cons_self
  · intro e he n hn
    exact (List.pairwise_cons.mp hafter).1 n (List.mem_filterMap.mpr ⟨e, he, hn⟩)

theorem Increasing.ne_of_mem :
    (∀ e ∈ before, e.request ≠ some id) ∧ ∀ e ∈ after, e.request ≠ some id :=
  ⟨fun e he hid ↦ Nat.lt_irrefl id (h.around.1 e he id hid),
    fun e he hid ↦ Nat.lt_irrefl id (h.around.2 e he id hid)⟩

theorem behind_eq :
    behind id (before ++ ⟨some id, u⟩ :: after) = after := by
  have hbefore : ∀ e ∈ before, decide (e.request ≠ some id) = true :=
    fun e he ↦ decide_eq_true (h.ne_of_mem.1 e he)
  have hself : ((⟨some id, u⟩ : Entry υ) :: after).dropWhile (fun e ↦ e.request ≠ some id) =
      ⟨some id, u⟩ :: after := List.dropWhile_cons_of_neg (by simp)
  rw [behind, List.dropWhile_append_of_pos hbefore, hself, List.tail_cons]

/-- The log without a request. -/
theorem filter_log :
    (before ++ ⟨some id, u⟩ :: after).filter (fun e ↦ e.request ≠ some id) = before ++ after := by
  have hbefore : before.filter (fun e ↦ e.request ≠ some id) = before :=
    List.filter_eq_self.mpr fun e he ↦ decide_eq_true (h.ne_of_mem.1 e he)
  have hafter : after.filter (fun e ↦ e.request ≠ some id) = after :=
    List.filter_eq_self.mpr fun e he ↦ decide_eq_true (h.ne_of_mem.2 e he)
  have hself : ((⟨some id, u⟩ : Entry υ) :: after).filter (fun e ↦ e.request ≠ some id) =
      after.filter fun e ↦ e.request ≠ some id := List.filter_cons_of_neg (by simp)
  rw [List.filter_append, hself, hbefore, hafter]

end

end

/-! ## Histories -/

/-- A value, with the updates that have not failed and the requests that are pending. -/
structure History (σ υ κ : Type) where
  value : σ
  log : List (Entry υ)
  requests : List (Request κ)
  next : ℕ

namespace History

def start (value : σ) : History σ υ κ := ⟨value, [], [], 0⟩

variable (R) (h : History σ υ κ)

/-- An update for good. -/
def update (u : υ) : History σ υ κ :=
  { h with value := R.apply u h.value, log := h.log ++ [⟨none, u⟩] }

def call (u : υ) : History σ υ κ :=
  match R.capture u h.value with
  | none => h
  | some k =>
    { value := R.apply u h.value
      log := h.log ++ [⟨some h.next, u⟩]
      requests := h.requests ++ [⟨h.next, k, []⟩]
      next := h.next + 1 }

def succeed (id : ℕ) : History σ υ κ :=
  { h with requests := h.requests.filter fun r ↦ r.id ≠ id }

/-- What the other requests are to know of the rollback of one: it concerns those after it. -/
def noted (r q : Request κ) : Request κ :=
  if r.id < q.id then { q with undone := q.undone ++ [r.captured] } else q

def fail (r : Request κ) : History σ υ κ :=
  { h with
    value := R.undo r.captured h.value
    log := h.log.filter fun e ↦ e.request ≠ some r.id
    requests := (h.requests.filter fun q ↦ q.id ≠ r.id).map (noted r) }

end History

variable (R) in
/-- Nothing that came since a request changes what it kept. -/
structure Clear (log : List (Entry υ)) (r : Request κ) : Prop where
  behind : ∀ e ∈ behind r.id log, Keeps R r.captured (R.apply e.update)
  undone : ∀ k ∈ r.undone, Keeps R r.captured (R.undo k)

variable (R) in
/-- What a request kept is what the updates before it lead to, unless a rollback has changed it. -/
def Standing (base : σ) (log : List (Entry υ)) (r : Request κ) : Prop :=
  ∃ before u after, log = before ++ ⟨some r.id, u⟩ :: after ∧
    (∀ y, R.Off r.captured (R.apply u y) y) ∧
    ((∀ k ∈ r.undone, Keeps R r.captured (R.undo k)) →
      R.Fresh r.captured (replay R base before))

variable (R) in
/-- The value is what the updates that have not failed lead to. -/
structure Sound (base : σ) (h : History σ υ κ) : Prop where
  value : h.value = replay R base h.log
  requests : ∀ r ∈ h.requests, Standing R base h.log r
  lt_next : ∀ e ∈ h.log, ∀ id ∈ e.request, id < h.next
  increasing : Increasing h.log

variable {base : σ} {h : History σ υ κ}

theorem sound_start (base : σ) : Sound R base (History.start base : History σ υ κ) :=
  ⟨rfl, nofun, nofun, List.Pairwise.nil⟩

theorem Standing.append {log : List (Entry υ)} {r : Request κ} (hr : Standing R base log r)
    (e : Entry υ) : Standing R base (log ++ [e]) r := by
  obtain ⟨before, u, after, rfl, hoff, hfresh⟩ := hr
  exact ⟨before, u, after ++ [e], List.append_assoc .., hoff, hfresh⟩

section

variable (hs : Sound R base h)
include hs

theorem Sound.update (u : υ) : Sound R base (h.update R u) where
  value := by
    rw [History.update, replay_append, ← hs.value]
    rfl
  requests r hr := (hs.requests r hr).append ⟨none, u⟩
  lt_next := List.forall_mem_append.mpr ⟨hs.lt_next, List.forall_mem_singleton.mpr nofun⟩
  increasing := by
    rw [History.update, Increasing, List.filterMap_append]
    exact (List.append_nil _).symm ▸ hs.increasing

theorem Sound.call (u : υ) : Sound R base (h.call R u) := by
  cases hk : R.capture u h.value with
  | none =>
    rw [History.call, hk]
    exact hs
  | some k =>
    rw [History.call, hk]
    refine ⟨?_, ?_, ?_, ?_⟩
    · rw [replay_append, ← hs.value]
      rfl
    · intro r hr
      rcases List.mem_append.mp hr with hr | hr
      · exact (hs.requests r hr).append _
      · rw [List.mem_singleton.mp hr]
        exact ⟨h.log, u, [], rfl, R.off_apply hk, fun _ ↦ hs.value ▸ R.fresh_capture hk⟩
    · refine List.forall_mem_append.mpr ⟨fun e he id hid ↦ ?_, List.forall_mem_singleton.mpr ?_⟩
      · exact Nat.lt_succ_of_lt (hs.lt_next e he id hid)
      · intro id hid
        exact Option.some.inj hid ▸ Nat.lt_succ_self h.next
    · have hlast : ∀ id ∈ h.log.filterMap Entry.request, id < h.next := by
        intro id hid
        obtain ⟨e, he, hid⟩ := List.mem_filterMap.mp hid
        exact hs.lt_next e he id hid
      rw [Increasing, List.filterMap_append]
      refine List.pairwise_append.mpr ⟨hs.increasing, List.pairwise_singleton _ h.next, ?_⟩
      intro id hid n hn
      exact List.mem_singleton.mp hn ▸ hlast id hid

theorem Sound.succeed (id : ℕ) : Sound R base (h.succeed id) where
  value := hs.value
  requests r hr := hs.requests r (List.mem_filter.mp hr).1
  lt_next := hs.lt_next
  increasing := hs.increasing

/-- **A failure** of a request, if nothing since has changed what it kept. -/
theorem Sound.fail {r : Request κ} (hr : r ∈ h.requests)
    (hclear : Clear R h.log r) : Sound R base (h.fail R r) := by
  obtain ⟨before, u, after, hlog, hoff, hfresh⟩ := hs.requests r hr
  have hincreasing := hs.increasing
  have hafter := hclear.behind
  have hfresh := hfresh hclear.undone
  rw [hlog] at hincreasing
  rw [hlog, behind_eq hincreasing] at hafter
  have hfilter : (h.fail R r).log = before ++ after := by
    rw [History.fail, hlog]
    exact filter_log hincreasing
  refine ⟨?_, ?_, fun e he ↦ hs.lt_next e (List.mem_filter.mp he).1,
    hs.increasing.sublist (List.filter_sublist.filterMap _)⟩
  · rw [hfilter, History.fail, hs.value, hlog, replay_append, replay_cons, replay_append]
    exact undo_replay hfresh hoff hafter
  · intro q' hq'
    obtain ⟨q, hq, rfl⟩ := List.mem_map.mp hq'
    obtain ⟨hq, hne⟩ := List.mem_filter.mp hq
    have hne : q.id ≠ r.id := of_decide_eq_true hne
    obtain ⟨beforeq, v, afterq, hlogq, hoffq, hfreshq⟩ := hs.requests q hq
    have hincreasingq := hs.increasing
    rw [hlogq] at hincreasingq
    rw [hfilter]
    -- Which of the two came first?
    rcases List.append_eq_append_iff.mp (hlog.symm.trans hlogq) with
      ⟨mid, hbefore, hmid⟩ | ⟨mid, hbefore, hmid⟩
    · cases mid with
      | nil => exact absurd (Option.some.inj (Entry.mk.inj (List.cons.inj hmid).1).1).symm hne
      | cons e mid =>
        obtain ⟨rfl, rfl⟩ := List.cons.inj hmid
        have hlt : r.id < q.id :=
          hincreasingq.around.1 ⟨some r.id, u⟩ (hbefore ▸ List.mem_append_cons_self) r.id rfl
        rw [History.noted, if_pos hlt]
        refine ⟨before ++ mid, v, afterq, (List.append_assoc ..).symm, hoffq, fun hkeeps ↦ ?_⟩
        obtain ⟨hkeeps, hundo⟩ := List.forall_mem_append.mp hkeeps
        obtain ⟨hmids, -⟩ := List.forall_mem_append.mp hafter
        have hfreshq := hfreshq hkeeps
        rw [hbefore, replay_append, replay_cons] at hfreshq
        rw [replay_append, ← undo_replay hfresh hoff hmids]
        exact List.forall_mem_singleton.mp hundo _ hfreshq
    · cases mid with
      | nil => exact absurd (Option.some.inj (Entry.mk.inj (List.cons.inj hmid).1).1) hne
      | cons e mid =>
        obtain ⟨rfl, rfl⟩ := List.cons.inj hmid
        have hlt : q.id < r.id :=
          hincreasing.around.1 ⟨some q.id, v⟩ (hbefore ▸ List.mem_append_cons_self) q.id rfl
        rw [History.noted, if_neg (Nat.lt_asymm hlt)]
        refine ⟨beforeq, v, mid ++ after, ?_, hoffq, hfreshq⟩
        rw [hbefore, List.append_assoc, List.cons_append]

end

end Optimistic
