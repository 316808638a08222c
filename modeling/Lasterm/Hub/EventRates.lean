import Lasterm.Library.OrderedMap
import Lasterm.Library.SlidingWindow
import Mathlib.Algebra.Order.Ring.Int
import Mathlib.Data.List.Induction

/-!
# The rate limit of bells and notifications

`rateLimitCheck` of `state-broadcaster.ts`. The hub passes on at most ten bells and five
notifications of a channel in a second. There is one store for each kind of event, which has for
every channel the times at which its events were let through.

For one channel the store is the limiter of `SlidingWindow`, and calls for other channels leave its
times alone (`covers_rateLimitChecks`). The clock is read once in each call; its times are whole
milliseconds.
-/

namespace Lasterm.Hub.EventRates

open SlidingWindow

/-- The times of the events that were let through, by channel. -/
abbrev Store := OrderedMap String (List ℤ)

def rateLimitCheck (store : Store) (channelId : String) (maxPerSecond : ℕ) (now : ℤ) :
    Store × Bool :=
  let cutoff := now - 1000
  let timestamps := ((store.get channelId).getD []).dropWhile (· < cutoff)
  if maxPerSecond ≤ timestamps.length then (store.set channelId timestamps, false)
  else (store.set channelId (timestamps ++ [now]), true)

/-- A call, with what the clock says. -/
structure Call where
  channelId : String
  now : ℤ

/-- What a call answered. -/
structure Verdict where
  channelId : String
  now : ℤ
  allowed : Bool

def rateLimitChecks (maxPerSecond : ℕ) (calls : List Call) : Store × List Verdict :=
  calls.foldl (fun (store, verdicts) call ↦
    let r := rateLimitCheck store call.channelId maxPerSecond call.now
    (r.1, verdicts ++ [⟨call.channelId, call.now, r.2⟩])) (OrderedMap.empty, [])

/-- The times of the events of a channel that were let through. -/
def allowedTimes (channelId : String) (verdicts : List Verdict) : List ℤ :=
  (verdicts.filter fun v ↦ v.channelId = channelId ∧ v.allowed).map Verdict.now

/-! ## One call -/

section Step

variable {store : Store} {m : ℕ} {c c' : String} {now : ℤ}

/-- The call is the check of the limiter on the times of the channel. -/
theorem rateLimitCheck_eq (store : Store) (c : String) (m : ℕ) (now : ℤ) :
    rateLimitCheck store c m now =
      (store.set c (check 1000 m ((store.get c).getD []) now).1,
        (check 1000 m ((store.get c).getD []) now).2) := by
  rw [rateLimitCheck, check, evict]
  split <;> rfl

theorem allowedTimes_concat (c : String) (verdicts : List Verdict) (v : Verdict) :
    allowedTimes c (verdicts ++ [v]) =
      allowedTimes c verdicts ++ if v.channelId = c ∧ v.allowed then [v.now] else [] := by
  rw [allowedTimes, List.filter_append, List.map_append]
  by_cases hv : v.channelId = c ∧ v.allowed
  · rw [if_pos hv, List.filter_cons_of_pos (by simpa using hv)]
    rfl
  · rw [if_neg hv, List.filter_cons_of_neg (by simpa using hv)]
    rfl

/-- The store has what later calls need to know of the verdicts. -/
def Covers (m : ℕ) (now : ℤ) (store : Store) (verdicts : List Verdict) : Prop :=
  ∀ c, Tracks 1000 m now (allowedTimes c verdicts) ((store.get c).getD [])

theorem Covers.rateLimitCheck {verdicts : List Verdict} (h : Covers m now store verdicts)
    (c : String) :
    Covers m now (rateLimitCheck store c m now).1
      (verdicts ++ [⟨c, now, (EventRates.rateLimitCheck store c m now).2⟩]) := by
  intro c'
  rw [rateLimitCheck_eq, allowedTimes_concat]
  dsimp only
  by_cases hc : c = c'
  · subst hc
    rw [OrderedMap.get_set_self, Option.getD_some]
    have hstep := (h c).check
    simpa only [true_and] using hstep
  · rw [OrderedMap.get_set_of_ne _ _ hc, if_neg fun hboth ↦ hc hboth.1, List.append_nil]
    exact h c'

end Step

/-! ## A run -/

variable {m : ℕ} {calls : List Call}

theorem rateLimitChecks_concat (m : ℕ) (calls : List Call) (call : Call) :
    rateLimitChecks m (calls ++ [call]) =
      ((rateLimitCheck (rateLimitChecks m calls).1 call.channelId m call.now).1,
        (rateLimitChecks m calls).2 ++ [⟨call.channelId, call.now,
          (rateLimitCheck (rateLimitChecks m calls).1 call.channelId m call.now).2⟩]) := by
  rw [rateLimitChecks, List.foldl_append]
  rfl

theorem covers_rateLimitChecks (hsorted : calls.Pairwise fun a b ↦ a.now ≤ b.now) {now : ℤ}
    (hnow : ∀ call ∈ calls, call.now ≤ now) :
    Covers m now (rateLimitChecks m calls).1 (rateLimitChecks m calls).2 := by
  induction calls using List.reverseRecOn generalizing now with
  | nil => exact fun c ↦ tracks_nil 1000 m now
  | append_singleton calls call ih =>
    obtain ⟨hbefore, -, hlast⟩ := List.pairwise_append.mp hsorted
    have hcovers := ih hbefore fun call' hmem ↦ hlast call' hmem call (List.mem_singleton_self _)
    rw [rateLimitChecks_concat]
    exact fun c ↦ (hcovers.rateLimitCheck call.channelId c).mono (hnow call (by simp))

/-- A verdict is what a call with the verdicts before it as the past gives. -/
theorem verdict_eq {before after : List Verdict} {v : Verdict}
    (h : (rateLimitChecks m calls).2 = before ++ v :: after) :
    ∃ calls₁ call calls₂, calls = calls₁ ++ call :: calls₂ ∧ (rateLimitChecks m calls₁).2 = before ∧
      v = ⟨call.channelId, call.now,
        (rateLimitCheck (rateLimitChecks m calls₁).1 call.channelId m call.now).2⟩ := by
  induction calls using List.reverseRecOn generalizing after with
  | nil => exact absurd (congrArg List.length h) (by simp [rateLimitChecks])
  | append_singleton calls call ih =>
    rw [rateLimitChecks_concat] at h
    dsimp only at h
    rcases List.eq_nil_or_concat after with rfl | ⟨after, v', rfl⟩
    · obtain ⟨hbefore, hv⟩ := List.append_inj' h rfl
      exact ⟨calls, call, [], rfl, hbefore, (List.singleton_inj.mp hv).symm⟩
    · rw [List.concat_eq_append, ← List.cons_append, ← List.append_assoc] at h
      obtain ⟨calls₁, call', calls₂, rfl, hbefore, hv⟩ := ih (List.append_inj' h rfl).1
      exact ⟨calls₁, call', calls₂ ++ [call], by simp, hbefore, hv⟩

/-- **The limit**: at times that do not go back, no second has more than the allowed events of a
channel, and an event is denied exactly when the second that ends with it has them already. -/
theorem rateLimited (maxPerSecond : ℕ) (calls : List Call)
    (hsorted : calls.Pairwise fun a b ↦ a.now ≤ b.now) :
    (∀ c t, ((allowedTimes c (rateLimitChecks maxPerSecond calls).2).filter fun u ↦
        t ≤ u ∧ u ≤ t + 1000).length ≤ maxPerSecond) ∧
      ∀ before v after, (rateLimitChecks maxPerSecond calls).2 = before ++ v :: after →
        (v.allowed = false ↔ ((allowedTimes v.channelId before).filter fun u ↦
          v.now - 1000 ≤ u ∧ u ≤ v.now).length = maxPerSecond) := by
  constructor
  · intro c t
    obtain ⟨now, hnow⟩ : ∃ now : ℤ, ∀ call ∈ calls, call.now ≤ now := by
      induction calls using List.reverseRecOn with
      | nil => exact ⟨0, fun _ hmem ↦ absurd hmem List.not_mem_nil⟩
      | append_singleton calls call =>
        refine ⟨call.now, fun call' hmem ↦ ?_⟩
        rcases List.mem_append.mp hmem with hmem | hmem
        · exact (List.pairwise_append.mp hsorted).2.2 call' hmem call (List.mem_singleton_self _)
        · rw [List.mem_singleton.mp hmem]
    rw [← List.countP_eq_length_filter]
    exact (covers_rateLimitChecks hsorted hnow c).limited t
  · intro before v after h
    obtain ⟨calls₁, call, calls₂, rfl, rfl, rfl⟩ := verdict_eq h
    obtain ⟨hbefore, -, hlast⟩ := List.pairwise_append.mp hsorted
    have hcovers := covers_rateLimitChecks (m := maxPerSecond) hbefore fun call' hmem ↦
      hlast call' hmem call List.mem_cons_self
    have hdenied := (hcovers call.channelId).denied_iff
    rw [rateLimitCheck_eq, hdenied, inWindow, List.countP_eq_length_filter, Int.sub_add_cancel]

theorem rateLimited_bells :
    ([⟨"c", 0⟩, ⟨"d", 5⟩, ⟨"c", 1000⟩, ⟨"c", 1001⟩] : List Call).Pairwise
        (fun a b ↦ a.now ≤ b.now) ∧
      ∀ t, ((allowedTimes "c" (rateLimitChecks 1
        [⟨"c", 0⟩, ⟨"d", 5⟩, ⟨"c", 1000⟩, ⟨"c", 1001⟩]).2).filter fun u ↦
          t ≤ u ∧ u ≤ t + 1000).length ≤ 1 :=
  ⟨by decide, (rateLimited 1 [⟨"c", 0⟩, ⟨"d", 5⟩, ⟨"c", 1000⟩, ⟨"c", 1001⟩] (by decide)).1 "c"⟩

end Lasterm.Hub.EventRates
