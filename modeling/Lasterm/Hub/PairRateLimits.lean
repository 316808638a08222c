import Lasterm.Library.OrderedMap
import Lasterm.Library.RateWindow
import Mathlib.Algebra.Order.Ring.Nat

/-!
# The rate limit of pairing

`pair-rate-limits-dal.ts`, and the use that `POST /api/pair/verify` makes of it. A row has the
attempts of an address since its window started, and the window becomes longer with them, up to
eight times. Rows whose window started longer ago may be cleaned away.

For one address the table is the limiter of `RateWindow` (`filter_verdicts`), and the cleaning
changes no verdict because of the limit of eight (`verdicts_eq_of_covers`).

Times are in milliseconds: as ISO texts, they compare as numbers do.
-/

namespace Lasterm.Hub.PairRateLimits

open RateWindow

structure RateLimitRow where
  attempts : ℕ
  windowStart : ℕ

/-- The rows of `pair_rate_limits`, by `ip`. -/
abbrev Table := OrderedMap String RateLimitRow

/-- `backoffThreshold` is 5 unless the caller says otherwise. -/
def multiplier (maxAttempts backoffThreshold : ℕ) (row : RateLimitRow) : ℕ :=
  if backoffThreshold ≤ row.attempts then
    min 8 (2 ^ ((row.attempts - backoffThreshold) / maxAttempts + 1))
  else 1

def checkAndIncrement (maxAttempts windowMs backoffThreshold : ℕ) (db : Table) (ip : String)
    (now : ℕ) : Table × Bool :=
  match db.get ip with
  | none => (db.set ip ⟨1, now⟩, true)
  | some row =>
    let effectiveWindow := windowMs * multiplier maxAttempts backoffThreshold row
    if row.windowStart + effectiveWindow ≤ now then (db.set ip ⟨1, now⟩, true)
    else
      (db.set ip { row with attempts := row.attempts + 1 }, row.attempts + 1 ≤ maxAttempts)

def cleanExpired (windowMs : ℕ) (db : Table) (now : ℕ) : Table :=
  db.filter fun _ row ↦ !decide (row.windowStart + windowMs * 8 < now)

/-- A call on the table, with what the clock says. -/
inductive Call
  | checkAndIncrement (ip : String) (now : ℕ)
  | cleanExpired (now : ℕ)

def Call.now : Call → ℕ
  | .checkAndIncrement _ now | .cleanExpired now => now

/-- Calls for other addresses do not matter. -/
def Call.concerns (ip : String) : Call → Bool
  | .checkAndIncrement ip' _ => ip' = ip
  | .cleanExpired _ => true

def Call.isAttempt : Call → Bool
  | .checkAndIncrement .. => true
  | .cleanExpired _ => false

/-- What an attempt was told. -/
structure Verdict where
  ip : String
  now : ℕ
  allowed : Bool

section

variable (maxAttempts windowMs backoffThreshold : ℕ)

def verdicts : Table → List Call → List Verdict
  | _, [] => []
  | db, .checkAndIncrement ip now :: calls =>
    let r := checkAndIncrement maxAttempts windowMs backoffThreshold db ip now
    ⟨ip, now, r.2⟩ :: verdicts r.1 calls
  | db, .cleanExpired now :: calls => verdicts (cleanExpired windowMs db now) calls

/-- What `POST /api/pair/verify` does with the table, at the two times at which it looks at the
clock. -/
def verify (db : Table) (clientIp : String) (now cleanedAt : ℕ) : Table × Bool :=
  let r := checkAndIncrement maxAttempts windowMs backoffThreshold db clientIp now
  if r.2 then (cleanExpired windowMs r.1 cleanedAt, true) else (r.1, false)

/-- A request to `POST /api/pair/verify`. -/
structure Request where
  clientIp : String
  now : ℕ
  cleanedAt : ℕ

def verifyAll : Table → List Request → List Verdict
  | _, [] => []
  | db, r :: rs =>
    let v := verify maxAttempts windowMs backoffThreshold db r.clientIp r.now r.cleanedAt
    ⟨r.clientIp, r.now, v.2⟩ :: verifyAll v.1 rs

end

/-- The values of `pair.ts`. -/
def verifyMax : ℕ := 10

def verifyWindowMs : ℕ := 60000

/-! ## One row -/

section Row

variable {m w b : ℕ} {db : Table} {ip : String} {now : ℕ}

def RateLimitRow.window (row : RateLimitRow) : Window := ⟨row.attempts, row.windowStart⟩

/-- The window is over. -/
def expired (m w b : ℕ) (y : Window) (now : ℕ) : Bool :=
  y.start + w * multiplier m b ⟨y.attempts, y.start⟩ ≤ now

theorem one_le_multiplier (m b : ℕ) (row : RateLimitRow) : 1 ≤ multiplier m b row := by
  rw [multiplier]
  split
  · exact le_min (by decide) Nat.one_le_two_pow
  · exact Nat.le_refl 1

theorem multiplier_le (m b : ℕ) (row : RateLimitRow) : multiplier m b row ≤ 8 := by
  rw [multiplier]
  split
  · exact min_le_left _ _
  · decide

theorem le_of_expired (y : Window) (now : ℕ) (h : expired m w b y now = true) :
    y.start + w ≤ now := by
  rw [expired, decide_eq_true_eq] at h
  exact Nat.le_trans (Nat.add_le_add_left (Nat.le_mul_of_pos_right w (one_le_multiplier m b _)) _) h

theorem expired_of_le (y : Window) (h : y.start + w * 8 ≤ now) : expired m w b y now = true := by
  rw [expired, decide_eq_true_eq]
  exact Nat.le_trans (Nat.add_le_add_left (Nat.mul_le_mul_left w (multiplier_le m b _)) _) h

theorem checkAndIncrement_eq (m w b : ℕ) (db : Table) (ip : String) (now : ℕ) :
    checkAndIncrement m w b db ip now =
      (db.set ip
        ⟨(attempt (expired m w b) m ((db.get ip).map RateLimitRow.window) now).1.attempts,
          (attempt (expired m w b) m ((db.get ip).map RateLimitRow.window) now).1.start⟩,
        (attempt (expired m w b) m ((db.get ip).map RateLimitRow.window) now).2) := by
  rw [checkAndIncrement]
  rcases db.get ip with _ | row
  · rfl
  · rw [Option.map_some]
    by_cases hover : row.windowStart + w * multiplier m b row ≤ now
    · have hattempt : attempt (expired m w b) m (some row.window) now = (⟨1, now⟩, true) :=
        if_pos (decide_eq_true hover)
      rw [hattempt]
      exact if_pos hover
    · have hattempt : attempt (expired m w b) m (some row.window) now =
          (⟨row.attempts + 1, row.windowStart⟩, decide (row.attempts + 1 ≤ m)) :=
        if_neg fun h ↦ hover (of_decide_eq_true h)
      rw [hattempt]
      exact if_neg hover

theorem get_checkAndIncrement_of_ne {ip' : String} (h : ip ≠ ip') :
    (checkAndIncrement m w b db ip now).1.get ip' = db.get ip' := by
  rw [checkAndIncrement_eq]
  exact OrderedMap.get_set_of_ne _ _ h

/-- An address whose window started eight windows ago, or that has none. -/
theorem checkAndIncrement_of_stale
    (h : ∀ row, db.get ip = some row → row.windowStart + w * 8 ≤ now) :
    checkAndIncrement m w b db ip now = (db.set ip ⟨1, now⟩, true) := by
  rw [checkAndIncrement_eq, attempt_of_stale]
  intro y hy
  obtain ⟨row, hrow, rfl⟩ := Option.map_eq_some_iff.mp hy
  exact expired_of_le _ (h row hrow)

theorem get_cleanExpired : (cleanExpired w db now).get ip =
    (db.get ip).filter fun row ↦ !decide (row.windowStart + w * 8 < now) := by
  ext row
  rw [cleanExpired, OrderedMap.get_filter_eq_some_iff, Option.filter_eq_some_iff]

end Row

/-! ## Runs -/

section Runs

variable {m w b : ℕ} {db db' : Table} {ip : String} {now : ℕ} {calls : List Call}

/-- Attempts of other addresses change no verdict for this one. -/
theorem filter_verdicts (h : db.get ip = db'.get ip) :
    (verdicts m w b db calls).filter (·.ip = ip) =
      verdicts m w b db' (calls.filter (Call.concerns ip)) := by
  induction calls generalizing db db' with
  | nil => rfl
  | cons call calls ih =>
    cases call with
    | checkAndIncrement ip' now =>
      by_cases hip : ip' = ip
      · subst hip
        have hnow : (checkAndIncrement m w b db ip' now).2 =
            (checkAndIncrement m w b db' ip' now).2 := by
          rw [checkAndIncrement_eq, checkAndIncrement_eq, h]
        have hnext : (checkAndIncrement m w b db ip' now).1.get ip' =
            (checkAndIncrement m w b db' ip' now).1.get ip' := by
          rw [checkAndIncrement_eq, checkAndIncrement_eq, h, OrderedMap.get_set_self,
            OrderedMap.get_set_self]
        have hconcerns : Call.concerns ip' (.checkAndIncrement ip' now) = true := decide_eq_true rfl
        rw [List.filter_cons_of_pos hconcerns, verdicts, verdicts, hnow, List.filter_cons,
          if_pos (decide_eq_true rfl), ih hnext]
      · rw [List.filter_cons_of_neg (by simpa [Call.concerns] using hip), verdicts,
          List.filter_cons_of_neg (by simpa using hip)]
        exact ih ((get_checkAndIncrement_of_ne hip).trans h)
    | cleanExpired now =>
      rw [List.filter_cons_of_pos rfl, verdicts, verdicts]
      exact ih (by rw [get_cleanExpired, get_cleanExpired, h])

/-- The first table lacks rows that are too old to matter from `now` on. -/
def Covers (w now : ℕ) (db db' : Table) : Prop :=
  ∀ ip, db.get ip = db'.get ip ∨
    db.get ip = none ∧ ∃ row, db'.get ip = some row ∧ row.windowStart + w * 8 < now

theorem Covers.refl : Covers w now db db := fun _ ↦ Or.inl rfl

section

variable (h : Covers w now db db')
include h

theorem Covers.mono {now' : ℕ} (hle : now ≤ now') :
    Covers w now' db db' := fun ip ↦
  (h ip).imp_right fun ⟨hnone, row, hrow, hold⟩ ↦ ⟨hnone, row, hrow, Nat.lt_of_lt_of_le hold hle⟩

theorem Covers.checkAndIncrement (m b : ℕ) (ip : String) :
    (checkAndIncrement m w b db ip now).2 = (checkAndIncrement m w b db' ip now).2 ∧
      Covers w now (checkAndIncrement m w b db ip now).1
        (checkAndIncrement m w b db' ip now).1 := by
  have hother : ∀ row, Covers w now (db.set ip row) (db'.set ip row) := by
    intro row ip'
    by_cases hip : ip = ip'
    · subst hip
      exact Or.inl (by rw [OrderedMap.get_set_self, OrderedMap.get_set_self])
    · rw [OrderedMap.get_set_of_ne _ _ hip, OrderedMap.get_set_of_ne _ _ hip]
      exact h ip'
  rcases h ip with heq | ⟨hnone, row, hrow, hold⟩
  · rw [checkAndIncrement_eq, checkAndIncrement_eq, heq]
    exact ⟨rfl, hother _⟩
  -- The row is missing in one table and too old in the other: both start a window.
  · have hfirst : ∀ row', db.get ip = some row' → row'.windowStart + w * 8 ≤ now := by
      intro row' hrow'
      rw [hnone] at hrow'
      cases hrow'
    have hover : ∀ row', db'.get ip = some row' → row'.windowStart + w * 8 ≤ now := by
      intro row' hrow'
      cases hrow.symm.trans hrow'
      exact Nat.le_of_lt hold
    rw [checkAndIncrement_of_stale hfirst, checkAndIncrement_of_stale hover]
    exact ⟨rfl, hother _⟩

theorem Covers.cleanExpired :
    Covers w now (cleanExpired w db now) db' := by
  intro ip
  rw [get_cleanExpired]
  rcases h ip with heq | ⟨hnone, hold⟩
  · rw [heq]
    rcases hrow : db'.get ip with _ | row
    · exact Or.inl rfl
    · by_cases hlt : row.windowStart + w * 8 < now
      · exact Or.inr ⟨by simp [hlt], row, rfl, hlt⟩
      · exact Or.inl (by simp [hlt])
  · rw [hnone]
    exact Or.inr ⟨rfl, hold⟩

/-- The cleaning changes no verdict. -/
theorem verdicts_eq_of_covers
    (hsorted : calls.Pairwise fun c c' ↦ c.now ≤ c'.now) (hlate : ∀ call ∈ calls, now ≤ call.now) :
    verdicts m w b db calls = verdicts m w b db' (calls.filter Call.isAttempt) := by
  induction calls generalizing db db' now with
  | nil => rfl
  | cons call calls ih =>
    obtain ⟨hle, hrest⟩ := List.pairwise_cons.mp hsorted
    have hnow := h.mono (hlate call List.mem_cons_self)
    cases call with
    | checkAndIncrement ip now' =>
      obtain ⟨hsame, hnext⟩ := hnow.checkAndIncrement m b ip
      rw [List.filter_cons_of_pos rfl, verdicts, verdicts]
      exact congrArg₂ List.cons (congrArg _ hsame) (ih hnext hrest hle)
    | cleanExpired now' =>
      rw [List.filter_cons_of_neg Bool.false_ne_true, verdicts]
      exact ih hnow.cleanExpired hrest hle

end

/-- The attempts of one address are those of the limiter. -/
theorem map_now_verdicts (h : ∀ call ∈ calls, ∃ now, call = .checkAndIncrement ip now) :
    ((verdicts m w b db calls).filter Verdict.allowed).map Verdict.now =
      allowed (expired m w b) m ((db.get ip).map RateLimitRow.window) (calls.map Call.now) := by
  induction calls generalizing db with
  | nil => rfl
  | cons call calls ih =>
    obtain ⟨now, rfl⟩ := h call List.mem_cons_self
    have hrest := @ih (checkAndIncrement m w b db ip now).1
      fun call hcall ↦ h call (List.mem_cons_of_mem _ hcall)
    have hrow : ((checkAndIncrement m w b db ip now).1.get ip).map RateLimitRow.window =
        some (attempt (expired m w b) m ((db.get ip).map RateLimitRow.window) now).1 := by
      rw [checkAndIncrement_eq, OrderedMap.get_set_self]
      rfl
    have hsame : (checkAndIncrement m w b db ip now).2 =
        (attempt (expired m w b) m ((db.get ip).map RateLimitRow.window) now).2 := by
      rw [checkAndIncrement_eq]
    rw [hrow] at hrest
    rw [verdicts, List.map_cons, Call.now, allowed, List.filter_cons]
    simp only [hsame, ← hrest]
    split
    · rfl
    · rfl

/-- The handler gives the verdicts of the table alone. -/
theorem verifyAll_eq {rs : List Request} (h : Covers w now db db') (hlate : ∀ r ∈ rs, now ≤ r.now)
    (hclean : ∀ r ∈ rs, r.now ≤ r.cleanedAt)
    (hsorted : rs.Pairwise fun r r' ↦ r.cleanedAt ≤ r'.now) :
    verifyAll m w b db rs =
      verdicts m w b db' (rs.map fun r ↦ .checkAndIncrement r.clientIp r.now) := by
  induction rs generalizing db db' now with
  | nil => rfl
  | cons r rs ih =>
    obtain ⟨hle, hrest⟩ := List.pairwise_cons.mp hsorted
    have hcleaned : ∀ r' ∈ rs, r'.now ≤ r'.cleanedAt := fun r' hr' ↦
      hclean r' (List.mem_cons_of_mem _ hr')
    obtain ⟨hsame, hnext⟩ := (h.mono (hlate r List.mem_cons_self)).checkAndIncrement m b r.clientIp
    have hlater := hnext.mono (hclean r List.mem_cons_self)
    rw [verifyAll, List.map_cons, verdicts, verify, ← hsame]
    rcases hallowed : (PairRateLimits.checkAndIncrement m w b db r.clientIp r.now).2 with _ | _
    · exact congrArg _ (ih hlater hle hcleaned hrest)
    · exact congrArg _ (ih hlater.cleanExpired hle hcleaned hrest)

/-- A cleaning may be left out. -/
theorem verdicts_without_cleaning {calls' : List Call}
    (hsorted : (calls ++ .cleanExpired now :: calls').Pairwise fun c c' ↦ c.now ≤ c'.now) :
    verdicts m w b db (calls ++ calls') =
      verdicts m w b db (calls ++ .cleanExpired now :: calls') := by
  have hless : (calls ++ calls').Pairwise fun c c' ↦ c.now ≤ c'.now :=
    hsorted.sublist ((List.Sublist.refl calls).append (List.sublist_cons_self _ calls'))
  have hsame : Covers w 0 db db := .refl
  rw [verdicts_eq_of_covers hsame hsorted fun _ _ ↦ Nat.zero_le _,
    verdicts_eq_of_covers hsame hless fun _ _ ↦ Nat.zero_le _, List.filter_append,
    List.filter_append, List.filter_cons_of_neg Bool.false_ne_true]

theorem countP_verdicts_le (hm : 1 ≤ m) (hw : 0 < w)
    (hsorted : calls.Pairwise fun c c' ↦ c.now ≤ c'.now) (ip : String) (t L : ℕ) :
    (verdicts m w b .empty calls).countP
      (fun v ↦ v.ip = ip ∧ v.allowed ∧ t ≤ v.now ∧ v.now ≤ t + L) ≤ (L / w + 2) * m := by
  have hconcerns := hsorted.sublist (List.filter_sublist (p := Call.concerns ip))
  have hattempts := hconcerns.sublist (List.filter_sublist (p := Call.isAttempt))
  have hip : ∀ call ∈ (calls.filter (Call.concerns ip)).filter Call.isAttempt,
      ∃ now, call = .checkAndIncrement ip now := by
    intro call hcall
    rw [List.mem_filter, List.mem_filter] at hcall
    cases call with
    | checkAndIncrement ip' now =>
      obtain rfl : ip' = ip := of_decide_eq_true hcall.1.2
      exact ⟨now, rfl⟩
    | cleanExpired now => exact absurd hcall.2 Bool.false_ne_true
  -- The verdicts for the address, and those that allow, are counted by their times.
  calc (verdicts m w b .empty calls).countP
        (fun v ↦ v.ip = ip ∧ v.allowed ∧ t ≤ v.now ∧ v.now ≤ t + L)
      = ((verdicts m w b .empty calls).filter (·.ip = ip)).countP
          (fun v ↦ v.allowed ∧ t ≤ v.now ∧ v.now ≤ t + L) := by
        rw [List.countP_filter]
        refine List.countP_congr fun v _ ↦ ?_
        simp only [decide_eq_true_eq, Bool.and_eq_true]
        exact and_comm
    _ = (verdicts m w b .empty ((calls.filter (Call.concerns ip)).filter Call.isAttempt)).countP
          (fun v ↦ v.allowed ∧ t ≤ v.now ∧ v.now ≤ t + L) := by
        have hsame : Covers w 0 .empty .empty := .refl
        rw [filter_verdicts rfl, verdicts_eq_of_covers hsame hconcerns fun _ _ ↦ Nat.zero_le _]
    _ = (allowed (expired m w b) m none
          (((calls.filter (Call.concerns ip)).filter Call.isAttempt).map Call.now)).countP
            (fun now ↦ t ≤ now ∧ now ≤ t + L) := by
        rw [← Option.map_none (f := RateLimitRow.window), ← OrderedMap.get_empty ip,
          ← map_now_verdicts hip, List.countP_map, List.countP_filter]
        refine List.countP_congr fun v _ ↦ ?_
        simp only [Function.comp_apply, decide_eq_true_eq, Bool.and_eq_true]
        exact and_comm
    _ ≤ ((t + L - t) / w + 2) * m :=
        countP_allowed_le le_of_expired hw hm (List.pairwise_map.mpr hattempts)
    _ = (L / w + 2) * m := by rw [Nat.add_sub_cancel_left]

/-- **The limit**, for every sequence of calls in the order of time: a period of length `L` has at
most `L / w + 2` windows of allowed attempts of one address, an attempt eight windows behind the
start of the window of its address is allowed, attempts of other addresses change no verdict, and
no cleaning does. -/
theorem verdicts_limited (hm : 1 ≤ m) (hw : 0 < w)
    (hsorted : calls.Pairwise fun c c' ↦ c.now ≤ c'.now) :
    (∀ ip t L, (verdicts m w b .empty calls).countP
      (fun v ↦ v.ip = ip ∧ v.allowed ∧ t ≤ v.now ∧ v.now ≤ t + L) ≤ (L / w + 2) * m) ∧
    (∀ db ip now, (∀ row, db.get ip = some row → row.windowStart + 8 * w ≤ now) →
      (checkAndIncrement m w b db ip now).2 = true) ∧
    (∀ ip, (verdicts m w b .empty calls).filter (·.ip = ip) =
      verdicts m w b .empty (calls.filter (Call.concerns ip))) ∧
    ∀ calls₁ now calls₂, calls = calls₁ ++ .cleanExpired now :: calls₂ →
      verdicts m w b .empty (calls₁ ++ calls₂) = verdicts m w b .empty calls := by
  refine ⟨countP_verdicts_le hm hw hsorted, fun db ip now hold ↦ ?_, fun ip ↦ filter_verdicts rfl,
    fun calls₁ now calls₂ heq ↦ ?_⟩
  · rw [checkAndIncrement_of_stale fun row hrow ↦ Nat.mul_comm w 8 ▸ hold row hrow]
  · subst heq
    exact verdicts_without_cleaning hsorted

/-- The calls of two requests with the values of `pair.ts`. -/
theorem verdicts_limited_two :
    verdicts verifyMax verifyWindowMs 5 .empty
        ([.checkAndIncrement "10.0.0.1" 0] ++ [.checkAndIncrement "10.0.0.1" 480001]) =
      verdicts verifyMax verifyWindowMs 5 .empty
        [.checkAndIncrement "10.0.0.1" 0, .cleanExpired 480001,
          .checkAndIncrement "10.0.0.1" 480001] :=
  (@verdicts_limited verifyMax verifyWindowMs 5
    [.checkAndIncrement "10.0.0.1" 0, .cleanExpired 480001, .checkAndIncrement "10.0.0.1" 480001]
    (by decide) (by decide) (by decide)).2.2.2 [.checkAndIncrement "10.0.0.1" 0] 480001
      [.checkAndIncrement "10.0.0.1" 480001] rfl

end Runs

end Lasterm.Hub.PairRateLimits
