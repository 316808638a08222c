import Lasterm.Library.Calendar
import Mathlib.Tactic.IntervalCases

/-!
# Dates of the agent's messages

`days_to_ymd` of `handler.rs` turns a number of days since the first of January 1970 into a date. It
counts in years that begin in March, so that a leap day is the last day of its year, and in eras of
400 years.

Within an era a day has a century, a period of four years in it, a year of the period and a day of
the year. A century that is not the last one of its era and a period that is the last one of its
century are a day short, and the formula for the year makes up for both (`yearOfEra_eq`).

All arithmetic is on `u64`. An operation that goes below zero or out of range is `none`: a panic, or
in a release build a wrong number.
-/

namespace Lasterm.Agent.CivilDate

open Calendar

/-! ## Arithmetic on `u64` -/

def add (a b : ℕ) : Option ℕ := if a + b < 2 ^ 64 then some (a + b) else none

def sub (a b : ℕ) : Option ℕ := if b ≤ a then some (a - b) else none

def mul (a b : ℕ) : Option ℕ := if a * b < 2 ^ 64 then some (a * b) else none

variable {a b : ℕ}

theorem add_eq (h : a + b < 2 ^ 64) : add a b = some (a + b) := if_pos h

theorem sub_eq (h : b ≤ a) : sub a b = some (a - b) := if_pos h

theorem mul_eq (h : a * b < 2 ^ 64) : mul a b = some (a * b) := if_pos h

/-! ## The conversion -/

/-- `(doe - doe / 1460 + doe / 36524 - doe / 146096) / 365`. -/
def yearOfEra (doe : ℕ) : Option ℕ := do
  return (← sub (← add (← sub doe (doe / 1460)) (doe / 36524)) (doe / 146096)) / 365

/-- `doe - (365 * yoe + yoe / 4 - yoe / 100)`. -/
def dayOfYear (doe yoe : ℕ) : Option ℕ := do
  sub doe (← sub (← add (← mul 365 yoe) (yoe / 4)) (yoe / 100))

def monthFromMarch (mp : ℕ) : Option ℕ := if mp < 10 then add mp 3 else sub mp 9

def yearOfMonth (y m : ℕ) : Option ℕ := if m ≤ 2 then add y 1 else some y

/-- The last lines: the date of a day of a year that begins in March. -/
def monthAndDay (y doy : ℕ) : Option Date := do
  let mp := (← add (← mul 5 doy) 2) / 153
  let d ← add (← sub doy ((← add (← mul 153 mp) 2) / 5)) 1
  let m ← monthFromMarch mp
  let y ← yearOfMonth y m
  return ⟨y, m, d⟩

/-- The date of a day counted from the first of March of the year 0. -/
def ymdOfDay (z : ℕ) : Option Date := do
  let era := z / 146097
  let doe := z % 146097
  let yoe ← yearOfEra doe
  let y ← add yoe (← mul era 400)
  let doy ← dayOfYear doe yoe
  monthAndDay y doy

def daysToYmd (days : ℕ) : Option Date := do
  ymdOfDay (← add days 719468)

/-- The number of days since the first of January 1970. -/
def civilToDays (d : Date) : ℤ := (d.serial : ℤ) - (⟨1970, 1, 1⟩ : Date).serial

/-! ## Days of an era -/

/-- The century `c`, the period `k` in it, the year `j` of the period and the day `n` of the year of
the day `doe` of an era. -/
structure IsDayOfEra (doe c k j n : ℕ) : Prop where
  eq : doe = 36524 * c + 1461 * k + 365 * j + n
  century : c ≤ 3
  period : k ≤ 24
  year : j ≤ 3
  /-- The last day of a year is a leap day. -/
  day : n ≤ 364 ∨ n = 365 ∧ j = 3 ∧ (k = 24 → c = 3)

theorem exists_isDayOfEra {doe : ℕ} (h : doe < 146097) : ∃ c k j n, IsDayOfEra doe c k j n := by
  obtain ⟨c, hc⟩ : ∃ c, c = min (doe / 36524) 3 := ⟨_, rfl⟩
  obtain ⟨r, hr⟩ : ∃ r, r = doe - 36524 * c := ⟨_, rfl⟩
  obtain ⟨t, ht⟩ : ∃ t, t = r % 1461 := ⟨_, rfl⟩
  obtain ⟨j, hj⟩ : ∃ j, j = min (t / 365) 3 := ⟨_, rfl⟩
  exact ⟨c, r / 1461, j, t - 365 * j, by omega, by omega, by omega, by omega, by omega⟩

variable {doe c k j n era : ℕ}

section

variable (h : IsDayOfEra doe c k j n)
include h

/-- A day of an era is in one of its four centuries, or it is the last day of the era. -/
theorem IsDayOfEra.div_century :
    doe / 36524 = c + doe / 146096 := by
  obtain ⟨heq, hc, hk, hj, hn⟩ := h
  have hrest : 1461 * k + 365 * j + n < 36524 ∨ 1461 * k + 365 * j + n = 36524 ∧ c = 3 := by omega
  omega

/-- Of the days before it, the formula takes away one for each period, and one more at the end of a
period. -/
theorem IsDayOfEra.div_period :
    doe / 1460 = 25 * c + k + (24 * c + k + (365 * j + n)) / 1460 := by
  have heq := h.eq
  omega

theorem IsDayOfEra.yearOfEra_eq :
    yearOfEra doe = some (100 * c + 4 * k + j) := by
  have hcentury := h.div_century
  have hperiod := h.div_period
  obtain ⟨heq, hc, hk, hj, hn⟩ := h
  obtain ⟨e, he⟩ : ∃ e, e = (24 * c + k + (365 * j + n)) / 1460 := ⟨_, rfl⟩
  have hyear : (365 * j + n - e) / 365 = j := by omega
  have hsub : doe - doe / 1460 + doe / 36524 - doe / 146096 =
      365 * (100 * c + 4 * k) + (365 * j + n - e) := by omega
  rw [yearOfEra, sub_eq (Nat.div_le_self _ _)]
  change ((add (doe - doe / 1460) (doe / 36524)).bind fun x ↦
    (sub x (doe / 146096)).bind fun y ↦ some (y / 365)) = _
  rw [add_eq (by omega), Option.bind_some, sub_eq (by omega), Option.bind_some, hsub,
    Nat.mul_add_div (by decide), hyear]

theorem IsDayOfEra.dayOfYear_eq :
    dayOfYear doe (100 * c + 4 * k + j) = some n := by
  obtain ⟨heq, hc, hk, hj, hn⟩ := h
  rw [dayOfYear, mul_eq (by omega)]
  change ((add (365 * (100 * c + 4 * k + j)) ((100 * c + 4 * k + j) / 4)).bind fun x ↦
    (sub x ((100 * c + 4 * k + j) / 100)).bind (sub doe)) = _
  rw [add_eq (by omega), Option.bind_some, sub_eq (by omega), Option.bind_some, sub_eq (by omega)]
  congr 1
  omega

end

/-! ## Days of a year that begins in March -/

/-- The days before a month from March on. -/
theorem daysBeforeMonth_march (y : ℕ) {mp : ℕ} (h : mp ≤ 9) :
    daysBeforeMonth y (mp + 3) + 306 = yearLength y + (153 * mp + 2) / 5 ∧
      monthLength y (mp + 3) + (153 * mp + 2) / 5 = (153 * (mp + 1) + 2) / 5 := by
  rw [yearLength]
  cases hleap : isLeap y <;> interval_cases mp <;>
    simp [daysBeforeMonth, monthLength, hleap]

variable {y : ℕ}

/-- The day is counted from the first of its month. -/
theorem monthAndDay_eq {mp m y' : ℕ} (hn : n ≤ 365) (hmp : (5 * n + 2) / 153 = mp)
    (hm : monthFromMarch mp = some m) (hy : yearOfMonth y m = some y') :
    monthAndDay y n = some ⟨y', m, n - (153 * mp + 2) / 5 + 1⟩ := by
  subst hmp
  simp (disch := omega) only [monthAndDay, mul_eq, add_eq, sub_eq, hm, hy, Option.bind_eq_bind,
    Option.bind_some, Option.pure_def]

/-- From March to December. -/
theorem monthAndDay_march (hn : n < 306) :
    ∃ d, monthAndDay y n = some d ∧ d.IsValid ∧ d.serial + 306 = daysBeforeYear (y + 1) + n := by
  obtain ⟨mp, hmp⟩ : ∃ mp, (5 * n + 2) / 153 = mp := ⟨_, rfl⟩
  have hmarch : mp ≤ 9 := by omega
  obtain ⟨hbefore, hlength⟩ := daysBeforeMonth_march y hmarch
  have hm : monthFromMarch mp = some (mp + 3) := by
    rw [monthFromMarch, if_pos (by omega), add_eq (by omega)]
  have hdate := monthAndDay_eq (by omega) hmp hm (if_neg (by omega) : yearOfMonth y _ = some y)
  refine ⟨_, hdate, ⟨by simp, by dsimp only; omega, by simp, by dsimp only; omega⟩, ?_⟩
  rw [Date.serial, daysBeforeYear]
  dsimp only
  omega

/-- January and February, which belong to the next year. -/
theorem monthAndDay_january (hy : y + 1 < 2 ^ 64) (hfirst : 306 ≤ n)
    (hn : n ≤ 364 ∨ n = 365 ∧ isLeap (y + 1) = true) :
    ∃ d, monthAndDay y n = some d ∧ d.IsValid ∧ d.serial + 306 = daysBeforeYear (y + 1) + n := by
  have hyear {m : ℕ} (h : m ≤ 2) : yearOfMonth y m = some (y + 1) := by
    rw [yearOfMonth, if_pos h, add_eq hy]
  rcases Nat.lt_or_ge n 337 with hjanuary | hfebruary
  · have hmp : (5 * n + 2) / 153 = 10 := by omega
    have hdate := monthAndDay_eq (m := 1) (by omega) hmp rfl
      (hyear (by decide : 1 ≤ 2))
    have hlength : monthLength (y + 1) 1 = 31 := rfl
    refine ⟨_, hdate, ⟨by simp, by simp, by simp, by dsimp only; omega⟩, ?_⟩
    rw [Date.serial, daysBeforeMonth, daysBeforeMonth, show monthLength (y + 1) 0 = 0 from rfl]
    dsimp only
    omega
  · have hmp : (5 * n + 2) / 153 = 11 := by omega
    have hdate := monthAndDay_eq (m := 2) (by omega) hmp rfl
      (hyear (by decide : 2 ≤ 2))
    have hlength : n ≤ 336 + monthLength (y + 1) 2 := by
      rw [monthLength, if_pos rfl]
      rcases hn with hn | ⟨rfl, hleap⟩
      · split <;> omega
      · rw [if_pos hleap]
    refine ⟨_, hdate, ⟨by simp, by simp, by simp, by dsimp only; omega⟩, ?_⟩
    rw [Date.serial, daysBeforeMonth, daysBeforeMonth, daysBeforeMonth,
      show monthLength (y + 1) 0 = 0 from rfl, show monthLength (y + 1) 1 = 31 from rfl]
    dsimp only
    omega

/-! ## Dates -/

variable {z days : ℕ}

/-- January and February of the year 0 have 60 days. -/
theorem exists_ymdOfDay (h : z < 2 ^ 64) :
    ∃ d, ymdOfDay z = some d ∧ d.IsValid ∧ d.serial = z + 60 := by
  obtain ⟨era, hera⟩ : ∃ era, z / 146097 = era := ⟨_, rfl⟩
  obtain ⟨doe, hdoe⟩ : ∃ doe, z % 146097 = doe := ⟨_, rfl⟩
  have hlt : doe < 146097 := by omega
  obtain ⟨c, k, j, n, hday⟩ := exists_isDayOfEra hlt
  obtain ⟨y, hy⟩ : ∃ y, 100 * c + 4 * k + j + era * 400 = y := ⟨_, rfl⟩
  have heq := hday.eq
  have hc := hday.century
  have hk := hday.period
  have hj := hday.year
  have hn := hday.day
  have hmonth : ∃ d, monthAndDay y n = some d ∧ d.IsValid ∧
      d.serial + 306 = daysBeforeYear (y + 1) + n := by
    rcases Nat.lt_or_ge n 306 with hmarch | hjanuary
    · exact monthAndDay_march hmarch
    · refine monthAndDay_january (by omega) hjanuary (hn.imp_right fun hleap ↦ ?_)
      exact ⟨hleap.1, isLeap_iff.mpr (by omega)⟩
  obtain ⟨d, hd, hvalid, hserial⟩ := hmonth
  have hymd : ymdOfDay z = some d := by
    rw [← hy] at hd
    simp (disch := omega) only [ymdOfDay, add_eq, mul_eq, hera, hdoe, hday.yearOfEra_eq,
      hday.dayOfYear_eq, hd, Option.bind_eq_bind, Option.bind_some]
  refine ⟨d, hymd, hvalid, ?_⟩
  have hbefore := daysBeforeYear_succ y
  have hperiods : y / 4 = 100 * era + 25 * c + k := by omega
  have hcenturies : y / 100 = 4 * era + c := by omega
  have heras : y / 400 = era := by omega
  omega

theorem serial_epoch : (⟨1970, 1, 1⟩ : Date).serial = 719528 := by
  have hbefore : daysBeforeYear 1970 + 1969 / 100 = _ := daysBeforeYear_succ 1969
  rw [Date.serial, show daysBeforeMonth 1970 1 = 0 from rfl]
  dsimp only
  omega

/-- The place of the date is the number of the day. -/
theorem exists_daysToYmd (h : days + 719468 < 2 ^ 64) :
    ∃ d, daysToYmd days = some d ∧ d.IsValid ∧ civilToDays d = days := by
  obtain ⟨d, hd, hvalid, hserial⟩ := exists_ymdOfDay h
  refine ⟨d, ?_, hvalid, ?_⟩
  · rw [daysToYmd, add_eq h, Option.bind_eq_bind, Option.bind_some, hd]
  · rw [civilToDays, serial_epoch]
    omega

/-- The clock counts seconds. Its day is far from the bound. -/
theorem day_of_clock_lt {secs : ℕ} (h : secs < 2 ^ 64) : secs / 86400 + 719468 < 2 ^ 64 := by
  omega

/-- **A day becomes a date of the calendar, the one whose place it is, and every date from 1970 on
is the date of its place. Later days become later dates. No operation goes below zero or out of
range.** The bound is that of the first sum in a `u64`, and every day of the clock is below it
(`day_of_clock_lt`). -/
theorem daysToYmd_spec (h : days + 719468 < 2 ^ 64) :
    ∃ d, daysToYmd days = some d ∧ d.IsValid ∧ civilToDays d = days ∧
      (∀ e : Date, e.IsValid → (civilToDays e = days ↔ e = d)) ∧
      ∀ days' < days, ∃ d', daysToYmd days' = some d' ∧ d'.Before d := by
  obtain ⟨d, hd, hvalid, hdays⟩ := exists_daysToYmd h
  refine ⟨d, hd, hvalid, hdays, fun e he ↦ ⟨fun hplace ↦ ?_, fun heq ↦ heq ▸ hdays⟩,
    fun days' hlt ↦ ?_⟩
  · refine Date.eq_of_serial_eq he hvalid ?_
    rw [civilToDays] at hplace hdays
    omega
  · have h' : days' + 719468 < 2 ^ 64 := by omega
    obtain ⟨d', hd', hvalid', hdays'⟩ := exists_daysToYmd h'
    refine ⟨d', hd', (Date.serial_lt_iff hvalid' hvalid).mp ?_⟩
    rw [civilToDays] at hdays hdays'
    omega

/-- The second 1709164800 of the clock is on a leap day. -/
theorem daysToYmd_spec_leapDay :
    daysToYmd (1709164800 / 86400) = some ⟨2024, 2, 29⟩ ∧
      ∀ days' < 1709164800 / 86400, ∃ d', daysToYmd days' = some d' ∧
        d'.Before ⟨2024, 2, 29⟩ := by
  have hymd : daysToYmd (1709164800 / 86400) = some ⟨2024, 2, 29⟩ := by decide
  have hclock : 1709164800 < 2 ^ 64 := by decide
  obtain ⟨d, hd, -, -, -, hbefore⟩ := daysToYmd_spec (day_of_clock_lt hclock)
  rw [hymd, Option.some.injEq] at hd
  exact ⟨hymd, hd ▸ hbefore⟩

end Lasterm.Agent.CivilDate
