import Mathlib.Data.Nat.Notation

/-!
# The Gregorian calendar

Dates from the year 0 on, by their place in a count of days that begins with the first of January of
that year. The count is the definition: it adds up the lengths of years and of months.

On the dates that exist the count has the order of the calendar (`Date.serial_lt_iff`), so that a
date is known by its place.
-/

namespace Calendar

def isLeap (y : ℕ) : Bool := y % 4 = 0 && (y % 100 ≠ 0 || y % 400 = 0)

def yearLength (y : ℕ) : ℕ := if isLeap y then 366 else 365

def monthLength (y m : ℕ) : ℕ :=
  if m = 2 then if isLeap y then 29 else 28
  else if m ∈ [4, 6, 9, 11] then 30
  else if 1 ≤ m ∧ m ≤ 12 then 31
  else 0

/-- The days of the years before `y`. -/
def daysBeforeYear : ℕ → ℕ
  | 0 => 0
  | y + 1 => daysBeforeYear y + yearLength y

/-- The days of the months of the year before month `m`. -/
def daysBeforeMonth (y : ℕ) : ℕ → ℕ
  | 0 => 0
  | m + 1 => daysBeforeMonth y m + monthLength y m

structure Date where
  year : ℕ
  month : ℕ
  day : ℕ
  deriving DecidableEq

namespace Date

/-- The date exists. -/
structure IsValid (d : Date) : Prop where
  one_le_month : 1 ≤ d.month
  month_le : d.month ≤ 12
  one_le_day : 1 ≤ d.day
  day_le : d.day ≤ monthLength d.year d.month

/-- The number of days before a date. -/
def serial (d : Date) : ℕ := daysBeforeYear d.year + daysBeforeMonth d.year d.month + (d.day - 1)

/-- One date comes before another one: year, then month, then day. -/
def Before (d e : Date) : Prop :=
  d.year < e.year ∨
    d.year = e.year ∧ (d.month < e.month ∨ d.month = e.month ∧ d.day < e.day)

end Date

/-! ## Lengths -/

theorem isLeap_iff {y : ℕ} : isLeap y = true ↔ y % 4 = 0 ∧ (y % 100 ≠ 0 ∨ y % 400 = 0) := by
  rw [isLeap, Bool.and_eq_true, Bool.or_eq_true, decide_eq_true_eq, decide_eq_true_eq,
    decide_eq_true_eq]

theorem daysBeforeMonth_mono (y : ℕ) {m m' : ℕ} (h : m ≤ m') :
    daysBeforeMonth y m ≤ daysBeforeMonth y m' := by
  induction m' with
  | zero => exact Nat.le_zero.mp h ▸ Nat.le_refl _
  | succ m' ih =>
    rcases Nat.le_succ_iff.mp h with h | rfl
    · exact Nat.le_trans (ih h) (Nat.le_add_right _ _)
    · exact Nat.le_refl _

theorem daysBeforeYear_mono {y y' : ℕ} (h : y ≤ y') : daysBeforeYear y ≤ daysBeforeYear y' := by
  induction y' with
  | zero => exact Nat.le_zero.mp h ▸ Nat.le_refl _
  | succ y' ih =>
    rcases Nat.le_succ_iff.mp h with h | rfl
    · exact Nat.le_trans (ih h) (Nat.le_add_right _ _)
    · exact Nat.le_refl _

/-- The months of a year make up the year. -/
theorem daysBeforeMonth_thirteen (y : ℕ) : daysBeforeMonth y 13 = yearLength y := by
  rw [yearLength]
  cases h : isLeap y <;> simp [daysBeforeMonth, monthLength, h]

/-- The days before a year that is not the first one. -/
theorem daysBeforeYear_succ (y : ℕ) :
    daysBeforeYear (y + 1) + y / 100 = 365 * y + y / 4 + y / 400 + 366 := by
  induction y with
  | zero => rfl
  | succ y ih =>
    have hdiv (k : ℕ) : (y + 1) / k = y / k + if k ∣ y + 1 then 1 else 0 := Nat.succ_div
    have hleap : isLeap (y + 1) = true ↔ 4 ∣ y + 1 ∧ (¬100 ∣ y + 1 ∨ 400 ∣ y + 1) := by
      rw [isLeap_iff, Nat.dvd_iff_mod_eq_zero, Nat.dvd_iff_mod_eq_zero, Nat.dvd_iff_mod_eq_zero]
    rw [daysBeforeYear, yearLength, hdiv, hdiv, hdiv]
    by_cases hperiod : 400 ∣ y + 1
    · have hcentury : 100 ∣ y + 1 := Nat.dvd_trans (by decide) hperiod
      have hfour : 4 ∣ y + 1 := Nat.dvd_trans (by decide) hperiod
      rw [if_pos (hleap.mpr ⟨hfour, .inr hperiod⟩), if_pos hcentury, if_pos hfour, if_pos hperiod]
      omega
    · rw [if_neg hperiod]
      by_cases hcentury : 100 ∣ y + 1
      · have hfour : 4 ∣ y + 1 := Nat.dvd_trans (by decide) hcentury
        rw [if_neg fun h ↦ (hleap.mp h).2.elim (absurd hcentury) hperiod, if_pos hcentury,
          if_pos hfour]
        omega
      · rw [if_neg hcentury]
        by_cases hfour : 4 ∣ y + 1
        · rw [if_pos (hleap.mpr ⟨hfour, .inl hcentury⟩), if_pos hfour]
          omega
        · rw [if_neg fun h ↦ hfour (hleap.mp h).1, if_neg hfour]
          omega

/-! ## Order -/

namespace Date

variable {d e : Date}

/-- A date lies in its month. -/
theorem IsValid.lt_nextMonth (h : d.IsValid) :
    daysBeforeMonth d.year d.month + (d.day - 1) < daysBeforeMonth d.year (d.month + 1) := by
  have hone := h.one_le_day
  have hle := h.day_le
  rw [daysBeforeMonth]
  omega

/-- And in its year. -/
theorem IsValid.serial_lt (h : d.IsValid) : d.serial < daysBeforeYear (d.year + 1) := by
  have hmonth := h.lt_nextMonth
  have hyear := daysBeforeMonth_mono d.year (m := d.month + 1) (Nat.succ_le_succ h.month_le)
  rw [daysBeforeMonth_thirteen] at hyear
  rw [serial, daysBeforeYear]
  omega

theorem Before.serial_lt (hd : d.IsValid) (h : d.Before e) :
    d.serial < e.serial := by
  rcases h with hyear | ⟨hyear, hmonth | ⟨hmonth, hday⟩⟩
  · have hlt := hd.serial_lt
    have hle := daysBeforeYear_mono (y := d.year + 1) hyear
    have hfirst : daysBeforeYear e.year ≤ e.serial := by
      rw [serial]
      omega
    exact Nat.lt_of_lt_of_le hlt (Nat.le_trans hle hfirst)
  · have hlt := hd.lt_nextMonth
    have hle := daysBeforeMonth_mono e.year (m := d.month + 1) hmonth
    rw [hyear] at hlt
    rw [serial, serial, hyear]
    omega
  · have hone := hd.one_le_day
    rw [serial, serial, hyear, hmonth]
    omega

theorem before_or_eq_or_before (d e : Date) : d.Before e ∨ d = e ∨ e.Before d := by
  obtain ⟨y, m, n⟩ := d
  obtain ⟨y', m', n'⟩ := e
  rw [Before, Before, mk.injEq]
  dsimp only
  omega

/-- **The count has the order of the calendar.** -/
theorem serial_lt_iff (hd : d.IsValid) (he : e.IsValid) : d.serial < e.serial ↔ d.Before e := by
  refine ⟨fun hlt ↦ ?_, fun h ↦ h.serial_lt hd⟩
  rcases before_or_eq_or_before d e with h | rfl | h
  · exact h
  · exact absurd hlt (Nat.lt_irrefl _)
  · exact absurd (h.serial_lt he) (Nat.lt_asymm hlt)

theorem eq_of_serial_eq (hd : d.IsValid) (he : e.IsValid) (h : d.serial = e.serial) : d = e := by
  rcases before_or_eq_or_before d e with hbefore | heq | hbefore
  · exact absurd (hbefore.serial_lt hd) (h ▸ Nat.lt_irrefl _)
  · exact heq
  · exact absurd (hbefore.serial_lt he) (h ▸ Nat.lt_irrefl _)

end Date

end Calendar
