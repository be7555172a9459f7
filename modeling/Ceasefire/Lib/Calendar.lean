/-
# The Gregorian calendar

Days are numbered from 1 January of year 0, in the calendar extended to the years before it was in
use.  `Date.ofDay` finds the date of a day, `Date.toDay` the day of a date; dates sort as the days
do, by year, month and day (`ofDay_lt_iff`).
-/

import Ceasefire.Lib.ZeroPadded
import Mathlib.Data.Nat.Find
import Mathlib.Order.Monotone.Basic

namespace Lib

/-! ## Steps -/

/-- The last of the first steps that is not above `x`. -/
def lastStep (f : ℕ → ℕ) (bound x : ℕ) : ℕ := Nat.findGreatest (fun k => f k ≤ x) bound

theorem lastStep_le {f : ℕ → ℕ} {bound x : ℕ} (h : f 0 ≤ x) : f (lastStep f bound x) ≤ x :=
  Nat.findGreatest_spec (P := fun k => f k ≤ x) (Nat.zero_le bound) h

theorem lt_lastStep_succ {f : ℕ → ℕ} {bound x : ℕ} (h : x < f (bound + 1)) :
    x < f (lastStep f bound x + 1) := by
  have hle : lastStep f bound x ≤ bound := Nat.findGreatest_le bound
  rcases Nat.lt_or_eq_of_le hle with hlt | heq
  · exact Nat.lt_of_not_le
      (Nat.findGreatest_is_greatest (P := fun k => f k ≤ x) (Nat.lt_succ_self _) hlt)
  · rw [heq]
    exact h

namespace Calendar

/-! ## Years and months -/

def isLeap (year : ℕ) : Bool := decide (4 ∣ year ∧ (¬ 100 ∣ year ∨ 400 ∣ year))

/-- The days before 1 January of the year. -/
def daysBeforeYear (year : ℕ) : ℕ :=
  365 * year + (year + 3) / 4 - (year + 99) / 100 + (year + 399) / 400

/-- One more year, and how many years before it are multiples of `c`. -/
theorem multiples_succ {c : ℕ} (hc : 0 < c) (year : ℕ) :
    (year + 1 + (c - 1)) / c = (year + (c - 1)) / c + if c ∣ year then 1 else 0 := by
  have hnext : year + (c - 1) + 1 = year + c := by omega
  rw [Nat.add_right_comm, Nat.succ_div, hnext]
  simp only [Nat.dvd_add_self_right]

theorem daysBeforeYear_succ (year : ℕ) :
    daysBeforeYear (year + 1) = daysBeforeYear year + if isLeap year then 366 else 365 := by
  have h4 := multiples_succ (show 0 < 4 by decide) year
  have h100 := multiples_succ (show 0 < 100 by decide) year
  have h400 := multiples_succ (show 0 < 400 by decide) year
  have hle : (year + 99) / 100 ≤ 365 * year := by omega
  have hdvd : 100 ∣ year → 4 ∣ year := Nat.dvd_trans (by decide)
  have hdvd' : 400 ∣ year → 100 ∣ year := Nat.dvd_trans (by decide)
  simp only [Nat.reduceSub] at h4 h100 h400
  unfold daysBeforeYear isLeap
  simp only [decide_eq_true_eq]
  rw [h4, h100, h400]
  by_cases d4 : 4 ∣ year
  · by_cases d100 : 100 ∣ year
    · by_cases d400 : 400 ∣ year
      · simp only [d4, d100, d400, not_true_eq_false, or_true, and_self, if_true]
        omega
      · simp only [d4, d100, d400, not_true_eq_false, or_self, and_false, if_true, if_false]
        omega
    · simp only [d4, d100, mt hdvd' d100, not_false_eq_true, true_or, and_self, if_true, if_false]
      omega
  · simp only [d4, mt hdvd d4, mt hdvd' (mt hdvd d4), false_and, if_false]
    omega

theorem daysBeforeYear_mono : Monotone daysBeforeYear :=
  monotone_nat_of_le_succ fun year => by
    rw [daysBeforeYear_succ]
    exact Nat.le_add_right _ _

theorem le_daysBeforeYear (year : ℕ) : 365 * year ≤ daysBeforeYear year := by
  unfold daysBeforeYear
  omega

/-- The days of a year before the first of its month; the months are counted from 0. -/
def daysBeforeMonth (leap : Bool) (month : ℕ) : ℕ :=
  [0, 31, 59, 90, 120, 151, 181, 212, 243, 273, 304, 334].getD month 365 +
    if leap ∧ 2 ≤ month then 1 else 0

theorem daysBeforeMonth_mono (leap : Bool) : Monotone (daysBeforeMonth leap) := by
  refine monotone_nat_of_le_succ fun month => ?_
  by_cases hmonth : month < 12
  · have hall : ∀ leap, ∀ m < 12, daysBeforeMonth leap m ≤ daysBeforeMonth leap (m + 1) := by
      decide
    exact hall leap month hmonth
  · have hend : ∀ m, 12 ≤ m → daysBeforeMonth leap m = 365 + if leap then 1 else 0 := by
      intro m hm
      obtain ⟨k, rfl⟩ := Nat.exists_eq_add_of_le hm
      rw [Nat.add_comm]
      simp [daysBeforeMonth]
    rw [hend month (by omega), hend (month + 1) (by omega)]

/-! ## Dates -/

/-- Month and day are counted from 1. -/
structure Date where
  year : ℕ
  month : ℕ
  day : ℕ
  deriving DecidableEq, Repr

namespace Date

/-- The year of a day. -/
def yearOf (d : ℕ) : ℕ := lastStep daysBeforeYear (d / 365) d

/-- The day in its year, from 0. -/
def ordinal (d : ℕ) : ℕ := d - daysBeforeYear (yearOf d)

/-- The month of a day, from 0. -/
def monthOf (d : ℕ) : ℕ := lastStep (daysBeforeMonth (isLeap (yearOf d))) 11 (ordinal d)

def ofDay (d : ℕ) : Date where
  year := yearOf d
  month := monthOf d + 1
  day := ordinal d - daysBeforeMonth (isLeap (yearOf d)) (monthOf d) + 1

def toDay (date : Date) : ℕ :=
  daysBeforeYear date.year + daysBeforeMonth (isLeap date.year) (date.month - 1) + (date.day - 1)

theorem yearOf_le (d : ℕ) : daysBeforeYear (yearOf d) ≤ d :=
  lastStep_le (Nat.zero_le d)

theorem lt_yearOf_succ (d : ℕ) : d < daysBeforeYear (yearOf d + 1) := by
  refine lt_lastStep_succ ?_
  have hbound := le_daysBeforeYear (d / 365 + 1)
  omega

theorem ordinal_lt (d : ℕ) : ordinal d < daysBeforeMonth (isLeap (yearOf d)) 12 := by
  have hyear : daysBeforeMonth (isLeap (yearOf d)) 12 =
      if isLeap (yearOf d) then 366 else 365 := by
    cases isLeap (yearOf d) <;> rfl
  have hnext := lt_yearOf_succ d
  have hthis := yearOf_le d
  rw [daysBeforeYear_succ, ← hyear] at hnext
  unfold ordinal
  omega

theorem monthOf_le (d : ℕ) :
    daysBeforeMonth (isLeap (yearOf d)) (monthOf d) ≤ ordinal d := by
  refine lastStep_le ?_
  rw [show daysBeforeMonth (isLeap (yearOf d)) 0 = 0 by simp [daysBeforeMonth]]
  exact Nat.zero_le _

theorem monthOf_le_eleven (d : ℕ) : monthOf d ≤ 11 := by
  unfold monthOf lastStep
  exact Nat.findGreatest_le 11

theorem lt_monthOf_succ (d : ℕ) :
    ordinal d < daysBeforeMonth (isLeap (yearOf d)) (monthOf d + 1) :=
  lt_lastStep_succ (ordinal_lt d)

/-- **The date of a day is on that day.** -/
theorem toDay_ofDay (d : ℕ) : (ofDay d).toDay = d := by
  have hyear := yearOf_le d
  have hmonth := monthOf_le d
  have hordinal : ordinal d = d - daysBeforeYear (yearOf d) := rfl
  simp only [toDay, ofDay, Nat.add_sub_cancel]
  omega

/-- **Dates sort as the days do.** -/
theorem ofDay_lt_iff (d d' : ℕ) : d < d' ↔
    (ofDay d).year < (ofDay d').year ∨ (ofDay d).year = (ofDay d').year ∧
      ((ofDay d).month < (ofDay d').month ∨ (ofDay d).month = (ofDay d').month ∧
        (ofDay d).day < (ofDay d').day) := by
  have hyears := lt_iff_of_steps daysBeforeYear_mono (yearOf_le d) (lt_yearOf_succ d)
    (yearOf_le d') (lt_yearOf_succ d')
  refine hyears.trans (or_congr Iff.rfl (and_congr_right fun hyear => ?_))
  have hmonth := monthOf_le d'
  have hnext := lt_monthOf_succ d'
  rw [← hyear] at hmonth hnext
  have hmonths := lt_iff_of_steps (daysBeforeMonth_mono (isLeap (yearOf d))) (monthOf_le d)
    (lt_monthOf_succ d) hmonth hnext
  refine Iff.trans (Iff.of_eq rfl) (hmonths.trans ?_)
  simp only [ofDay, Nat.add_lt_add_iff_right, Nat.add_right_cancel_iff, ← hyear]

theorem ofDay_month_le (d : ℕ) : (ofDay d).month ≤ 12 :=
  Nat.succ_le_succ (monthOf_le_eleven d)

theorem ofDay_day_le (d : ℕ) : (ofDay d).day ≤ 31 := by
  have hnext := lt_monthOf_succ d
  have hmonth := monthOf_le d
  have hall : ∀ leap, ∀ m < 12, daysBeforeMonth leap (m + 1) ≤ daysBeforeMonth leap m + 31 := by
    decide
  have hlength := hall (isLeap (yearOf d)) (monthOf d) (Nat.lt_succ_of_le (monthOf_le_eleven d))
  simp only [ofDay]
  omega

example : ofDay 739675 = ⟨2025, 2, 28⟩ ∧ ofDay 59 = ⟨0, 2, 29⟩ := by decide

end Date
end Calendar
end Lib
