/-
# Lib.Calendar -- the Gregorian calendar

Days are counted from 1970-01-01, in both directions and without end.  A year is counted from
its March on, so that the day a leap year adds is the last one: `yearDays` is the number of days
before the March of a year, and a day lies in the year whose two bounds it lies between.

* `ofDays`, `toDays`: a day as a date, and a date as a day; `toDays` takes any day of the month;
* `toDays_ofDays`, `ofDays_toDays`: they are inverse to each other on the dates there are;
* `valid_ofDays`: a day is a date there is.
-/
import Mathlib.Tactic.IntervalCases

namespace ChargerStack.Lib.Calendar

set_option autoImplicit false

structure Date where
  year : Int
  month : Int
  day : Int
  deriving DecidableEq, Repr

def leap (year : Int) : Bool := year % 4 = 0 && (year % 100 ≠ 0 || year % 400 = 0)

/-- The days of a month, from 1 on. -/
def daysInMonth (year month : Int) : Int :=
  if month = 2 then if leap year then 29 else 28
  else if month = 4 ∨ month = 6 ∨ month = 9 ∨ month = 11 then 30
  else 31

/-- There is such a date. -/
structure Date.Valid (d : Date) : Prop where
  month : 1 ≤ d.month ∧ d.month ≤ 12
  day : 1 ≤ d.day ∧ d.day ≤ daysInMonth d.year d.month

/-- The days from March of the year 0 to March of another year. -/
def yearDays (year : Int) : Int := 365 * year + year / 4 - year / 100 + year / 400

/-- The days from March to the month that many months behind it. -/
def monthDays (month : Int) : Int := (153 * month + 2) / 5

/-- From March of the year 0 to 1970-01-01. -/
def epoch : Int := 719468

def toDays (d : Date) : Int :=
  let year := if d.month ≤ 2 then d.year - 1 else d.year
  let month := if d.month ≤ 2 then d.month + 9 else d.month - 3
  yearDays year + monthDays month + (d.day - 1) - epoch

/-- The year, from March on, of a day counted from March of the year 0. -/
def yearOf (n : Int) : Int :=
  let guess := 400 * n / 146097
  if yearDays (guess + 1) ≤ n then guess + 1 else guess

def ofDays (n : Int) : Date :=
  let year := yearOf (n + epoch)
  let day := n + epoch - yearDays year
  let month := (5 * day + 2) / 153
  { year := if month < 10 then year else year + 1
    month := if month < 10 then month + 3 else month - 9
    day := day - monthDays month + 1 }

/-- A day lies in its year. -/
theorem yearOf_bounds (n : Int) : yearDays (yearOf n) ≤ n ∧ n < yearDays (yearOf n + 1) := by
  unfold yearOf
  simp only
  split
  · unfold yearDays at *
    omega
  · unfold yearDays at *
    omega

theorem yearDays_succ (year : Int) :
    yearDays (year + 1) = yearDays year + if leap (year + 1) then 366 else 365 := by
  simp only [yearDays, leap, Bool.and_eq_true, Bool.or_eq_true, decide_eq_true_eq]
  split <;> omega

theorem yearDays_le {a b : Int} (le : a ≤ b) : yearDays a ≤ yearDays b := by
  unfold yearDays
  omega

/-- The year is the only one in whose bounds the day lies. -/
theorem yearOf_eq {n year : Int} (after : yearDays year ≤ n) (before : n < yearDays (year + 1)) :
    yearOf n = year := by
  obtain ⟨lower, upper⟩ := yearOf_bounds n
  by_contra other
  rcases lt_or_gt_of_ne other with less | more
  · have le := yearDays_le (show yearOf n + 1 ≤ year by omega)
    omega
  · have le := yearDays_le (show year + 1 ≤ yearOf n by omega)
    omega

/-- The year a date lies in from March on, and the months since that March. -/
def Date.marchYear (d : Date) : Int := if d.month ≤ 2 then d.year - 1 else d.year

def Date.marchMonth (d : Date) : Int := if d.month ≤ 2 then d.month + 9 else d.month - 3

theorem toDays_eq (d : Date) :
    toDays d = yearDays d.marchYear + monthDays d.marchMonth + (d.day - 1) - epoch := rfl

/-- A day of a year, counted from its March. -/
def ofYearDay (year day : Int) : Date :=
  let month := (5 * day + 2) / 153
  { year := if month < 10 then year else year + 1
    month := if month < 10 then month + 3 else month - 9
    day := day - monthDays month + 1 }

theorem ofDays_eq (n : Int) :
    ofDays n = ofYearDay (yearOf (n + epoch)) (n + epoch - yearDays (yearOf (n + epoch))) := rfl

/-- The days a year has from its March on. -/
theorem yearDay_bounds (n : Int) : 0 ≤ n - yearDays (yearOf n) ∧
    n - yearDays (yearOf n) < if leap (yearOf n + 1) then 366 else 365 := by
  obtain ⟨after, before⟩ := yearOf_bounds n
  rw [yearDays_succ] at before
  omega

/-- The length of a month is where the next one begins, but for the last of the year. -/
theorem daysInMonth_march (year : Int) {month : Int} (first : 0 ≤ month) (last : month ≤ 11) :
    daysInMonth (if month < 10 then year else year + 1) (if month < 10 then month + 3 else month - 9) =
      if month = 11 then if leap (year + 1) then 29 else 28
      else monthDays (month + 1) - monthDays month := by
  interval_cases month <;> simp [daysInMonth, monthDays]

section YearDay

variable {year day : Int} (after : 0 ≤ day) (before : day < if leap (year + 1) then 366 else 365)

include after before

/-- The month of a day of the year. -/
theorem month_bounds : 0 ≤ (5 * day + 2) / 153 ∧ (5 * day + 2) / 153 ≤ 11 := by
  have few : day < 366 := by split at before <;> omega
  omega

theorem ofYearDay_march : (ofYearDay year day).marchYear = year ∧
    (ofYearDay year day).marchMonth = (5 * day + 2) / 153 ∧
    (ofYearDay year day).day = day - monthDays ((5 * day + 2) / 153) + 1 := by
  obtain ⟨first, last⟩ := month_bounds after before
  refine ⟨?_, ?_, rfl⟩
  · simp only [Date.marchYear, ofYearDay]
    split <;> split at * <;> omega
  · simp only [Date.marchMonth, ofYearDay]
    split <;> split at * <;> omega

theorem ofYearDay_valid : (ofYearDay year day).Valid := by
  obtain ⟨first, last⟩ := month_bounds after before
  have few : day < 366 := by split at before <;> omega
  constructor
  · simp only [ofYearDay]
    split <;> omega
  · have length : daysInMonth (ofYearDay year day).year (ofYearDay year day).month = _ :=
      daysInMonth_march year first last
    rw [length]
    simp only [ofYearDay, monthDays]
    by_cases february : (5 * day + 2) / 153 = 11
    · rw [if_pos february]
      split at before <;> simp_all <;> omega
    · rw [if_neg february]
      omega

end YearDay

theorem toDays_ofDays (n : Int) : toDays (ofDays n) = n := by
  obtain ⟨after, before⟩ := yearDay_bounds (n + epoch)
  obtain ⟨year, month, day⟩ := ofYearDay_march after before
  rw [ofDays_eq, toDays_eq, year, month, day]
  omega

theorem valid_ofDays (n : Int) : (ofDays n).Valid := by
  obtain ⟨after, before⟩ := yearDay_bounds (n + epoch)
  exact ofYearDay_valid after before

/-- A date from the year and the month it lies in, counted from March. -/
theorem Date.Valid.march {d : Date} (valid : d.Valid) : 0 ≤ d.marchMonth ∧ d.marchMonth ≤ 11 ∧
    (if d.marchMonth < 10 then d.marchYear else d.marchYear + 1) = d.year ∧
    (if d.marchMonth < 10 then d.marchMonth + 3 else d.marchMonth - 9) = d.month := by
  obtain ⟨first, last⟩ := valid.month
  unfold Date.marchMonth Date.marchYear
  refine ⟨?_, ?_, ?_, ?_⟩ <;> split <;> omega

/-- The day of the year of a date there is. -/
theorem Date.Valid.yearDay {d : Date} (valid : d.Valid) :
    0 ≤ monthDays d.marchMonth + (d.day - 1) ∧
      monthDays d.marchMonth + (d.day - 1) < (if leap (d.marchYear + 1) then 366 else 365) ∧
      (5 * (monthDays d.marchMonth + (d.day - 1)) + 2) / 153 = d.marchMonth := by
  obtain ⟨first, last, year, month⟩ := valid.march
  obtain ⟨one, many⟩ := valid.day
  have length := daysInMonth_march d.marchYear first last
  rw [year, month] at length
  rw [length] at many
  simp only [monthDays] at many ⊢
  by_cases february : d.marchMonth = 11
  · rw [if_pos february] at many
    rw [february]
    refine ⟨by omega, ?_, ?_⟩
    · split at many <;> simp_all <;> omega
    · split at many <;> omega
  · rw [if_neg february] at many
    refine ⟨by omega, ?_, by omega⟩
    split <;> omega

theorem ofDays_toDays {d : Date} (valid : d.Valid) : ofDays (toDays d) = d := by
  obtain ⟨first, last, year, month⟩ := valid.march
  obtain ⟨after, before, same⟩ := valid.yearDay
  have back : toDays d + epoch = yearDays d.marchYear + (monthDays d.marchMonth + (d.day - 1)) := by
    rw [toDays_eq]
    omega
  have bound := yearDays_succ d.marchYear
  have inYear : yearOf (toDays d + epoch) = d.marchYear :=
    yearOf_eq (by omega) (by omega)
  rw [ofDays_eq, inYear, back, add_sub_cancel_left, ofYearDay]
  simp only [same, year, month]
  cases d
  simp only [Date.mk.injEq, true_and]
  omega

end ChargerStack.Lib.Calendar
