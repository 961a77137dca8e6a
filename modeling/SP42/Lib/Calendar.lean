import Mathlib.Data.Nat.Init

/-!
The proleptic Gregorian calendar from the year 0 on: how long its years and months are, and
the number of a day, counted from 1 January 1970.
-/
namespace Calendar

def leap (year : Nat) : Bool := (year % 4 == 0 && year % 100 != 0) || year % 400 == 0

def yearDays (year : Nat) : Nat := if leap year then 366 else 365

def monthDays (year month : Nat) : Nat :=
  if month = 2 then (if leap year then 29 else 28)
  else if month ∈ [4, 6, 9, 11] then 30
  else 31

/-- The days of all the years before. -/
def daysBeforeYear : Nat → Nat
  | 0 => 0
  | year + 1 => daysBeforeYear year + yearDays year

/-- The days of the months before, in the year; the first month is 1. -/
def daysBeforeMonth (year : Nat) : Nat → Nat
  | 0 | 1 => 0
  | month + 1 => daysBeforeMonth year month + monthDays year month

structure IsDate (year month day : Nat) : Prop where
  inYear : 1 ≤ month ∧ month ≤ 12
  inMonth : 1 ≤ day ∧ day ≤ monthDays year month

/-- How many days the date is behind 1 January 1970. -/
def dayNumber (year month day : Nat) : Int :=
  (daysBeforeYear year + daysBeforeMonth year month + day : Nat) -
    (daysBeforeYear 1970 + daysBeforeMonth 1970 1 + 1 : Nat)

theorem leap_iff (year : Nat) :
    leap year = true ↔ year % 4 = 0 ∧ year % 100 ≠ 0 ∨ year % 400 = 0 := by
  simp [leap]

/-- One leap year in four, but for the centuries of which one in four is leap. -/
theorem daysBeforeYear_eq (year : Nat) :
    daysBeforeYear year + (year + 99) / 100 = 365 * year + (year + 3) / 4 + (year + 399) / 400 := by
  induction year with
  | zero => rfl
  | succ year ih =>
      rw [daysBeforeYear, yearDays]
      have rule := leap_iff year
      split
      · next isLeap =>
          have cases := rule.mp isLeap
          omega
      · next common =>
          have cases := (not_congr rule).mp common
          omega

theorem monthDays_le (year month : Nat) : monthDays year month ≤ 31 := by
  unfold monthDays
  split
  · split <;> decide
  · split <;> decide

theorem daysBeforeMonth_le (year month : Nat) : daysBeforeMonth year month ≤ 31 * month := by
  induction month with
  | zero => exact Nat.le_refl 0
  | succ month ih =>
      cases month with
      | zero => exact Nat.zero_le _
      | succ month =>
          have last := monthDays_le year (month + 1)
          have step : daysBeforeMonth year (month + 1 + 1) =
            daysBeforeMonth year (month + 1) + monthDays year (month + 1) := rfl
          omega

/-- Twelve months make a year. -/
example (year : Nat) : daysBeforeMonth year 13 = yearDays year := by
  cases h : leap year <;> simp [daysBeforeMonth, monthDays, yearDays, h]

end Calendar
