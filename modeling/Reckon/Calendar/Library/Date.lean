/-!
Dates of the proleptic Gregorian calendar, and days as whole numbers, as the calendar library `chrono`
has them: its `NaiveDate`. Day zero is the first of January of the year 1; years go on below it through 0
and the negative ones, with the same leap rule. The library has the years from -262143 to 262142.
-/

namespace Reckon.Calendar

/-- A year, a month counted from 1, and a day of the month counted from 1. -/
structure Date where
  year : Int
  month : Nat
  day : Nat
deriving DecidableEq

def minYear : Int := -262143

def maxYear : Int := 262142

def YearInRange (year : Int) : Prop := minYear ≤ year ∧ year ≤ maxYear

instance (year : Int) : Decidable (YearInRange year) :=
  inferInstanceAs (Decidable (minYear ≤ year ∧ year ≤ maxYear))

def isLeap (year : Int) : Bool := year % 4 = 0 && (year % 100 ≠ 0 || year % 400 = 0)

def monthLengths (year : Int) : List Nat :=
  [31, if isLeap year then 29 else 28, 31, 30, 31, 30, 31, 31, 30, 31, 30, 31]

/-- The number of days of a month; a month that does not exist has none. -/
def daysInMonth (year : Int) (month : Nat) : Nat := (monthLengths year).getD (month - 1) 0

def Date.Valid (date : Date) : Prop :=
  YearInRange date.year ∧ (1 ≤ date.month ∧ date.month ≤ 12) ∧
    1 ≤ date.day ∧ date.day ≤ daysInMonth date.year date.month

instance (date : Date) : Decidable date.Valid := inferInstanceAs (Decidable (_ ∧ _ ∧ _))

/-- The number of days from day zero to the first day of a year. -/
def daysBeforeYear (year : Int) : Int :=
  let past := year - 1
  365 * past + past / 4 - past / 100 + past / 400

def daysBeforeMonth (year : Int) (month : Nat) : Nat :=
  ((monthLengths year).take (month - 1)).foldr (· + ·) 0

def Date.dayNumber (date : Date) : Int :=
  daysBeforeYear date.year + daysBeforeMonth date.year date.month + (date.day - 1 : Nat)

/-- The year in which a day lies. The mean length of a year gives it up to one. -/
def yearOfDay (n : Int) : Int :=
  let guess := 400 * n / 146097 + 1
  if n < daysBeforeYear guess then guess - 1
  else if daysBeforeYear (guess + 1) ≤ n then guess + 1
  else guess

/-- How many months of the given lengths are over when `days` days have passed, and how many days have
passed since. -/
def splitDays : List Nat → Nat → Nat × Nat
  | [], days => (0, days)
  | length :: rest, days =>
    if days < length then (0, days)
    else
      let split := splitDays rest (days - length)
      (split.1 + 1, split.2)

def Date.ofDayNumber (n : Int) : Date :=
  let year := yearOfDay n
  let split := splitDays (monthLengths year) (n - daysBeforeYear year).toNat
  ⟨year, split.1 + 1, split.2 + 1⟩

example : Date.ofDayNumber 0 = ⟨1, 1, 1⟩ ∧ Date.ofDayNumber (-1) = ⟨0, 12, 31⟩ ∧
    Date.ofDayNumber 719162 = ⟨1970, 1, 1⟩ ∧ (Date.mk 2000 2 29).dayNumber = 730178 ∧
    Date.ofDayNumber 730178 = ⟨2000, 2, 29⟩ := by decide +kernel

end Reckon.Calendar
