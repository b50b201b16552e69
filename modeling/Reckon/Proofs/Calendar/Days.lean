import Mathlib.Algebra.GroupWithZero.Nat
import Mathlib.Tactic.ByContra
import Reckon.Calendar.Library.Date

/-!
Days and dates are two names of the same thing. Every whole number is the number of one date, in the
calendar or not, and every date that has its month and its day has the number from which it is read
back. The years of the calendar are one unbroken row of days.
-/

namespace Reckon.Calendar

variable {lengths : List Nat} {date : Date} {year n : Int} {days i : Nat}

/-- A month of the year and a day of that month, in whatever year. -/
def Date.Proper (date : Date) : Prop :=
  (1 ≤ date.month ∧ date.month ≤ 12) ∧ 1 ≤ date.day ∧ date.day ≤ daysInMonth date.year date.month

/-- The days of the months of a year are the days from its first one to the first of the next year. -/
theorem daysBeforeYear_succ (year : Int) :
    daysBeforeYear (year + 1) = daysBeforeYear year + ((monthLengths year).sum : Nat) := by
  have hsum : (monthLengths year).sum = if isLeap year then 366 else 365 := by
    unfold monthLengths
    cases isLeap year <;> rfl
  rw [hsum]
  by_cases hleap : isLeap year = true
  · rw [if_pos hleap]
    simp only [isLeap, Bool.and_eq_true, Bool.or_eq_true, decide_eq_true_eq] at hleap
    unfold daysBeforeYear
    simp only
    omega
  · rw [if_neg hleap]
    simp only [isLeap, Bool.and_eq_true, Bool.or_eq_true, decide_eq_true_eq] at hleap
    unfold daysBeforeYear
    simp only
    omega

theorem daysBeforeYear_mono {earlier later : Int} (h : earlier ≤ later) :
    daysBeforeYear earlier ≤ daysBeforeYear later := by
  unfold daysBeforeYear
  simp only
  omega

/-- The mean length of a year tells the year of a day up to one. -/
theorem daysBeforeYear_guess (n : Int) :
    daysBeforeYear (400 * n / 146097 + 1 - 1) ≤ n ∧
      n < daysBeforeYear (400 * n / 146097 + 1 + 1 + 1) := by
  unfold daysBeforeYear
  simp only
  omega

/-- A day lies in its year. -/
theorem yearOfDay_spec (n : Int) :
    daysBeforeYear (yearOfDay n) ≤ n ∧ n < daysBeforeYear (yearOfDay n + 1) := by
  obtain ⟨hfrom, huntil⟩ := daysBeforeYear_guess n
  unfold yearOfDay
  simp only
  split
  case isTrue hearly =>
    rw [Int.sub_add_cancel]
    exact ⟨hfrom, hearly⟩
  case isFalse hstarted =>
    split
    case isTrue hlate => exact ⟨hlate, huntil⟩
    case isFalse hin => exact ⟨Int.not_lt.mp hstarted, Int.not_le.mp hin⟩

/-- A year has begun by the days that lie in it or after it. -/
theorem le_yearOfDay_iff (year n : Int) : year ≤ yearOfDay n ↔ daysBeforeYear year ≤ n := by
  obtain ⟨hfrom, huntil⟩ := yearOfDay_spec n
  constructor
  · intro hbegun
    exact Int.le_trans (daysBeforeYear_mono hbegun) hfrom
  · intro hbegun
    by_contra hlater
    have hmono := daysBeforeYear_mono (Int.add_one_le_iff.mpr (Int.not_le.mp hlater))
    omega

theorem yearOfDay_eq (hfrom : daysBeforeYear year ≤ n) (huntil : n < daysBeforeYear (year + 1)) :
    yearOfDay n = year := by
  have hbegun := (le_yearOfDay_iff year n).mpr hfrom
  have hnext := (le_yearOfDay_iff (year + 1) n).not.mpr (Int.not_le.mpr huntil)
  omega

theorem yearInRange_yearOfDay_iff (n : Int) :
    YearInRange (yearOfDay n) ↔ daysBeforeYear minYear ≤ n ∧ n < daysBeforeYear (maxYear + 1) := by
  rw [← le_yearOfDay_iff, ← Int.not_le, ← le_yearOfDay_iff]
  unfold YearInRange
  omega

/-- Days that lie in a row of months are so many whole months and a day of the next one. -/
theorem splitDays_spec (h : days < lengths.sum) :
    (splitDays lengths days).1 < lengths.length ∧
      (splitDays lengths days).2 < lengths.getD (splitDays lengths days).1 0 ∧
      (lengths.take (splitDays lengths days).1).sum + (splitDays lengths days).2 = days := by
  induction lengths generalizing days with
  | nil => simp at h
  | cons length rest ih =>
    unfold splitDays
    split
    case isTrue hfirst => simpa using hfirst
    case isFalse hlater =>
      rw [List.sum_cons] at h
      have hwithin : days - length < rest.sum := by omega
      obtain ⟨hmonth, hday, hdays⟩ := ih hwithin
      simp only [List.length_cons, List.getD_cons_succ, List.take_succ_cons, List.sum_cons]
      omega

/-- They are so in one way only. -/
theorem splitDays_take (hday : days < lengths.getD i 0) :
    splitDays lengths ((lengths.take i).sum + days) = (i, days) := by
  induction lengths generalizing i with
  | nil => simp at hday
  | cons length rest ih =>
    cases i with
    | zero =>
      have hfirst : days < length := hday
      simp [splitDays, hfirst]
    | succ i =>
      have hrest := ih (i := i) hday
      have hlater : ¬length + (rest.take i).sum + days < length := by omega
      rw [List.take_succ_cons, List.sum_cons, splitDays, if_neg hlater, Nat.add_assoc,
        Nat.add_sub_cancel_left, hrest]

theorem take_sum_add_lt (hday : days < lengths.getD i 0) :
    (lengths.take i).sum + days < lengths.sum := by
  induction lengths generalizing i with
  | nil => simp at hday
  | cons length rest ih =>
    cases i with
    | zero =>
      have hfirst : days < length := hday
      simp only [List.take_zero, List.sum_nil, List.sum_cons]
      omega
    | succ i =>
      have hrest := ih (i := i) hday
      simp only [List.take_succ_cons, List.sum_cons]
      omega

theorem daysBeforeMonth_eq (year : Int) (month : Nat) :
    daysBeforeMonth year month = ((monthLengths year).take (month - 1)).sum := rfl

/-- The days of a date's year that are over lie in the row of its months. -/
theorem Date.day_lt_length (h : date.Proper) :
    date.day - 1 < (monthLengths date.year).getD (date.month - 1) 0 := by
  have hlength : date.day ≤ (monthLengths date.year).getD (date.month - 1) 0 := h.2.2
  have hday := h.2.1
  omega

/-- A date in its month has the number from which it is read back. -/
theorem Date.ofDayNumber_dayNumber (h : date.Proper) : ofDayNumber date.dayNumber = date := by
  have hlength := day_lt_length h
  have hwithin := take_sum_add_lt hlength
  rw [← daysBeforeMonth_eq] at hwithin
  have hyear : yearOfDay date.dayNumber = date.year := by
    apply yearOfDay_eq
    · unfold dayNumber
      omega
    · rw [daysBeforeYear_succ]
      unfold dayNumber
      omega
  have hdays : (date.dayNumber - daysBeforeYear date.year).toNat =
      ((monthLengths date.year).take (date.month - 1)).sum + (date.day - 1) := by
    rw [← daysBeforeMonth_eq]
    unfold dayNumber
    omega
  obtain ⟨⟨hfirst, -⟩, hday, -⟩ := h
  unfold ofDayNumber
  simp only [hyear, hdays, splitDays_take hlength, Nat.sub_add_cancel hfirst,
    Nat.sub_add_cancel hday]

/-- Two dates in their months with one number are the same. -/
theorem Date.Proper.eq_of_dayNumber {other : Date} (h : date.Proper) (hother : other.Proper)
    (hnumber : date.dayNumber = other.dayNumber) : date = other := by
  rw [← ofDayNumber_dayNumber h, hnumber, ofDayNumber_dayNumber hother]

/-- The days of a year that are over on some day of it. -/
theorem dayOfYear_lt (n : Int) :
    (n - daysBeforeYear (yearOfDay n)).toNat < (monthLengths (yearOfDay n)).sum := by
  obtain ⟨hfrom, huntil⟩ := yearOfDay_spec n
  rw [daysBeforeYear_succ] at huntil
  omega

theorem Date.proper_ofDayNumber (n : Int) : (ofDayNumber n).Proper := by
  obtain ⟨hmonth, hday, -⟩ := splitDays_spec (dayOfYear_lt n)
  have htwelve : (monthLengths (yearOfDay n)).length = 12 := rfl
  rw [htwelve] at hmonth
  exact ⟨⟨Nat.le_add_left 1 _, hmonth⟩, Nat.le_add_left 1 _, hday⟩

@[simp] theorem Date.dayNumber_ofDayNumber (n : Int) : (ofDayNumber n).dayNumber = n := by
  obtain ⟨-, -, hdays⟩ := splitDays_spec (dayOfYear_lt n)
  have hfrom := (yearOfDay_spec n).1
  unfold dayNumber ofDayNumber
  simp only [daysBeforeMonth_eq, Nat.add_sub_cancel]
  omega

end Reckon.Calendar
