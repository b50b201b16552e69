import Mathlib.Tactic.IntervalCases
import Reckon.Calendar.Movement
import Reckon.Proofs.Calendar.Instants

/-!
Months added to a date. The month that a number of months later names is one month of one year, and the
day is the same one or the last of that month; whether the date is one of the calendar is looked at
afterwards. The bound on the number of months at once never shows.
-/

namespace Reckon.Calendar

variable {t u v : DateTime} {months : Int} {month : Nat}

namespace DateTime

/-- What is some months later than a date: so many months on, on the same day or, where the month is too
short, on its last one, at the same time. -/
structure MonthsLater (months : Int) (t u : DateTime) : Prop where
  month_index : 12 * u.date.year + u.date.month = 12 * t.date.year + t.date.month + months
  month_pos : 1 ≤ u.date.month
  month_le : u.date.month ≤ 12
  day_eq : u.date.day = min t.date.day (daysInMonth u.date.year u.date.month)
  time_eq : u.time = t.time

theorem MonthsLater.unique (hu : MonthsLater months t u) (hv : MonthsLater months t v) : u = v := by
  obtain ⟨⟨year, month, day⟩, time⟩ := u
  obtain ⟨⟨year', month', day'⟩, time'⟩ := v
  obtain ⟨hindex, hpos, hle, hday, htime⟩ := hu
  obtain ⟨hindex', hpos', hle', hday', htime'⟩ := hv
  simp only at hindex hpos hle hday htime hindex' hpos' hle' hday' htime'
  obtain rfl : year = year' := by omega
  obtain rfl : month = month' := by omega
  rw [hday, hday', htime, htime']

theorem monthsLater_monthsOn (months : Int) (ht : t.Proper) :
    MonthsLater months t (t.monthsOn months) := by
  have hmonth := ht.1.1
  refine ⟨?_, Nat.le_add_left 1 _, ?_, rfl, rfl⟩
  · simp only [monthsOn]
    omega
  · simp only [monthsOn]
    omega

theorem daysInMonth_pos (year : Int) (hpos : 1 ≤ month) (hle : month ≤ 12) :
    1 ≤ daysInMonth year month := by
  unfold daysInMonth monthLengths
  interval_cases month
  all_goals
    cases isLeap year <;> decide

theorem MonthsLater.proper (ht : t.Proper) (hu : MonthsLater months t u) : u.Proper := by
  have hlength := daysInMonth_pos u.date.year hu.month_pos hu.month_le
  have hday := ht.1.2.1
  refine ⟨⟨⟨hu.month_pos, hu.month_le⟩, ?_, ?_⟩, ?_⟩
  · rw [hu.day_eq]
    exact Nat.le_min.mpr ⟨hday, hlength⟩
  · rw [hu.day_eq]
    exact Nat.min_le_right _ _
  · rw [hu.time_eq]
    exact ht.2

/-- No months later is the date itself. -/
theorem monthsLater_zero (ht : t.Proper) : MonthsLater 0 t t := by
  obtain ⟨⟨hfirst, hlast⟩, -, hday⟩ := ht.1
  exact ⟨by omega, hfirst, hlast, (Nat.min_eq_left hday).symm, rfl⟩

theorem plusMonths?_zero (t : DateTime) : plusMonths? 0 t = some t := rfl

/-- The two calls, forwards and backwards, are one addition of months with a sign; the word that holds
their number is wide enough for all that the library takes. -/
theorem plusMonths?_eq_ite (months : Int) (t : DateTime) :
    plusMonths? months t =
      if months = 0 then some t
      else if months.natAbs ≤ maxMonths then t.diffMonths? months
      else none := by
  unfold plusMonths? Word.half?
  by_cases hhalf : months.natAbs ≤ Word.maxHalf
  · rw [if_pos hhalf]
    by_cases hsign : 0 ≤ months
    · have hforth : (months.natAbs : Int) = months := Int.natAbs_of_nonneg hsign
      rw [Option.bind_eq_bind, Option.bind_some, if_pos hsign]
      change t.addMonths? months.natAbs = _
      simp only [addMonths?, hforth, Int.natAbs_eq_zero]
    · have hback : -(months.natAbs : Int) = months := by omega
      rw [Option.bind_eq_bind, Option.bind_some, if_neg hsign]
      change t.subMonths? months.natAbs = _
      simp only [subMonths?, hback, Int.natAbs_eq_zero]
  · have hlong : ¬months.natAbs ≤ maxMonths := by
      unfold Word.maxHalf at hhalf
      unfold maxMonths
      omega
    have hzero : months ≠ 0 := by
      rintro rfl
      exact hhalf (Nat.zero_le _)
    rw [if_neg hhalf, if_neg hzero, if_neg hlong]
    rfl

/-- The months lead to the date so much later, if it is one of the calendar. -/
theorem plusMonths?_eq (ht : t.Proper) (hyear : t.date.year.natAbs ≤ 262144) (hmonths : months ≠ 0)
    (hu : MonthsLater months t u) : plusMonths? months t = u.inCalendar? := by
  rw [plusMonths?_eq_ite, if_neg hmonths]
  split
  case isTrue hshort => rw [hu.unique (monthsLater_monthsOn months ht), diffMonths?]
  case isFalse hlong =>
    -- so many months lead over all the years of the calendar
    have hyears : ¬YearInRange u.date.year := by
      have hindex := hu.month_index
      have hmonth := ht.1.1.2
      have hmonth' := hu.month_le
      unfold maxMonths at hlong
      unfold YearInRange minYear maxYear
      omega
    rw [inCalendar?, if_neg hyears]

/-- A date of the calendar is moved by months to the date so much later, if that is one too. -/
theorem plusMonths?_eq_some_iff (ht : t.Shown) :
    plusMonths? months t = some u ↔ MonthsLater months t u ∧ YearInRange u.date.year := by
  by_cases hzero : months = 0
  · subst hzero
    have hsame := monthsLater_zero ht.proper
    rw [plusMonths?_zero, Option.some_inj]
    constructor
    · rintro rfl
      exact ⟨hsame, ht.yearInRange⟩
    · rintro ⟨hu, -⟩
      exact hsame.unique hu
  · have hyear : t.date.year.natAbs ≤ 262144 := by
      have hrange := ht.yearInRange
      unfold YearInRange minYear maxYear at hrange
      omega
    have hlater := monthsLater_monthsOn months ht.proper
    rw [plusMonths?_eq ht.proper hyear hzero hlater, inCalendar?_eq_some_iff]
    constructor
    · rintro ⟨hrange, rfl⟩
      exact ⟨hlater, hrange⟩
    · rintro ⟨hu, hrange⟩
      obtain rfl := hlater.unique hu
      exact ⟨hrange, rfl⟩

/-- A date moved by months stays one of the calendar on the clock. -/
theorem Shown.of_plusMonths? (ht : t.Shown) (h : plusMonths? months t = some u) : u.Shown := by
  obtain ⟨hlater, hrange⟩ := (plusMonths?_eq_some_iff ht).mp h
  refine ⟨hrange, hlater.proper ht.proper, ?_⟩
  rw [hlater.time_eq]
  exact ht.nano_lt

end DateTime

namespace Zoned

private theorem onLocal?_eq_bind (move? : DateTime → Option DateTime) (z : Zoned) :
    z.onLocal? move? = (move? z.localTime).bind fun moved =>
      (moved.translate (-z.offset)).inCalendar?.map (⟨·, z.offset⟩) := by
  unfold onLocal?
  cases move? z.localTime with
  | none => rfl
  | some moved =>
    change (moved.translate (-z.offset)).inCalendar?.bind _ = _
    rw [Option.bind_some]
    cases (moved.translate (-z.offset)).inCalendar? <;> rfl

/-- Months are counted on the local calendar, and the outcome is taken back to universal time. -/
theorem plusMonths?_eq_bind (z : Zoned) (months : Int) :
    plusMonths? months z = (plusMonths? months z.localTime).bind fun shifted =>
      (shifted.translate (-z.offset)).inCalendar?.map (⟨·, z.offset⟩) := by
  unfold plusMonths?
  cases Word.half? months.natAbs with
  | none => rfl
  | some count =>
    simp only [Option.bind_eq_bind, Option.bind_some]
    by_cases hsign : 0 ≤ months
    · rw [if_pos hsign, if_pos hsign]
      exact onLocal?_eq_bind _ z
    · rw [if_neg hsign, if_neg hsign]
      exact onLocal?_eq_bind _ z

end Zoned
end Reckon.Calendar
