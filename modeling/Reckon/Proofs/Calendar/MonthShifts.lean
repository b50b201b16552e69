import Reckon.Proofs.Calendar.Months
import Reckon.Proofs.Calendar.Quantities

/-!
Shifts by months and years. The months of all years are one row, and a shift moves along it by the whole
part of its quantity, twelve times that for years. The month reached tells everything: whether it is
one of the calendar, and which of its days takes the place of the one left.
-/

namespace Reckon.Calendar

open DateTime Rational

variable {t u : DateTime} {shift : Shift} {quantity : Float} {months : Int}

/-- The number of a date's month in the row of the months of all years; January of the year 0 has the
number 0. -/
def Date.monthIndex (date : Date) : Int := 12 * date.year + (date.month - 1 : Nat)

namespace DateTime

theorem MonthsLater.monthIndex_eq (ht : t.Proper) (h : MonthsLater months t u) :
    u.date.monthIndex = t.date.monthIndex + months := by
  have hindex := h.month_index
  have hfirst := h.month_pos
  have hmonth := ht.1.1.1
  unfold Date.monthIndex
  omega

/-- The index of a month tells its year. -/
theorem MonthsLater.year_eq (ht : t.Proper) (h : MonthsLater months t u) :
    u.date.year = (t.date.monthIndex + months) / 12 := by
  have hlast := h.month_le
  rw [← h.monthIndex_eq ht]
  unfold Date.monthIndex
  omega

/-- The index of a month tells which one of its year it is. -/
theorem MonthsLater.month_eq (ht : t.Proper) (h : MonthsLater months t u) :
    (u.date.month : Int) = (t.date.monthIndex + months) % 12 + 1 := by
  have hfirst := h.month_pos
  have hlast := h.month_le
  rw [← h.monthIndex_eq ht]
  unfold Date.monthIndex
  omega

end DateTime

namespace Shift

theorem apply_eq_ok_iff_months (ht : t.Shown) (hcount : shift.monthCount? quantity = some months) :
    shift.apply t quantity = .ok u ↔ MonthsLater months t u ∧ YearInRange u.date.year := by
  rw [apply_eq_ok_iff ht.bounded, meant?_of_monthCount hcount]
  simp only [Option.some.injEq, exists_eq_left']
  exact plusMonths?_eq_some_iff ht

theorem apply_months_of_inRange (ht : t.Shown) (hcount : shift.monthCount? quantity = some months)
    (hyear : YearInRange ((t.date.monthIndex + months) / 12)) :
    ∃ u, shift.apply t quantity = .ok u ∧ MonthsLater months t u := by
  have hlater := monthsLater_monthsOn months ht.proper
  refine ⟨t.monthsOn months, (apply_eq_ok_iff_months ht hcount).mpr ⟨hlater, ?_⟩, hlater⟩
  rw [hlater.year_eq ht.proper]
  exact hyear

theorem apply_months_of_not_inRange (ht : t.Shown) {value : Rat}
    (hvalue : Binary64.toRat? quantity = some value)
    (hcount : shift.monthCount? quantity = some months)
    (hyear : ¬YearInRange ((t.date.monthIndex + months) / 12)) :
    shift.apply t quantity = .error (.dateOutOfRange shift quantity) := by
  apply refused_of_finite hvalue
  intro u hu
  obtain ⟨hlater, hrange⟩ := (apply_eq_ok_iff_months ht hcount).mp hu
  rw [hlater.year_eq ht.proper] at hrange
  exact hyear hrange

/-- Two quantities that come to the same number of months have the same outcome, whichever shift
counts them. -/
theorem apply_months_congr (ht : t.Shown) {shift' : Shift} {quantity' : Float} {value value' : Rat}
    (hvalue : Binary64.toRat? quantity = some value)
    (hvalue' : Binary64.toRat? quantity' = some value')
    (hcount : shift.monthCount? quantity = some months)
    (hcount' : shift'.monthCount? quantity' = some months) :
    (shift.apply t quantity).mapError OperatorError.message =
      (shift'.apply t quantity').mapError OperatorError.message := by
  by_cases hyear : YearInRange ((t.date.monthIndex + months) / 12)
  · obtain ⟨u, hu, hlater⟩ := apply_months_of_inRange ht hcount hyear
    obtain ⟨u', hu', hlater'⟩ := apply_months_of_inRange ht hcount' hyear
    rw [hu, hu', hlater.unique hlater']
  · rw [apply_months_of_not_inRange ht hvalue hcount hyear,
      apply_months_of_not_inRange ht hvalue' hcount' hyear]
    rfl

end Shift

/-- A shift by months or years moves the month and clamps the day. With so many months as the whole part
of the quantity says, twelve times as many for years, it succeeds just where the month reached lies in a
year of the calendar. Then it gives the same day of that month, or the last one where the month is too
short, at the same time of day; else the date is out of range. A number of years is thus that many times
twelve months. -/
theorem month_shifts_clamp (t : DateTime) (ht : t.Valid) (quantity : Float) (value : Rat)
    (hvalue : Binary64.toRat? quantity = some value) :
    (∀ (shift : Shift) (months : Int),
      (shift = .months ∧ months = truncate value) ∨
        (shift = .years ∧ months = 12 * truncate value) →
      ((∃ u, shift.apply t quantity = .ok u) ↔
        YearInRange ((t.date.monthIndex + months) / 12)) ∧
      (∀ u, shift.apply t quantity = .ok u →
        u.date.year = (t.date.monthIndex + months) / 12 ∧
        (u.date.month : Int) = (t.date.monthIndex + months) % 12 + 1 ∧
        u.date.day = min t.date.day (daysInMonth u.date.year u.date.month) ∧
        u.time = t.time) ∧
      (¬YearInRange ((t.date.monthIndex + months) / 12) →
        shift.apply t quantity = .error (.dateOutOfRange shift quantity))) ∧
    ∀ (other : Float) (whole : Rat), Binary64.toRat? other = some whole →
      truncate whole = 12 * truncate value →
      (Shift.years.apply t quantity).mapError OperatorError.message =
        (Shift.months.apply t other).mapError OperatorError.message := by
  have hshown := ht.shown
  have hmonths : Shift.months.monthCount? quantity = some (truncate value) := by
    simp only [Shift.monthCount?, hvalue, Option.map_some]
  have hyears : Shift.years.monthCount? quantity = some (12 * truncate value) := by
    simp only [Shift.monthCount?, hvalue, Option.map_some]
  refine ⟨?_, ?_⟩
  · intro shift months hcases
    have hcount : shift.monthCount? quantity = some months := by
      rcases hcases with ⟨rfl, rfl⟩ | ⟨rfl, rfl⟩
      · exact hmonths
      · exact hyears
    have hmoved {u : DateTime} (hu : shift.apply t quantity = .ok u) : MonthsLater months t u ∧ _ :=
      (Shift.apply_eq_ok_iff_months hshown hcount).mp hu
    refine ⟨⟨?_, ?_⟩, ?_, ?_⟩
    · rintro ⟨u, hu⟩
      obtain ⟨hlater, hrange⟩ := hmoved hu
      rwa [hlater.year_eq hshown.proper] at hrange
    · intro hyear
      obtain ⟨u, hu, -⟩ := Shift.apply_months_of_inRange hshown hcount hyear
      exact ⟨u, hu⟩
    · intro u hu
      obtain ⟨hlater, -⟩ := hmoved hu
      exact ⟨hlater.year_eq hshown.proper, hlater.month_eq hshown.proper, hlater.day_eq,
        hlater.time_eq⟩
    · exact Shift.apply_months_of_not_inRange hshown hvalue hcount
  · intro other whole hother hwhole
    have hcount : Shift.months.monthCount? other = some (12 * truncate value) := by
      simp only [Shift.monthCount?, hother, Option.map_some, hwhole]
    exact Shift.apply_months_congr hshown hvalue hother hyears hcount

/-- Ten months before a leap second at the end of a year there is one in the last day of a leap year's
February, ten years before it is a hundred and twenty months, and four million months after it there is
no calendar any more. -/
theorem month_shifts_clamp_leap_second :
    (DateTime.mk ⟨2016, 12, 31⟩ ⟨23, 59, 59, 1500000000⟩).Valid ∧
      Binary64.toRat? (-10.75) = some (-43 / 4) ∧
      (∃ u, Shift.months.apply (DateTime.mk ⟨2016, 12, 31⟩ ⟨23, 59, 59, 1500000000⟩) (-10.75) =
          .ok u ∧
        u.date.year = 2016 ∧ (u.date.month : Int) = 2 ∧
        u.date.day = min 31 (daysInMonth u.date.year u.date.month) ∧
        u.time = ⟨23, 59, 59, 1500000000⟩) ∧
      daysInMonth 2016 2 = 29 ∧
      (Shift.years.apply (DateTime.mk ⟨2016, 12, 31⟩ ⟨23, 59, 59, 1500000000⟩)
          (-10.75)).mapError OperatorError.message =
        (Shift.months.apply (DateTime.mk ⟨2016, 12, 31⟩ ⟨23, 59, 59, 1500000000⟩)
          (-120.5)).mapError OperatorError.message ∧
      Binary64.toRat? 4000000.0 = some 4000000 ∧
      Shift.months.apply (DateTime.mk ⟨2016, 12, 31⟩ ⟨23, 59, 59, 1500000000⟩) 4000000.0 =
        .error (.dateOutOfRange .months 4000000.0) := by
  have ht : (DateTime.mk ⟨2016, 12, 31⟩ ⟨23, 59, 59, 1500000000⟩).Valid := by decide
  have hback : Binary64.toRat? (-10.75) = some (-43 / 4) := by decide +kernel
  have hforth : Binary64.toRat? 4000000.0 = some 4000000 := by decide +kernel
  obtain ⟨hcounted, hyears⟩ := month_shifts_clamp _ ht _ _ hback
  obtain ⟨hsucceeds, hfields, -⟩ := hcounted .months (-10) (.inl ⟨rfl, by decide +kernel⟩)
  obtain ⟨u, hu⟩ := hsucceeds.mpr (by decide)
  obtain ⟨-, -, hrefused⟩ :=
    (month_shifts_clamp _ ht _ _ hforth).1 .months 4000000 (.inl ⟨rfl, by decide +kernel⟩)
  exact ⟨ht, hback, ⟨u, hu, hfields u hu⟩, by decide,
    hyears (-120.5) (-241 / 2) (by decide +kernel) (by decide +kernel), hforth,
    hrefused (by decide)⟩

end Reckon.Calendar
