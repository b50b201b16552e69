import Reckon.Proofs.Binary64.Sign
import Reckon.Proofs.Calendar.MonthShifts

/-!
Months added one number after another. Both ways lead to the same month at the same time of day, but the
day passes through every month on the way and comes out of the shortest one, so that the longer way may
only lose days. Nothing is lost where the day exists in the month between; there and back again is then
no way at all.
-/

namespace Reckon.Calendar

open Rational

variable {t u v w : DateTime} {first second whole shift : Shift} {p q r quantity : Float}
  {a b months : Int}

namespace DateTime

/-- The day of a date exists in the month of another one. -/
def DayFits (t u : DateTime) : Prop := t.date.day ≤ daysInMonth u.date.year u.date.month

/-- However the months are portioned, they lead to one month. -/
theorem MonthsLater.same_month (hu : MonthsLater a t u) (hv : MonthsLater b u v)
    (hw : MonthsLater (a + b) t w) :
    v.date.year = w.date.year ∧ v.date.month = w.date.month := by
  have hindex := hv.month_index
  have hbetween := hu.month_index
  have hwhole := hw.month_index
  have hfirst := hv.month_pos
  have hfirst' := hw.month_pos
  have hlast := hv.month_le
  have hlast' := hw.month_le
  omega

/-- The day comes out of the shortest month on the way. -/
theorem MonthsLater.day_of_two (hu : MonthsLater a t u) (hv : MonthsLater b u v) :
    v.date.day = min t.date.day
      (min (daysInMonth u.date.year u.date.month) (daysInMonth v.date.year v.date.month)) := by
  rw [hv.day_eq, hu.day_eq, Nat.min_assoc]

/-- Two ways lose no fewer days than one. -/
theorem MonthsLater.day_le_of_two (hu : MonthsLater a t u) (hv : MonthsLater b u v)
    (hw : MonthsLater (a + b) t w) : v.date.day ≤ w.date.day := by
  obtain ⟨hyear, hmonth⟩ := hu.same_month hv hw
  rw [hu.day_of_two hv, hw.day_eq, ← hyear, ← hmonth]
  omega

/-- Where the day exists in the month between, the two ways are one. -/
theorem MonthsLater.trans_of_fits (hu : MonthsLater a t u) (hv : MonthsLater b u v)
    (hfits : DayFits t u) : MonthsLater (a + b) t v := by
  refine ⟨?_, hv.month_pos, hv.month_le, ?_, hv.time_eq.trans hu.time_eq⟩
  · rw [hv.month_index, hu.month_index, Int.add_assoc]
  · have hday : u.date.day = t.date.day := by
      rw [hu.day_eq]
      exact Nat.min_eq_left hfits
    rw [hv.day_eq, hday]

/-- There and back again restores a date exactly if its day exists in the month between. -/
theorem MonthsLater.back_eq_iff (ht : t.Proper) (hu : MonthsLater a t u)
    (hv : MonthsLater (-a) u v) : v = t ↔ DayFits t u := by
  constructor
  · rintro rfl
    have hday := hu.day_of_two hv
    unfold DayFits
    omega
  · intro hfits
    have hsame := hu.trans_of_fits hv hfits
    rw [Int.add_right_neg] at hsame
    exact hsame.unique (monthsLater_zero ht)

end DateTime

open DateTime

namespace Shift

/-- The opposite quantity counts the opposite months. -/
theorem monthCount?_neg (hcount : shift.monthCount? quantity = some months) :
    shift.monthCount? (-quantity) = some (-months) := by
  have hopposite : shift.monthCount? (-quantity) = (shift.monthCount? quantity).map (- ·) := by
    unfold monthCount?
    rw [Binary64.toRat?_neg]
    cases Binary64.toRat? quantity with
    | none => cases shift <;> rfl
    | some value =>
      cases shift with
      | years =>
        change some (12 * truncate (-value)) = some (-(12 * truncate value))
        rw [truncate_neg, Int.mul_neg]
      | months => exact congrArg some (truncate_neg value)
      | days | plus | minus | hours | minutes | seconds => rfl
  rw [hopposite, hcount]
  rfl

/-- A number of months succeeds just where the month that it reaches is one of the calendar. -/
theorem exists_apply_months_iff (ht : t.Shown) (hcount : shift.monthCount? quantity = some months) :
    (∃ u, shift.apply t quantity = .ok u) ↔
      YearInRange ((t.date.monthIndex + months) / 12) := by
  constructor
  · rintro ⟨u, hu⟩
    obtain ⟨hlater, hrange⟩ := (apply_eq_ok_iff_months ht hcount).mp hu
    rwa [hlater.year_eq ht.proper] at hrange
  · intro hyear
    obtain ⟨u, hu, -⟩ := apply_months_of_inRange ht hcount hyear
    exact ⟨u, hu⟩

/-- What one step of months leads to, on the calendar and on the row of months. -/
theorem shown_of_apply_months (ht : t.Shown) (hcount : shift.monthCount? quantity = some months)
    (h : shift.apply t quantity = .ok u) :
    u.Shown ∧ MonthsLater months t u ∧ u.date.monthIndex = t.date.monthIndex + months := by
  obtain ⟨hlater, hrange⟩ := (apply_eq_ok_iff_months ht hcount).mp h
  have hshown := Shown.of_plusMonths? ht ((plusMonths?_eq_some_iff ht).mpr ⟨hlater, hrange⟩)
  exact ⟨hshown, hlater, hlater.monthIndex_eq ht.proper⟩

/-- After a first step the second one succeeds just where both together do. -/
theorem exists_apply_second_iff (ht : t.Shown) (hfirst : first.monthCount? p = some a)
    (hsecond : second.monthCount? q = some b) (hwhole : whole.monthCount? r = some (a + b))
    (hu : first.apply t p = .ok u) :
    (∃ v, second.apply u q = .ok v) ↔ ∃ w, whole.apply t r = .ok w := by
  obtain ⟨hshown, -, hindex⟩ := shown_of_apply_months ht hfirst hu
  rw [exists_apply_months_iff hshown hsecond, exists_apply_months_iff ht hwhole, hindex,
    Int.add_assoc]

/-- The way back is always open. -/
theorem exists_apply_back (ht : t.Shown) (hfirst : first.monthCount? p = some a)
    (hsecond : second.monthCount? q = some (-a)) (hu : first.apply t p = .ok u) :
    ∃ v, second.apply u q = .ok v ∧ (v = t ↔ DayFits t u) := by
  obtain ⟨hshown, hthere, hindex⟩ := shown_of_apply_months ht hfirst hu
  have hyear : YearInRange ((u.date.monthIndex + -a) / 12) := by
    have hhere := (monthsLater_zero ht.proper).year_eq ht.proper
    rw [hindex, Int.add_neg_cancel_right, ← Int.add_zero t.date.monthIndex, ← hhere]
    exact ht.yearInRange
  obtain ⟨v, hv, hback⟩ := apply_months_of_inRange hshown hsecond hyear
  exact ⟨v, hv, hthere.back_eq_iff ht.proper hback⟩

end Shift

/-- Shifts by months and years, one after another and in one. After a first step the second one succeeds
just where both together do. The two ways then lead to the same month of the same year at the same time;
on the longer one the day is the least of the original day and the lengths of the two months reached,
never a later one than on the shorter, and the dates are the same where the original day exists in the
month between. The opposite number of months, such as the opposite quantity counts, is always accepted,
and restores the date exactly if its day exists in the month between. -/
theorem month_shifts_compose (t : DateTime) (ht : t.Valid) (first second : Shift) (p q : Float)
    (a b : Int) (hfirst : first.monthCount? p = some a) (hsecond : second.monthCount? q = some b)
    (u : DateTime) (hu : first.apply t p = .ok u) :
    (∀ (whole : Shift) (r : Float), whole.monthCount? r = some (a + b) →
      ((∃ v, second.apply u q = .ok v) ↔ ∃ w, whole.apply t r = .ok w) ∧
      ∀ v w, second.apply u q = .ok v → whole.apply t r = .ok w →
        v.date.year = w.date.year ∧ v.date.month = w.date.month ∧ v.time = w.time ∧
        v.date.day = min t.date.day (min (daysInMonth u.date.year u.date.month)
          (daysInMonth v.date.year v.date.month)) ∧
        v.date.day ≤ w.date.day ∧
        (t.date.day ≤ daysInMonth u.date.year u.date.month → v = w)) ∧
    (b = -a → ∃ v, second.apply u q = .ok v ∧
      (v = t ↔ t.date.day ≤ daysInMonth u.date.year u.date.month)) ∧
    first.monthCount? (-p) = some (-a) := by
  have hshown := ht.shown
  obtain ⟨hshown', hthere, -⟩ := Shift.shown_of_apply_months hshown hfirst hu
  refine ⟨?_, ?_, Shift.monthCount?_neg hfirst⟩
  · intro whole r hwhole
    refine ⟨Shift.exists_apply_second_iff hshown hfirst hsecond hwhole hu, ?_⟩
    intro v w hv hw
    obtain ⟨-, hon, -⟩ := Shift.shown_of_apply_months hshown' hsecond hv
    obtain ⟨-, honce, -⟩ := Shift.shown_of_apply_months hshown hwhole hw
    obtain ⟨hyear, hmonth⟩ := hthere.same_month hon honce
    have htime : v.time = w.time := by
      rw [hon.time_eq, hthere.time_eq, honce.time_eq]
    refine ⟨hyear, hmonth, htime, hthere.day_of_two hon, hthere.day_le_of_two hon honce, ?_⟩
    intro hfits
    exact (hthere.trans_of_fits hon hfits).unique honce
  · rintro rfl
    exact Shift.exists_apply_back hshown hfirst hsecond hu

/-- From a leap second on the last day of a year by way of February, where three days are lost, and by way
of another December, where none is. -/
theorem month_shifts_compose_leap_second :
    (DateTime.mk ⟨2016, 12, 31⟩ ⟨23, 59, 59, 1500000000⟩).Valid ∧
      Shift.months.monthCount? 2.0 = some 2 ∧
      Shift.months.apply (DateTime.mk ⟨2016, 12, 31⟩ ⟨23, 59, 59, 1500000000⟩) 2.0 =
        .ok ⟨⟨2017, 2, 28⟩, ⟨23, 59, 59, 1500000000⟩⟩ ∧
      Shift.months.monthCount? 1.5 = some 1 ∧
      Shift.months.apply (DateTime.mk ⟨2017, 2, 28⟩ ⟨23, 59, 59, 1500000000⟩) 1.5 =
        .ok ⟨⟨2017, 3, 28⟩, ⟨23, 59, 59, 1500000000⟩⟩ ∧
      (28 = min 31 (min (daysInMonth 2017 2) (daysInMonth 2017 3)) ∧ 28 ≤ 31) ∧
      (∃ v, Shift.months.apply (DateTime.mk ⟨2017, 2, 28⟩ ⟨23, 59, 59, 1500000000⟩) (-2.0) = .ok v ∧
        v ≠ ⟨⟨2016, 12, 31⟩, ⟨23, 59, 59, 1500000000⟩⟩) ∧
      Shift.years.monthCount? (-3.0) = some (-36) ∧
      Shift.years.monthCount? 3.0 = some 36 ∧
      Shift.years.apply (DateTime.mk ⟨2013, 12, 31⟩ ⟨23, 59, 59, 1500000000⟩) 3.0 =
        .ok ⟨⟨2016, 12, 31⟩, ⟨23, 59, 59, 1500000000⟩⟩ := by
  have ht : (DateTime.mk ⟨2016, 12, 31⟩ ⟨23, 59, 59, 1500000000⟩).Valid := by decide
  have htwo : Shift.months.monthCount? 2.0 = some 2 := by decide +kernel
  have hone : Shift.months.monthCount? 1.5 = some 1 := by decide +kernel
  have hback : Shift.years.monthCount? (-3.0) = some (-36) := by decide +kernel
  have hforth : Shift.years.monthCount? 3.0 = some 36 := by decide +kernel
  have hfebruary : Shift.months.apply (DateTime.mk ⟨2016, 12, 31⟩ ⟨23, 59, 59, 1500000000⟩) 2.0 =
      .ok ⟨⟨2017, 2, 28⟩, ⟨23, 59, 59, 1500000000⟩⟩ := by decide +kernel
  have hmarch : Shift.months.apply (DateTime.mk ⟨2017, 2, 28⟩ ⟨23, 59, 59, 1500000000⟩) 1.5 =
      .ok ⟨⟨2017, 3, 28⟩, ⟨23, 59, 59, 1500000000⟩⟩ := by decide +kernel
  have hatOnce : Shift.months.apply (DateTime.mk ⟨2016, 12, 31⟩ ⟨23, 59, 59, 1500000000⟩) 3.0 =
      .ok ⟨⟨2017, 3, 31⟩, ⟨23, 59, 59, 1500000000⟩⟩ := by decide +kernel
  have hearlier : Shift.years.apply (DateTime.mk ⟨2016, 12, 31⟩ ⟨23, 59, 59, 1500000000⟩) (-3.0) =
      .ok ⟨⟨2013, 12, 31⟩, ⟨23, 59, 59, 1500000000⟩⟩ := by decide +kernel
  obtain ⟨hcompose, -, -⟩ :=
    month_shifts_compose _ ht .months .months 2.0 1.5 2 1 htwo hone _ hfebruary
  obtain ⟨-, -, -, hday, hle, -⟩ := (hcompose .months 3.0 (by decide +kernel)).2 _ _ hmarch hatOnce
  obtain ⟨-, hlost, -⟩ :=
    month_shifts_compose _ ht .months .months 2.0 (-2.0) 2 (-2) htwo (by decide +kernel) _ hfebruary
  obtain ⟨x, hx, hxt⟩ := hlost rfl
  obtain ⟨-, hkept, -⟩ :=
    month_shifts_compose _ ht .years .years (-3.0) 3.0 (-36) 36 hback hforth _ hearlier
  obtain ⟨y, hy, hyt⟩ := hkept rfl
  rw [hyt.mpr (by decide)] at hy
  exact ⟨ht, htwo, hfebruary, hone, hmarch, ⟨hday, hle⟩,
    ⟨x, hx, fun hsame => absurd (hxt.mp hsame) (by decide)⟩, hback, hforth, hy⟩

end Reckon.Calendar
