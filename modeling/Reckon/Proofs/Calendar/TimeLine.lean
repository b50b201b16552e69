import Reckon.Proofs.Calendar.FixedShifts
import Reckon.Proofs.Calendar.Months

/-!
The calendar as a time line. Its days follow one another under consecutive numbers, from the first
instant of its first year to the last one of its last year without a gap. A shift by days, hours,
minutes or seconds is therefore an addition of whole nanoseconds, and it is refused only where the sum
lies outside.
-/

namespace Reckon.Calendar

variable {date : Date} {t u : DateTime} {shift : Shift} {quantity : Float} {month : Nat} {i : Int}

/-- The day after a date: the next one of its month, or else the first one of the next month, which
after the last month is in the next year. -/
def Date.tomorrow (date : Date) : Date :=
  if date.day < daysInMonth date.year date.month then { date with day := date.day + 1 }
  else if date.month < 12 then ⟨date.year, date.month + 1, 1⟩
  else ⟨date.year + 1, 1, 1⟩

theorem daysBeforeMonth_succ (year : Int) (hpos : 1 ≤ month) (hle : month ≤ 12) :
    daysBeforeMonth year (month + 1) = daysBeforeMonth year month + daysInMonth year month := by
  have hindex : month - 1 < (monthLengths year).length := by
    change month - 1 < 12
    omega
  have hmonth : month + 1 - 1 = month - 1 + 1 := by omega
  rw [daysBeforeMonth_eq, daysBeforeMonth_eq, hmonth, List.sum_take_succ _ _ hindex, daysInMonth,
    List.getD_eq_getElem _ _ hindex]

/-- The months of a year fill the days to the next one. -/
theorem daysBeforeYear_of_months (year : Int) :
    daysBeforeYear (year + 1) =
      daysBeforeYear year + (daysBeforeMonth year 12 + daysInMonth year 12 : Nat) := by
  rw [daysBeforeYear_succ, ← daysBeforeMonth_succ year (by decide) (by decide), daysBeforeMonth_eq]
  rfl

theorem Date.proper_first (year : Int) (hpos : 1 ≤ month) (hle : month ≤ 12) :
    (Date.mk year month 1).Proper :=
  ⟨⟨hpos, hle⟩, le_rfl, DateTime.daysInMonth_pos year hpos hle⟩

theorem Date.Proper.tomorrow_proper (h : date.Proper) : date.tomorrow.Proper := by
  obtain ⟨hmonth, -, -⟩ := h
  unfold tomorrow
  split
  case isTrue hwithin => exact ⟨hmonth, Nat.le_add_left 1 _, hwithin⟩
  case isFalse =>
    split
    case isTrue hnext => exact proper_first _ (Nat.le_add_left 1 _) hnext
    case isFalse => exact proper_first _ le_rfl (by decide)

/-- Days are numbered in the order of the calendar, none left out. -/
theorem Date.Proper.dayNumber_tomorrow (h : date.Proper) :
    date.tomorrow.dayNumber = date.dayNumber + 1 := by
  obtain ⟨year, month, day⟩ := date
  obtain ⟨⟨hmonth, hlast⟩, hday, hlength⟩ := h
  simp only at hmonth hlast hday hlength
  simp only [tomorrow]
  split
  case isTrue =>
    simp only [dayNumber]
    omega
  case isFalse hend =>
    split
    case isTrue =>
      simp only [dayNumber, daysBeforeMonth_succ year hmonth hlast]
      omega
    case isFalse hnext =>
      obtain rfl : month = 12 := by omega
      have hyear := daysBeforeYear_of_months year
      have hfirst : daysBeforeMonth (year + 1) 1 = 0 := rfl
      simp only [dayNumber, hfirst] at *
      omega

namespace DateTime

/-- The first instant of the calendar. -/
def first : DateTime := ⟨⟨minYear, 1, 1⟩, ⟨0, 0, 0, 0⟩⟩

/-- The last nanosecond of the calendar, leap seconds aside. -/
def last : DateTime := ⟨⟨maxYear, 12, 31⟩, ⟨23, 59, 59, 999999999⟩⟩

/-- An instant that the calendar reaches. -/
def InstantInRange (i : Int) : Prop := first.instant ≤ i ∧ i ≤ last.instant

instance (i : Int) : Decidable (InstantInRange i) := inferInstanceAs (Decidable (_ ∧ _))

/-- The days of the calendar are the days between its ends. -/
theorem instantInRange_iff_day (i : Int) :
    InstantInRange i ↔
      daysBeforeYear minYear ≤ i / dayNanos ∧ i / dayNanos < daysBeforeYear (maxYear + 1) := by
  have hfirst : first.instant = daysBeforeYear minYear * dayNanos := by decide
  have hlast : last.instant = daysBeforeYear (maxYear + 1) * dayNanos - 1 := by decide
  unfold InstantInRange
  rw [hfirst, hlast]
  unfold dayNanos
  omega

/-- The date of an instant is outside leap seconds, and of the calendar if its year is. -/
theorem ordinary_ofInstant (h : YearInRange (ofInstant i).date.year) : (ofInstant i).Ordinary := by
  have hproper := proper_ofInstant i
  have hnano := nano_ofInstant_lt i
  exact ⟨⟨⟨h, hproper.1⟩, hproper.2.valid hnano⟩, TimeOfDay.isLeapSecond_eq_false_iff.mpr hnano⟩

/-- Outside leap seconds the calendar shows every instant between its ends and no other. -/
theorem exists_ordinary_iff (i : Int) :
    (∃ t : DateTime, t.Ordinary ∧ t.instant = i) ↔ InstantInRange i := by
  constructor
  · rintro ⟨t, ht, rfl⟩
    have hclock := TimeOfDay.seconds_lt ht.1.shown.proper.2
    have hnano := TimeOfDay.isLeapSecond_eq_false_iff.mp ht.2
    have hday : t.instant / dayNanos = t.date.dayNumber := by
      unfold instant dayNanos
      omega
    rw [instantInRange_iff_day, hday]
    exact ht.1.shown.dayNumber_bounds
  · intro h
    rw [instantInRange_iff_day, ← yearInRange_yearOfDay_iff] at h
    exact ⟨ofInstant i, ordinary_ofInstant h, instant_ofInstant i⟩

end DateTime

open DateTime

theorem Shift.apply_of_instantInRange (ht : t.Ordinary) (hfixed : shift.Fixed) {millis : Int}
    (hmillis : shift.millis? quantity = some millis)
    (hrange : InstantInRange (t.instant + millis * 1000000)) :
    ∃ u, shift.apply t quantity = .ok u ∧
      ∀ v : DateTime, v.Ordinary ∧ v.instant = t.instant + millis * 1000000 ↔ v = u := by
  obtain ⟨u, hu, hinstant⟩ := (exists_ordinary_iff _).mpr hrange
  refine ⟨u, (apply_eq_ok_iff_instant ht hfixed).mpr ⟨millis, hmillis, hu, hinstant⟩, ?_⟩
  intro v
  constructor
  · rintro ⟨hv, hsame⟩
    exact hv.eq_of_instant hu (hsame.trans hinstant.symm)
  · rintro rfl
    exact ⟨hu, hinstant⟩

/-- A shift by a span of time is refused where no span is so long, and where the span leads past an end
of the calendar. -/
theorem Shift.refused_of_not_instantInRange (ht : t.Ordinary) (hfixed : shift.Fixed) {value : Rat}
    (hvalue : Binary64.toRat? quantity = some value)
    (hout : ∀ millis, shift.millis? quantity = some millis →
      ¬InstantInRange (t.instant + millis * 1000000)) :
    shift.apply t quantity = .error (.dateOutOfRange shift quantity) := by
  apply refused_of_finite hvalue
  intro u hu
  obtain ⟨millis, hmillis, hordinary, hinstant⟩ := (apply_eq_ok_iff_instant ht hfixed).mp hu
  exact hout millis hmillis ((exists_ordinary_iff _).mp ⟨u, hordinary, hinstant⟩)

/-- A shift by a span of time is exact on the time line. The days of the calendar are numbered one by
one. A quantity stands for a whole number of milliseconds, and the date moved by them is the only one
outside leap seconds whose instant, told to the nanosecond, is that much later. It is refused just where
no such date of the calendar has that instant, and where the product of quantity and unit is not
finite. -/
theorem fixed_shifts_exact :
    (∀ date : Date, date.Proper →
      date.tomorrow.Proper ∧ date.tomorrow.dayNumber = date.dayNumber + 1) ∧
    ∀ (t : DateTime) (shift : Shift) (quantity : Float) (value : Rat), t.Ordinary → shift.Fixed →
      Binary64.toRat? quantity = some value →
      (∀ millis, shift.millis? quantity = some millis →
        (InstantInRange (t.instant + millis * 1000000) →
          ∃ u, shift.apply t quantity = .ok u ∧
            ∀ v : DateTime, v.Ordinary ∧ v.instant = t.instant + millis * 1000000 ↔ v = u) ∧
        (¬InstantInRange (t.instant + millis * 1000000) →
          shift.apply t quantity = .error (.dateOutOfRange shift quantity))) ∧
      (shift.millis? quantity = none →
        shift.apply t quantity = .error (.dateOutOfRange shift quantity)) := by
  refine ⟨fun date h => ⟨h.tomorrow_proper, h.dayNumber_tomorrow⟩, ?_⟩
  intro t shift quantity value ht hfixed hvalue
  refine ⟨?_, ?_⟩
  · intro millis hmillis
    refine ⟨Shift.apply_of_instantInRange ht hfixed hmillis, ?_⟩
    intro hout
    apply Shift.refused_of_not_instantInRange ht hfixed hvalue
    intro found hfound
    obtain rfl : found = millis := Option.some.inj (hfound.symm.trans hmillis)
    exact hout
  · intro hnone
    apply Shift.refused_of_not_instantInRange ht hfixed hvalue
    intro millis hmillis
    rw [hnone] at hmillis
    cases hmillis

/-- The last half hour of the calendar: half of it on, all of it on, and so many hours that their
milliseconds are no finite number. The day before is the end of a century without a leap day. -/
theorem fixed_shifts_exact_last_hour :
    (Date.mk 2100 2 28).tomorrow.dayNumber = (Date.mk 2100 2 28).dayNumber + 1 ∧
      (Date.mk 2100 2 28).tomorrow = ⟨2100, 3, 1⟩ ∧
      (DateTime.mk ⟨262142, 12, 31⟩ ⟨23, 30, 0, 7⟩).Ordinary ∧
      (∀ v : DateTime, v.Ordinary ∧
        v.instant = (DateTime.mk ⟨262142, 12, 31⟩ ⟨23, 30, 0, 7⟩).instant + 900000 * 1000000 →
          v = ⟨⟨262142, 12, 31⟩, ⟨23, 45, 0, 7⟩⟩) ∧
      Shift.hours.apply (DateTime.mk ⟨262142, 12, 31⟩ ⟨23, 30, 0, 7⟩) 0.5 =
        .error (.dateOutOfRange .hours 0.5) ∧
      Shift.hours.apply (DateTime.mk ⟨262142, 12, 31⟩ ⟨23, 30, 0, 7⟩) 1e303 =
        .error (.dateOutOfRange .hours 1e303) := by
  have ht : (DateTime.mk ⟨262142, 12, 31⟩ ⟨23, 30, 0, 7⟩).Ordinary := ⟨by decide, by decide⟩
  have hhours : Shift.hours.Fixed := ⟨by decide, by decide⟩
  obtain ⟨hdays, hshifts⟩ := fixed_shifts_exact
  obtain ⟨value, hvalue⟩ : ∃ value, Binary64.toRat? 1e303 = some value :=
    Option.isSome_iff_exists.mp (by decide +kernel)
  obtain ⟨hquarter, -⟩ := hshifts _ .hours 0.25 (1 / 4) ht hhours (by decide +kernel)
  obtain ⟨hhalf, -⟩ := hshifts _ .hours 0.5 (1 / 2) ht hhours (by decide +kernel)
  obtain ⟨-, hinfinite⟩ := hshifts _ .hours 1e303 value ht hhours hvalue
  obtain ⟨u, hu, honly⟩ := (hquarter 900000 (by decide +kernel)).1 (by decide +kernel)
  have hthere : Shift.hours.apply (DateTime.mk ⟨262142, 12, 31⟩ ⟨23, 30, 0, 7⟩) 0.25 =
      .ok ⟨⟨262142, 12, 31⟩, ⟨23, 45, 0, 7⟩⟩ := by decide +kernel
  obtain rfl : u = ⟨⟨262142, 12, 31⟩, ⟨23, 45, 0, 7⟩⟩ := Except.ok.inj (hu.symm.trans hthere)
  have hday : (Date.mk 2100 2 28).Valid := by decide
  exact ⟨(hdays _ hday.2).2, by decide, ht, fun v => (honly v).mp,
    (hhalf 1800000 (by decide +kernel)).2 (by decide +kernel), hinfinite (by decide +kernel)⟩

end Reckon.Calendar
