import Reckon.Proofs.Calendar.Months
import Reckon.Proofs.Calendar.Quantities
import Reckon.Proofs.Run

/-!
Dates in a zone move as their dates in universal time do, months apart. A number of months is counted on
the calendar of the zone, which may show a date outside the years of the calendar; only the date it
leads to has to be one of it, in the zone and in universal time. In universal time itself the two ways
are the same.
-/

namespace Reckon.Calendar

variable {t u here there moved : DateTime} {z z' : Zoned} {shift : Shift} {quantity : Float}
  {seconds months : Int}

namespace DateTime

/-- A date as a clock shows it that is some seconds ahead. The nanoseconds are the same, also inside a
leap second. -/
structure Ahead (seconds : Int) (t here : DateTime) : Prop where
  proper : here.Proper
  instant_add : here.instant = t.instant + seconds * 1000000000
  nano_same : here.time.nano = t.time.nano

theorem Ahead.unique (h : Ahead seconds t here) (h' : Ahead seconds t there) : here = there := by
  have hnano := h.nano_same.trans h'.nano_same.symm
  have hinstant := h.instant_add.trans h'.instant_add.symm
  rw [instant_eq, instant_eq, hnano] at hinstant
  exact h.proper.eq_of_seconds h'.proper (by omega) hnano

private theorem ahead_translate (seconds : Int) (t : DateTime) :
    Ahead seconds t (t.translate seconds) := by
  refine ⟨proper_translate seconds t, ?_, rfl⟩
  rw [instant_eq, instant_eq, seconds_translate, nano_translate]
  ring

theorem Proper.translate_zero (ht : t.Proper) : t.translate 0 = t := by
  have hsame : Ahead 0 t t := ⟨ht, by ring, rfl⟩
  exact (ahead_translate 0 t).unique hsame

theorem Proper.translate_back (ht : t.Proper) (seconds : Int) :
    (t.translate seconds).translate (-seconds) = t := by
  have hforth := ahead_translate seconds t
  have hback : Ahead (-seconds) (t.translate seconds) t := by
    refine ⟨ht, ?_, hforth.nano_same.symm⟩
    rw [hforth.instant_add]
    ring
  exact (ahead_translate (-seconds) _).unique hback

end DateTime

namespace Zoned

/-- A date that universal time can show, in a zone less than a day away. -/
structure Shown (z : Zoned) : Prop where
  utc : z.utc.Shown
  offset_lt : z.offset.natAbs < 86400

/-- The local date lies in a year of the calendar or in one next to them. -/
theorem Shown.year_localTime (h : z.Shown) : z.localTime.date.year.natAbs ≤ 262144 := by
  obtain ⟨hfirst, hlast⟩ := h.utc.dayNumber_bounds
  have hclock := TimeOfDay.seconds_lt h.utc.proper.2
  have hoffset := h.offset_lt
  let day := (z.utc.date.dayNumber * 86400 + z.utc.time.seconds + z.offset) / 86400
  have hbegun := (le_yearOfDay_iff (-262144) day).mpr (by
    unfold daysBeforeYear minYear at *
    simp only [day] at *
    omega)
  have hended := (le_yearOfDay_iff 262145 day).not.mpr (by
    unfold daysBeforeYear maxYear at *
    simp only [day] at *
    omega)
  change (yearOfDay day).natAbs ≤ 262144
  omega

theorem plusMonths?_zero (hz : z.Shown) : plusMonths? 0 z = some z := by
  have hback : z.localTime.translate (-z.offset) = z.utc := hz.utc.proper.translate_back z.offset
  have hutc : z.utc.inCalendar? = some z.utc :=
    DateTime.inCalendar?_eq_some_iff.mpr ⟨hz.utc.yearInRange, rfl⟩
  rw [plusMonths?_eq_bind, DateTime.plusMonths?_zero, Option.bind_some, hback, hutc]
  rfl

theorem plusMonths?_eq (hz : z.Shown) (hmonths : months ≠ 0)
    (hmoved : DateTime.MonthsLater months z.localTime moved) :
    plusMonths? months z = moved.inCalendar?.bind fun shifted =>
      (shifted.translate (-z.offset)).inCalendar?.map (⟨·, z.offset⟩) := by
  have hproper : z.localTime.Proper := DateTime.proper_translate z.offset z.utc
  rw [plusMonths?_eq_bind, DateTime.plusMonths?_eq hproper hz.year_localTime hmonths hmoved]

private theorem plusMonths?_of_inRange (hz : z.Shown) (hmonths : months ≠ 0)
    (hmoved : DateTime.MonthsLater months z.localTime moved)
    (hlocal : YearInRange moved.date.year)
    (hutc : YearInRange (moved.translate (-z.offset)).date.year) :
    plusMonths? months z = some ⟨moved.translate (-z.offset), z.offset⟩ := by
  rw [plusMonths?_eq hz hmonths hmoved, DateTime.inCalendar?, if_pos hlocal, Option.bind_some,
    DateTime.inCalendar?, if_pos hutc]
  rfl

private theorem plusMonths?_of_not_inRange (hz : z.Shown) (hmonths : months ≠ 0)
    (hmoved : DateTime.MonthsLater months z.localTime moved)
    (hout : ¬(YearInRange moved.date.year ∧
      YearInRange (moved.translate (-z.offset)).date.year)) :
    plusMonths? months z = none := by
  rw [plusMonths?_eq hz hmonths hmoved]
  by_cases hlocal : YearInRange moved.date.year
  · have hutc := fun h => hout ⟨hlocal, h⟩
    rw [DateTime.inCalendar?, if_pos hlocal, Option.bind_some, DateTime.inCalendar?, if_neg hutc]
    rfl
  · rw [DateTime.inCalendar?, if_neg hlocal]
    rfl

end Zoned

/-- Two dates of one kind or two on which what a quantity means has the same effect are moved alike. -/
theorem Shift.apply_map {σ τ : Type} [Movable σ] [Movable τ] {date : σ} {image : τ} (f : σ → τ)
    (hmove : ∀ d, shift.displacement? quantity = some d → d.move? image = (d.move? date).map f) :
    shift.apply image quantity = (shift.apply date quantity).map f := by
  rw [apply_eq_move?, apply_eq_move?]
  cases Binary64.toRat? quantity with
  | none => rfl
  | some value =>
    simp only [reduceCtorEq, if_false]
    cases hd : shift.displacement? quantity with
    | none => rfl
    | some d =>
      simp only [Option.bind_some, hmove d hd]
      cases d.move? date <;> rfl

/-- A shift by a span of time is made in universal time. -/
theorem Shift.apply_zoned (hfixed : shift.Fixed) (z : Zoned) (quantity : Float) :
    shift.apply z quantity = (shift.apply z.utc quantity).map (⟨·, z.offset⟩) := by
  apply apply_map
  intro d hd
  obtain ⟨duration, rfl⟩ := span_of_fixed hfixed hd
  rfl

/-- In universal time months are counted as without a zone. -/
theorem Zoned.plusMonths?_utc (ht : t.Shown) (months : Int) :
    plusMonths? months (Zoned.mk t 0) = (plusMonths? months t).map (⟨·, 0⟩) := by
  have hlocal : (Zoned.mk t 0).localTime = t := ht.proper.translate_zero
  rw [plusMonths?_eq_bind, hlocal]
  cases hmoved : plusMonths? months t with
  | none => rfl
  | some moved =>
    have hshown := DateTime.Shown.of_plusMonths? ht hmoved
    have hback : moved.translate (-0) = moved := hshown.proper.translate_zero
    have hcalendar : moved.inCalendar? = some moved :=
      DateTime.inCalendar?_eq_some_iff.mpr ⟨hshown.yearInRange, rfl⟩
    rw [Option.bind_some, hback, hcalendar]

theorem Shift.apply_utc (ht : t.Shown) (shift : Shift) (quantity : Float) :
    shift.apply (Zoned.mk t 0) quantity = (shift.apply t quantity).map (⟨·, 0⟩) := by
  apply apply_map
  intro d _
  cases d with
  | months count => exact Zoned.plusMonths?_utc ht count
  | span duration => rfl

/-- A shift by months is made on the local calendar and is refused only for where it leads. -/
theorem Shift.apply_months (hz : z.Shown) (hcount : shift.monthCount? quantity = some months) :
    shift.apply z quantity =
      match plusMonths? months z with
      | some z' => .ok z'
      | none => .error (.dateOutOfRange shift quantity) := by
  have hmove : (Displacement.months months).move? z = plusMonths? months z := rfl
  rw [apply_eq (Zoned.bounded hz.utc), meant?_of_monthCount hcount, Option.bind_some, hmove]
  cases hvalue : Binary64.toRat? quantity with
  | some value => cases plusMonths? months z <;> rfl
  | none =>
    unfold monthCount? at hcount
    rw [hvalue] at hcount
    cases shift <;> cases hcount

theorem Zoned.offset_of_move? {d : Displacement} (h : d.move? z = some z') :
    z'.offset = z.offset := by
  cases d with
  | months count =>
    have hmoved : plusMonths? count z = some z' := h
    rw [plusMonths?_eq_bind] at hmoved
    obtain ⟨shifted, -, hback⟩ := Option.bind_eq_some_iff.mp hmoved
    obtain ⟨utc, -, rfl⟩ := Option.map_eq_some_iff.mp hback
    rfl
  | span duration =>
    obtain ⟨utc, -, rfl⟩ := Option.map_eq_some_iff.mp h
    rfl

/-- Dates in a zone and dates without one are moved alike. In universal time all shifts agree. In a zone
less than a day away a span of time is added in universal time, and a number of months is counted on the
local calendar and taken back, refused only where the local year or the date in universal time leaves
the calendar; no months at all leave every date as it is. The zone never changes. -/
theorem zoned_shifts_agree :
    (∀ (symbol : String) (t : DateTime) (quantity : Float), t.Shown →
      Shift.applyNamed symbol (Zoned.mk t 0) quantity =
        (Shift.applyNamed symbol t quantity).map (⟨·, 0⟩)) ∧
    ∀ (shift : Shift) (z : Zoned) (quantity : Float), z.Shown →
      (shift.Fixed →
        shift.apply z quantity = (shift.apply z.utc quantity).map (⟨·, z.offset⟩)) ∧
      (Binary64.toRat? quantity = none → shift.apply z quantity = .error .nonFiniteResult) ∧
      (∀ months, shift.monthCount? quantity = some months →
        (months = 0 → shift.apply z quantity = .ok z) ∧
        (months ≠ 0 → ∃ here moved back, DateTime.Ahead z.offset z.utc here ∧
          DateTime.MonthsLater months here moved ∧ DateTime.Ahead (-z.offset) moved back ∧
          (YearInRange moved.date.year ∧ YearInRange back.date.year →
            shift.apply z quantity = .ok ⟨back, z.offset⟩) ∧
          (¬(YearInRange moved.date.year ∧ YearInRange back.date.year) →
            shift.apply z quantity = .error (.dateOutOfRange shift quantity)))) ∧
      ∀ z', shift.apply z quantity = .ok z' → z'.offset = z.offset := by
  refine ⟨?_, ?_⟩
  · intro symbol t quantity ht
    unfold Shift.applyNamed
    cases Shift.named symbol with
    | error error => rfl
    | ok shift => exact Shift.apply_utc ht shift quantity
  · intro shift z quantity hz
    refine ⟨?_, ?_, ?_, ?_⟩
    · intro hfixed
      exact Shift.apply_zoned hfixed z quantity
    · intro hvalue
      rw [Shift.apply_eq (Zoned.bounded hz.utc), hvalue]
    · intro months hcount
      have happly := Shift.apply_months hz hcount
      refine ⟨?_, ?_⟩
      · rintro rfl
        rw [happly, Zoned.plusMonths?_zero hz]
      · intro hmonths
        have hproper : z.localTime.Proper := DateTime.proper_translate z.offset z.utc
        have hmoved := DateTime.monthsLater_monthsOn months hproper
        refine ⟨z.localTime, _, _, DateTime.ahead_translate z.offset z.utc, hmoved,
          DateTime.ahead_translate (-z.offset) _, ?_, ?_⟩
        · rintro ⟨hlocal, hutc⟩
          rw [happly, Zoned.plusMonths?_of_inRange hz hmonths hmoved hlocal hutc]
        · intro hout
          rw [happly, Zoned.plusMonths?_of_not_inRange hz hmonths hmoved hout]
    · intro z' h
      obtain ⟨d, -, hmoved⟩ := (Shift.apply_eq_ok_iff (Zoned.bounded hz.utc)).mp h
      exact Zoned.offset_of_move? hmoved

/-- The calendar begins while the local clock of a zone still shows the year before it. Months are counted
from there: none stay, one comes back into the calendar, one backwards does not. -/
theorem zoned_shifts_agree_first_day :
    (DateTime.mk ⟨-262143, 1, 1⟩ ⟨0, 30, 0, 0⟩).Shown ∧
      Shift.applyNamed "M" (Zoned.mk ⟨⟨-262143, 1, 1⟩, ⟨0, 30, 0, 0⟩⟩ 0) 1.0 =
        .ok ⟨⟨⟨-262143, 2, 1⟩, ⟨0, 30, 0, 0⟩⟩, 0⟩ ∧
      Shift.hours.Fixed ∧
      Shift.hours.apply (Zoned.mk ⟨⟨-262143, 1, 1⟩, ⟨0, 30, 0, 0⟩⟩ (-3600)) 0.25 =
        .ok ⟨⟨⟨-262143, 1, 1⟩, ⟨0, 45, 0, 0⟩⟩, -3600⟩ ∧
      Shift.months.monthCount? 0.5 = some 0 ∧
      Shift.months.apply (Zoned.mk ⟨⟨-262143, 1, 1⟩, ⟨0, 30, 0, 0⟩⟩ (-3600)) 0.5 =
        .ok ⟨⟨⟨-262143, 1, 1⟩, ⟨0, 30, 0, 0⟩⟩, -3600⟩ ∧
      Shift.months.monthCount? 1.0 = some 1 ∧
      Shift.months.apply (Zoned.mk ⟨⟨-262143, 1, 1⟩, ⟨0, 30, 0, 0⟩⟩ (-3600)) 1.0 =
        .ok ⟨⟨⟨-262143, 2, 1⟩, ⟨0, 30, 0, 0⟩⟩, -3600⟩ ∧
      Shift.months.monthCount? (-1.0) = some (-1) ∧
      Shift.months.apply (Zoned.mk ⟨⟨-262143, 1, 1⟩, ⟨0, 30, 0, 0⟩⟩ (-3600)) (-1.0) =
        .error (.dateOutOfRange .months (-1.0)) := by
  have ht : (DateTime.mk ⟨-262143, 1, 1⟩ ⟨0, 30, 0, 0⟩).Shown := DateTime.Valid.shown (by decide)
  have hz : (Zoned.mk ⟨⟨-262143, 1, 1⟩, ⟨0, 30, 0, 0⟩⟩ (-3600)).Shown := ⟨ht, by decide⟩
  have hfixed : Shift.hours.Fixed := ⟨by decide, by decide⟩
  have hnone : Shift.months.monthCount? 0.5 = some 0 := by decide +kernel
  have hone : Shift.months.monthCount? 1.0 = some 1 := by decide +kernel
  have hback : Shift.months.monthCount? (-1.0) = some (-1) := by decide +kernel
  have hlocal : DateTime.Ahead (-3600) ⟨⟨-262143, 1, 1⟩, ⟨0, 30, 0, 0⟩⟩
      ⟨⟨-262144, 12, 31⟩, ⟨23, 30, 0, 0⟩⟩ := DateTime.ahead_translate _ _
  have hnext : DateTime.MonthsLater 1 ⟨⟨-262144, 12, 31⟩, ⟨23, 30, 0, 0⟩⟩
      ⟨⟨-262143, 1, 31⟩, ⟨23, 30, 0, 0⟩⟩ := ⟨by decide, by decide, by decide, by decide, rfl⟩
  have hlast : DateTime.MonthsLater (-1) ⟨⟨-262144, 12, 31⟩, ⟨23, 30, 0, 0⟩⟩
      ⟨⟨-262144, 11, 30⟩, ⟨23, 30, 0, 0⟩⟩ := ⟨by decide, by decide, by decide, by decide, rfl⟩
  have hutc : DateTime.Ahead (-(-3600)) ⟨⟨-262143, 1, 31⟩, ⟨23, 30, 0, 0⟩⟩
      ⟨⟨-262143, 2, 1⟩, ⟨0, 30, 0, 0⟩⟩ := DateTime.ahead_translate _ _
  obtain ⟨hspan, -, -, -⟩ := zoned_shifts_agree.2 .hours _ 0.25 hz
  obtain ⟨-, -, hstay, -⟩ := zoned_shifts_agree.2 .months _ 0.5 hz
  obtain ⟨-, -, hforth, -⟩ := zoned_shifts_agree.2 .months _ 1.0 hz
  obtain ⟨-, -, hrefused, -⟩ := zoned_shifts_agree.2 .months _ (-1.0) hz
  refine ⟨ht, ?_, hfixed, ?_, hnone, (hstay 0 hnone).1 rfl, hone, ?_, hback, ?_⟩
  · rw [zoned_shifts_agree.1 "M" _ 1.0 ht]
    decide +kernel
  · rw [hspan hfixed]
    decide +kernel
  · obtain ⟨here, moved, back, hhere, hmoved, hbehind, hok, -⟩ := (hforth 1 hone).2 (by decide)
    obtain rfl := hhere.unique hlocal
    obtain rfl := hmoved.unique hnext
    obtain rfl := hbehind.unique hutc
    exact hok (by decide)
  · obtain ⟨here, moved, back, hhere, hmoved, -, -, hout⟩ := (hrefused (-1) hback).2 (by decide)
    obtain rfl := hhere.unique hlocal
    obtain rfl := hmoved.unique hlast
    exact hout fun h => absurd h.1 (by decide)

end Reckon.Calendar
