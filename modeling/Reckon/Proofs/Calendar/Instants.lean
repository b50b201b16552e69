import Reckon.Calendar.Library.DateTime
import Reckon.Proofs.Calendar.Days

/-!
Instants and dates with a time. Outside leap seconds every instant is shown by one date and time, and a
span of time that is added moves the instant by just that span. Inside a leap second the seconds on the
clock and the nanoseconds tell a date apart from all others.
-/

namespace Reckon.Calendar

variable {date : Date} {time : TimeOfDay} {t u : DateTime} {d : Duration} {s n : Nat}

namespace TimeOfDay

/-- An hour, a minute and a second that a clock shows, whatever the nanoseconds. -/
def OnClock (time : TimeOfDay) : Prop := time.hour < 24 ∧ time.minute < 60 ∧ time.second < 60

theorem seconds_lt (h : time.OnClock) : time.seconds < 86400 := by
  obtain ⟨hhour, hminute, hsecond⟩ := h
  unfold seconds
  omega

private theorem ofSeconds_seconds (h : time.OnClock) : ofSeconds time.seconds time.nano = time := by
  obtain ⟨hour, minute, second, nano⟩ := time
  obtain ⟨hhour, hminute, hsecond⟩ := h
  simp only at hhour hminute hsecond
  simp only [ofSeconds, seconds, mk.injEq, and_true]
  omega

/-- Two times on the clock with the same seconds and nanoseconds are the same. -/
theorem OnClock.eq_of_seconds {other : TimeOfDay} (h : time.OnClock) (hother : other.OnClock)
    (hseconds : time.seconds = other.seconds) (hnano : time.nano = other.nano) : time = other := by
  rw [← ofSeconds_seconds h, hseconds, hnano, ofSeconds_seconds hother]

@[simp] theorem seconds_ofSeconds (s n : Nat) : (ofSeconds s n).seconds = s := by
  simp only [ofSeconds, seconds]
  omega

private theorem onClock_ofSeconds (h : s < 86400) : (ofSeconds s n).OnClock := by
  simp only [ofSeconds, OnClock]
  omega

theorem Valid.onClock (h : time.Valid) : time.OnClock := ⟨h.1, h.2.1, h.2.2.1⟩

theorem OnClock.valid (h : time.OnClock) (hnano : time.nano < 1000000000) : time.Valid := by
  obtain ⟨hhour, hminute, hsecond⟩ := h
  exact ⟨hhour, hminute, hsecond, by omega, by omega⟩

@[simp] theorem isLeapSecond_eq_false_iff : time.isLeapSecond = false ↔ time.nano < 1000000000 := by
  simp [isLeapSecond]

end TimeOfDay

namespace DateTime

/-- A date of some year, in the calendar or not, at a time on the clock. -/
def Proper (t : DateTime) : Prop := t.date.Proper ∧ t.time.OnClock

/-- A date of the calendar at a time on the clock, in a leap second or not. Where the local clock of a
zone is ahead by part of a minute, the leap second follows another second than 59. -/
structure Shown (t : DateTime) : Prop where
  yearInRange : YearInRange t.date.year
  proper : t.Proper
  nano_lt : t.time.nano < 2000000000

theorem Valid.shown (h : t.Valid) : t.Shown := ⟨h.1.1, ⟨h.1.2, h.2.onClock⟩, h.2.2.2.2.1⟩

/-- The whole seconds from the beginning of day zero. -/
def seconds (t : DateTime) : Int := t.date.dayNumber * 86400 + t.time.seconds

theorem instant_eq (t : DateTime) : t.instant = t.seconds * 1000000000 + t.time.nano := by
  unfold instant seconds dayNanos
  omega

/-- A date with a time is told by its seconds and its nanoseconds. -/
theorem Proper.eq_of_seconds (ht : t.Proper) (hu : u.Proper) (hseconds : t.seconds = u.seconds)
    (hnano : t.time.nano = u.time.nano) : t = u := by
  obtain ⟨date, time⟩ := t
  obtain ⟨date', time'⟩ := u
  have hclock := TimeOfDay.seconds_lt ht.2
  have hclock' := TimeOfDay.seconds_lt hu.2
  simp only [seconds] at hseconds hclock hclock'
  have hday : date.dayNumber = date'.dayNumber := by omega
  have htime : time.seconds = time'.seconds := by omega
  obtain rfl : date = date' := Date.Proper.eq_of_dayNumber ht.1 hu.1 hday
  obtain rfl : time = time' := TimeOfDay.OnClock.eq_of_seconds ht.2 hu.2 htime hnano
  rfl

/-- Outside leap seconds a date with a time is told by its instant. -/
theorem Proper.eq_of_instant (ht : t.Proper) (hu : u.Proper) (htnano : t.time.nano < 1000000000)
    (hunano : u.time.nano < 1000000000) (hinstant : t.instant = u.instant) : t = u := by
  rw [instant_eq, instant_eq] at hinstant
  exact ht.eq_of_seconds hu (by omega) (by omega)

theorem proper_ofInstant (i : Int) : (ofInstant i).Proper := by
  refine ⟨Date.proper_ofDayNumber _, TimeOfDay.onClock_ofSeconds ?_⟩
  unfold dayNanos
  omega

theorem nano_ofInstant_lt (i : Int) : (ofInstant i).time.nano < 1000000000 := by
  simp only [ofInstant, TimeOfDay.ofSeconds]
  omega

@[simp] theorem instant_ofInstant (i : Int) : (ofInstant i).instant = i := by
  simp only [instant, ofInstant, Date.dayNumber_ofDayNumber, TimeOfDay.seconds_ofSeconds]
  simp only [TimeOfDay.ofSeconds, dayNanos]
  omega

theorem proper_translate (s : Int) (t : DateTime) : (t.translate s).Proper := by
  refine ⟨Date.proper_ofDayNumber _, TimeOfDay.onClock_ofSeconds ?_⟩
  omega

theorem nano_translate (s : Int) (t : DateTime) : (t.translate s).time.nano = t.time.nano := rfl

theorem seconds_translate (s : Int) (t : DateTime) : (t.translate s).seconds = t.seconds + s := by
  simp only [seconds, translate, Date.dayNumber_ofDayNumber, TimeOfDay.seconds_ofSeconds]
  omega

theorem inCalendar?_eq_some_iff : t.inCalendar? = some u ↔ YearInRange t.date.year ∧ t = u := by
  unfold inCalendar?
  split
  case isTrue hyear => simp [hyear]
  case isFalse hyear => simp [hyear]

theorem Shown.dayNumber_bounds (h : t.Shown) :
    daysBeforeYear minYear ≤ t.date.dayNumber ∧
      t.date.dayNumber < daysBeforeYear (maxYear + 1) := by
  have hdate : (Date.ofDayNumber t.date.dayNumber).year = t.date.year := by
    rw [Date.ofDayNumber_dayNumber h.proper.1]
  have hyear : yearOfDay t.date.dayNumber = t.date.year := hdate
  rw [← yearInRange_yearOfDay_iff, hyear]
  exact h.yearInRange

/-- The instants of the calendar, with the leap second that may end it, are those of half a million
years. -/
theorem Shown.instant_bounds (h : t.Shown) :
    -8300000000000000000000 < t.instant ∧ t.instant < 8300000000000000000000 := by
  obtain ⟨hfirst, hlast⟩ := h.dayNumber_bounds
  have hclock := TimeOfDay.seconds_lt h.proper.2
  have hnano := h.nano_lt
  unfold daysBeforeYear minYear at hfirst
  unfold daysBeforeYear maxYear at hlast
  unfold instant dayNanos
  simp only at hfirst hlast
  omega

private theorem inCalendar?_ofInstant_eq_none {i : Int} (h : 8300000000000000000000 < i.natAbs) :
    (ofInstant i).inCalendar? = none := by
  apply Option.eq_none_iff_forall_ne_some.mpr
  intro u hu
  obtain ⟨hyear, rfl⟩ := inCalendar?_eq_some_iff.mp hu
  have hproper := proper_ofInstant i
  have hvalid : (ofInstant i).Valid := ⟨⟨hyear, hproper.1⟩, hproper.2.valid (nano_ofInstant_lt i)⟩
  have hbounds := hvalid.shown.instant_bounds
  rw [instant_ofInstant] at hbounds
  omega

/-- No span that fills its word is short enough to stay in the calendar. -/
theorem Shown.addDuration?_of_long (h : t.Shown) (hlong : Duration.maxMillis < d.millis.natAbs) :
    t.addDuration? d = none := by
  have hbounds := h.instant_bounds
  unfold Duration.maxMillis at hlong
  have hfar (shift : Int) (hshift : shift.natAbs ≤ 1000000000) :
      (ofInstant (t.instant + shift + d.nanos)).inCalendar? = none := by
    apply inCalendar?_ofInstant_eq_none
    unfold Duration.nanos
    omega
  have hthere := hfar 0 (by decide)
  have hbehind := hfar (-1000000000) (by decide)
  rw [Int.add_zero] at hthere
  rw [← Int.sub_eq_add_neg] at hbehind
  have hstay : ¬(d.nanos.natAbs < 1000000000 ∧ t.time.nano + d.nanos < 2000000000) := by
    unfold Duration.nanos
    omega
  unfold addDuration?
  simp only [hstay, hthere, hbehind, if_false, ite_self]

/-- Outside leap seconds a span of time leads to the date whose instant is that much later, if there is
one in the calendar. -/
theorem addDuration?_eq_some_iff (hnano : t.time.nano < 1000000000) :
    t.addDuration? d = some u ↔
      u.Valid ∧ u.time.nano < 1000000000 ∧ u.instant = t.instant + d.nanos := by
  have hleap : t.time.isLeapSecond = false := TimeOfDay.isLeapSecond_eq_false_iff.mpr hnano
  unfold addDuration?
  rw [hleap, if_neg Bool.false_ne_true, inCalendar?_eq_some_iff]
  have hproper := proper_ofInstant (t.instant + d.nanos)
  have hbelow := nano_ofInstant_lt (t.instant + d.nanos)
  constructor
  · rintro ⟨hyear, rfl⟩
    exact ⟨⟨⟨hyear, hproper.1⟩, hproper.2.valid hbelow⟩, hbelow, instant_ofInstant _⟩
  · rintro ⟨hvalid, hunano, hinstant⟩
    obtain rfl : ofInstant (t.instant + d.nanos) = u := by
      apply hproper.eq_of_instant hvalid.shown.proper hbelow hunano
      rw [instant_ofInstant, hinstant]
    exact ⟨hvalid.shown.yearInRange, rfl⟩

end DateTime
end Reckon.Calendar
