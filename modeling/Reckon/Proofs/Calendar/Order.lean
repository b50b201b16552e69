import Reckon.Proofs.Calendar.TimeLine

/-!
The order of dates. Of two dates the one comes first whose fields do, from the year down to the
nanosecond. Days and seconds are numbered in this order, and the nanoseconds of a leap second stand
between those of the second it follows and the next second. A date moved by more months or by a longer
span of time comes later, whichever way it leaves its month or its leap second.
-/

namespace Reckon.Calendar

variable {date other : Date} {t u v : DateTime} {d e : Duration} {count more : Int}
  {month later : Nat}

private theorem daysBeforeMonth_mono (year : Int) (h : month ≤ later) :
    daysBeforeMonth year month ≤ daysBeforeMonth year later := by
  have hprefix : (monthLengths year).take (month - 1) <+: (monthLengths year).take (later - 1) :=
    List.take_prefix_take_left (Nat.sub_le_sub_right h 1)
  rw [daysBeforeMonth_eq, daysBeforeMonth_eq]
  exact hprefix.sublist.sum_le_sum (fun _ _ => Nat.zero_le _)

/-- Days are numbered in the order of years, months and days. -/
theorem Date.Proper.dayNumber_lt (h : date.Proper) (hother : other.Proper)
    (hlt : date.year < other.year ∨ date.year = other.year ∧
      (date.month < other.month ∨ date.month = other.month ∧ date.day < other.day)) :
    date.dayNumber < other.dayNumber := by
  obtain ⟨year, month, day⟩ := date
  obtain ⟨year', month', day'⟩ := other
  have hwithin := take_sum_add_lt (day_lt_length h)
  obtain ⟨⟨hmonth, hlast⟩, hday, hlength⟩ := h
  have hday' := hother.2.1
  rw [← daysBeforeMonth_eq] at hwithin
  simp only at hlt hwithin hmonth hlast hday hlength hday'
  simp only [dayNumber]
  rcases hlt with hyear | ⟨rfl, hmonths | ⟨rfl, hdays⟩⟩
  · have hnext := daysBeforeYear_mono (Int.add_one_le_iff.mpr hyear)
    have hend := daysBeforeYear_succ year
    omega
  · have hnext : daysBeforeMonth year (month + 1) ≤ daysBeforeMonth year month' :=
      daysBeforeMonth_mono year hmonths
    have hend := daysBeforeMonth_succ year hmonth hlast
    omega
  · omega

namespace DateTime

/-- The fields of a date and of its time, the greatest unit first. -/
def fields (t : DateTime) : List Int :=
  [t.date.year, t.date.month, t.date.day, t.time.hour, t.time.minute, t.time.second, t.time.nano]

/-- One date is before another: the first field that differs is less. -/
def Earlier (t u : DateTime) : Prop := t.fields < u.fields

instance (t u : DateTime) : Decidable (t.Earlier u) :=
  inferInstanceAs (Decidable (t.fields < u.fields))

private theorem fields_injective (h : t.fields = u.fields) : t = u := by
  obtain ⟨⟨year, month, day⟩, ⟨hour, minute, second, nano⟩⟩ := t
  obtain ⟨⟨year', month', day'⟩, ⟨hour', minute', second', nano'⟩⟩ := u
  simpa [fields, and_assoc] using h

theorem Earlier.year_le (h : t.Earlier u) : t.date.year ≤ u.date.year := by
  unfold Earlier fields at h
  rw [List.cons_lt_cons_iff] at h
  omega

theorem Proper.seconds_of_earlier (ht : t.Proper) (hu : u.Proper) (h : t.Earlier u) :
    t.seconds < u.seconds ∨ t.seconds = u.seconds ∧ t.time.nano < u.time.nano := by
  have hclock := TimeOfDay.seconds_lt ht.2
  have hdays := ht.1.dayNumber_lt hu.1
  have hsame (h : t.date = u.date) : t.date.dayNumber = u.date.dayNumber := by rw [h]
  obtain ⟨hdate, hhour, hminute, hsecond⟩ := ht
  obtain ⟨hdate', hhour', hminute', hsecond'⟩ := hu
  obtain ⟨⟨year, month, day⟩, ⟨hour, minute, second, nano⟩⟩ := t
  obtain ⟨⟨year', month', day'⟩, ⟨hour', minute', second', nano'⟩⟩ := u
  simp only [Earlier, fields, List.cons_lt_cons_iff, List.lt_irrefl, and_false, or_false,
    Nat.cast_lt, Nat.cast_inj] at h
  simp only [Date.mk.injEq] at hclock hdays hsame hhour hminute hsecond hhour' hminute' hsecond'
  simp only [seconds, TimeOfDay.seconds] at hclock ⊢
  omega

/-- The order of dates is the one of their seconds and, in the same second, of their nanoseconds. -/
theorem Proper.earlier_iff (ht : t.Proper) (hu : u.Proper) :
    t.Earlier u ↔
      t.seconds < u.seconds ∨ t.seconds = u.seconds ∧ t.time.nano < u.time.nano := by
  refine ⟨ht.seconds_of_earlier hu, ?_⟩
  intro h
  rcases lt_trichotomy t.fields u.fields with hearlier | hsame | hlater
  · exact hearlier
  · rw [fields_injective hsame] at h
    omega
  · have hback := hu.seconds_of_earlier ht hlater
    omega

/-- The nanoseconds to a date where those of the leap second count in which `t` lies, if it does. -/
def elapsed (t u : DateTime) : Int :=
  if t.time.isLeapSecond ∧ t.seconds < u.seconds then u.instant + 1000000000 else u.instant

/-- What is a span of time later than a date: so many nanoseconds on, on the clock and outside all leap
seconds but the one in which it began. -/
structure SpanLater (d : Duration) (t u : DateTime) : Prop where
  proper : u.Proper
  nano_lt : u.time.nano < 1000000000 ∨
    t.time.isLeapSecond = true ∧ u.seconds = t.seconds ∧ u.time.nano < 2000000000
  elapsed_eq : t.elapsed u = t.instant + d.nanos

/-- The nanoseconds to a date in terms of its seconds. -/
theorem elapsed_of_leap (hleap : t.time.isLeapSecond = true) (u : DateTime) :
    t.elapsed u = u.seconds * 1000000000 + u.time.nano +
      if t.seconds < u.seconds then 1000000000 else 0 := by
  simp only [elapsed, instant_eq, hleap, true_and]
  split <;> omega

private theorem elapsed_of_not_leap (hleap : t.time.isLeapSecond = false) (u : DateTime) :
    t.elapsed u = u.seconds * 1000000000 + u.time.nano := by
  simp [elapsed, instant_eq, hleap]

/-- On that count the dates stand in their order, each in one place. -/
theorem SpanLater.seconds_of_nanos (hu : SpanLater d t u) (hv : SpanLater e t v) :
    (d.nanos < e.nanos →
      u.seconds < v.seconds ∨ u.seconds = v.seconds ∧ u.time.nano < v.time.nano) ∧
    (d.nanos = e.nanos → u.seconds = v.seconds ∧ u.time.nano = v.time.nano) := by
  have hnanos := hu.nano_lt
  have hnanos' := hv.nano_lt
  have helapsed := hu.elapsed_eq
  have helapsed' := hv.elapsed_eq
  cases hleap : t.time.isLeapSecond with
  | true =>
    rw [elapsed_of_leap hleap] at helapsed helapsed'
    omega
  | false =>
    rw [elapsed_of_not_leap hleap] at helapsed helapsed'
    simp only [hleap, Bool.false_eq_true, false_and, or_false] at hnanos hnanos'
    omega

/-- A longer span leads to a later date. -/
theorem SpanLater.earlier (hu : SpanLater d t u) (hv : SpanLater e t v) (h : d.millis < e.millis) :
    u.Earlier v := by
  have hlonger : d.nanos < e.nanos := by
    unfold Duration.nanos
    omega
  exact (hu.proper.earlier_iff hv.proper).mpr ((hu.seconds_of_nanos hv).1 hlonger)

theorem SpanLater.unique (hu : SpanLater d t u) (hv : SpanLater d t v) : u = v := by
  obtain ⟨hseconds, hnano⟩ := (hu.seconds_of_nanos hv).2 rfl
  exact hu.proper.eq_of_seconds hv.proper hseconds hnano

/-- An ordinary date at the right distance is what is later. -/
theorem spanLater_ofInstant {i : Int} (h : t.elapsed (ofInstant i) = t.instant + d.nanos) :
    SpanLater d t (ofInstant i) :=
  ⟨proper_ofInstant i, .inl (nano_ofInstant_lt i), h⟩

/-- Where a span of time leads, in the calendar or not. -/
theorem exists_spanLater (ht : t.Shown) (d : Duration) :
    ∃ u, SpanLater d t u ∧ t.addDuration? d = u.inCalendar? := by
  have hinstant := instant_eq t
  have hnano := ht.nano_lt
  unfold addDuration?
  split
  case isTrue hleap =>
    have hinside : 1000000000 ≤ t.time.nano := by simpa [TimeOfDay.isLeapSecond] using hleap
    simp only
    split
    case isTrue hstays =>
      refine ⟨⟨t.date, { t.time with nano := (t.time.nano + d.nanos).toNat }⟩,
        ⟨ht.proper, .inr ⟨hleap, rfl, ?_⟩, ?_⟩, ?_⟩
      · simp only
        omega
      · have hnow : ¬t.seconds < t.seconds := lt_irrefl _
        rw [elapsed_of_leap hleap]
        change t.seconds * 1000000000 + ((t.time.nano + d.nanos).toNat : Int) +
          (if t.seconds < t.seconds then 1000000000 else 0) = _
        rw [if_neg hnow]
        omega
      · rw [inCalendar?, if_pos ht.yearInRange]
    case isFalse hleaves =>
      split
      case isTrue hforward =>
        -- out of it forwards, past the next second, so the second taken off is the one that counts
        refine ⟨_, spanLater_ofInstant ?_, rfl⟩
        have hthere := instant_ofInstant (t.instant - 1000000000 + d.nanos)
        have hbelow := nano_ofInstant_lt (t.instant - 1000000000 + d.nanos)
        rw [instant_eq] at hthere
        rw [elapsed_of_leap hleap]
        unfold Duration.nanos at *
        split <;> omega
      case isFalse hback =>
        -- out of it backwards, by a second or more, to where nothing is added
        refine ⟨_, spanLater_ofInstant ?_, rfl⟩
        have hthere := instant_ofInstant (t.instant + d.nanos)
        have hbelow := nano_ofInstant_lt (t.instant + d.nanos)
        rw [instant_eq] at hthere
        rw [elapsed_of_leap hleap]
        unfold Duration.nanos at *
        split <;> omega
  case isFalse hordinary =>
    refine ⟨_, spanLater_ofInstant ?_, rfl⟩
    rw [elapsed, if_neg (fun h => hordinary h.1), instant_ofInstant]

/-- More months lead to a later date. -/
theorem MonthsLater.earlier (hu : MonthsLater count t u) (hv : MonthsLater more t v)
    (h : count < more) : u.Earlier v := by
  have hindex := hu.month_index
  have hindex' := hv.month_index
  have hle := hu.month_le
  have hpos := hu.month_pos
  have hle' := hv.month_le
  have hpos' := hv.month_pos
  unfold Earlier fields
  simp only [List.cons_lt_cons_iff]
  omega

/-- Where months lead, in the calendar or not. -/
theorem exists_monthsLater (ht : t.Shown) (count : Int) :
    ∃ u, MonthsLater count t u ∧ plusMonths? count t = u.inCalendar? := by
  refine ⟨_, monthsLater_monthsOn count ht.proper, ?_⟩
  apply Option.ext
  intro u
  rw [plusMonths?_eq_some_iff ht, inCalendar?_eq_some_iff]
  constructor
  · rintro ⟨hu, hrange⟩
    obtain rfl := hu.unique (monthsLater_monthsOn count ht.proper)
    exact ⟨hrange, rfl⟩
  · rintro ⟨hrange, rfl⟩
    exact ⟨monthsLater_monthsOn count ht.proper, hrange⟩

end DateTime
end Reckon.Calendar
