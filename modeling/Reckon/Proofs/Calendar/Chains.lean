import Reckon.Chain
import Reckon.Proofs.Calendar.TimeLine
import Reckon.Proofs.Calendar.Zones

/-!
Chains of shifts. Whatever the steps and wherever they begin, the date stays a valid one of the calendar:
a span of time leads to an ordinary date or moves within the leap second it began in, and months leave
the time of day alone, in a zone as well, where the clock shows other seconds. A step that is refused
leaves the date where it was, and one that counts nothing gives it back.
-/

namespace Reckon.Calendar

open Rational

variable {τ : Type} [Movable τ] {utc : τ → DateTime} {P : τ → Prop} {date moved : τ} {t u : DateTime}
  {z z' : Zoned} {shift : Shift} {quantity : Float} {d : Duration} {count : Int}

namespace DateTime

/-- What a span of time does: it is short enough to stay in the leap second, or it leads to a date
outside all leap seconds. -/
theorem addDuration?_cases (h : t.addDuration? d = some u) :
    (t.time.isLeapSecond = true ∧ d.nanos.natAbs < 1000000000 ∧
      t.time.nano + d.nanos < 2000000000 ∧
      u = { t with time := { t.time with nano := (t.time.nano + d.nanos).toNat } }) ∨
    u.Ordinary := by
  have hordinary {i : Int} (hi : (ofInstant i).inCalendar? = some u) : u.Ordinary := by
    obtain ⟨hyear, rfl⟩ := inCalendar?_eq_some_iff.mp hi
    exact ordinary_ofInstant hyear
  unfold addDuration? at h
  simp only at h
  split at h
  case isTrue hleap =>
    split at h
    case isTrue hstays =>
      cases h
      exact .inl ⟨hleap, hstays.1, hstays.2, rfl⟩
    case isFalse =>
      split at h
      case isTrue => exact .inr (hordinary h)
      case isFalse => exact .inr (hordinary h)
  case isFalse => exact .inr (hordinary h)

theorem Valid.of_addDuration? (ht : t.Valid) (h : t.addDuration? d = some u) : u.Valid := by
  rcases addDuration?_cases h with ⟨hleap, hshort, hbelow, rfl⟩ | hu
  · obtain ⟨hdate, hhour, hminute, hsecond, -, hlast⟩ := ht
    have hinside : 1000000000 ≤ t.time.nano := by simpa [TimeOfDay.isLeapSecond] using hleap
    have hnano : (t.time.nano + d.nanos).toNat < 2000000000 := by omega
    exact ⟨hdate, hhour, hminute, hsecond, hnano, fun _ => hlast hinside⟩
  · exact hu.1

private theorem not_leap_of_addDuration? (ht : t.time.isLeapSecond = false)
    (h : t.addDuration? d = some u) :
    u.time.isLeapSecond = false := by
  rcases addDuration?_cases h with ⟨hleap, -, -, -⟩ | hu
  · rw [ht] at hleap
    cases hleap
  · exact hu.2

theorem addDuration?_zero (ht : t.Valid) : t.addDuration? ⟨0⟩ = some t := by
  cases hleap : t.time.isLeapSecond with
  | true =>
    have hnano := ht.shown.nano_lt
    simp [addDuration?, hleap, Duration.nanos]
    omega
  | false =>
    rw [TimeOfDay.isLeapSecond_eq_false_iff] at hleap
    exact (addDuration?_eq_some_iff hleap).mpr ⟨ht, hleap, by simp [Duration.nanos]⟩

/-- Months leave the time of day as it is. -/
theorem time_of_plusMonths? (h : plusMonths? count t = some u) : u.time = t.time := by
  rw [plusMonths?_eq_ite] at h
  split at h
  case isTrue =>
    cases h
    rfl
  case isFalse =>
    split at h
    case isTrue =>
      obtain ⟨-, rfl⟩ := inCalendar?_eq_some_iff.mp h
      rfl
    case isFalse => cases h

theorem Valid.of_plusMonths? (ht : t.Valid) (h : plusMonths? count t = some u) : u.Valid := by
  have hshown := Shown.of_plusMonths? ht.shown h
  have htime : u.time.Valid := by
    rw [time_of_plusMonths? h]
    exact ht.2
  exact ⟨⟨hshown.yearInRange, hshown.proper.1⟩, htime⟩

/-- The second that a clock shows which is some seconds ahead. -/
theorem second_translate (s : Int) (t : DateTime) :
    ((t.translate s).time.second : Int) = (t.time.second + s) % 60 := by
  simp only [translate, TimeOfDay.ofSeconds, TimeOfDay.seconds]
  omega

end DateTime

namespace Zoned

theorem Valid.shown (hz : z.Valid) : z.Shown := ⟨hz.1.shown, hz.2⟩

/-- What months counted on the local calendar do. -/
theorem plusMonths?_cases (h : plusMonths? count z = some z') :
    ∃ shifted, plusMonths? count z.localTime = some shifted ∧
      YearInRange (shifted.translate (-z.offset)).date.year ∧
      z' = ⟨shifted.translate (-z.offset), z.offset⟩ := by
  rw [plusMonths?_eq_bind] at h
  obtain ⟨shifted, hshifted, hback⟩ := Option.bind_eq_some_iff.mp h
  obtain ⟨utc, hutc, rfl⟩ := Option.map_eq_some_iff.mp hback
  obtain ⟨hrange, rfl⟩ := DateTime.inCalendar?_eq_some_iff.mp hutc
  exact ⟨shifted, hshifted, hrange, rfl⟩

/-- The local clock may show another second, but coming back it is the same again. -/
theorem second_of_plusMonths? (hz : z.Valid) (h : plusMonths? count z = some z') :
    z'.utc.time.second = z.utc.time.second := by
  obtain ⟨shifted, hshifted, -, rfl⟩ := plusMonths?_cases h
  have hsecond : z.utc.time.second < 60 := hz.1.2.onClock.2.2
  have hforth : (z.localTime.time.second : Int) = (z.utc.time.second + z.offset) % 60 :=
    DateTime.second_translate z.offset z.utc
  have hback := DateTime.second_translate (-z.offset) shifted
  rw [DateTime.time_of_plusMonths? hshifted] at hback
  change (shifted.translate (-z.offset)).time.second = z.utc.time.second
  omega

private theorem nano_of_plusMonths? (h : plusMonths? count z = some z') :
    z'.utc.time.nano = z.utc.time.nano := by
  obtain ⟨shifted, hshifted, -, rfl⟩ := plusMonths?_cases h
  change shifted.time.nano = z.utc.time.nano
  rw [DateTime.time_of_plusMonths? hshifted]
  rfl

theorem Valid.of_plusMonths? (hz : z.Valid) (h : plusMonths? count z = some z') : z'.Valid := by
  have hsecond := second_of_plusMonths? hz h
  have hnano := nano_of_plusMonths? h
  obtain ⟨shifted, -, hrange, rfl⟩ := plusMonths?_cases h
  have hproper := DateTime.proper_translate (-z.offset) shifted
  obtain ⟨⟨-, -, -, -, hbelow, hlast⟩, hoffset⟩ := hz
  obtain ⟨hhour, hminute, hclock⟩ := hproper.2
  refine ⟨⟨⟨hrange, hproper.1⟩, hhour, hminute, hclock, ?_, ?_⟩, hoffset⟩
  · rw [hnano]
    exact hbelow
  · rw [hnano, hsecond]
    exact hlast

theorem addDuration?_cases (h : z.addDuration? d = some z') :
    ∃ u, z.utc.addDuration? d = some u ∧ z' = ⟨u, z.offset⟩ := by
  obtain ⟨u, hu, rfl⟩ := Option.map_eq_some_iff.mp h
  exact ⟨u, hu, rfl⟩

end Zoned

/-- The whole number that a quantity comes to: of months, of days or of milliseconds. -/
def Shift.count? (shift : Shift) (quantity : Float) : Option Int := do
  let value ← Binary64.toRat? quantity
  match shift with
  | years => some (12 * truncate value)
  | months | days | plus | minus => some (truncate value)
  | hours => clockMillis? quantity 3600000.0
  | minutes => clockMillis? quantity 60000.0
  | seconds => clockMillis? quantity 1000.0

/-- The displacement of a whole number of what a shift counts. -/
def Shift.displace (shift : Shift) (count : Int) : Displacement :=
  match shift with
  | years | months => .months count
  | days | plus => .span ⟨count * 86400000⟩
  | minus => .span ⟨-count * 86400000⟩
  | hours | minutes | seconds => .span ⟨count⟩

/-- A quantity means the displacement of the whole number that it comes to. -/
theorem Shift.meant?_eq_map_count (shift : Shift) (quantity : Float) :
    shift.meant? quantity = (shift.count? quantity).map shift.displace := by
  unfold meant? monthCount? millis? count?
  cases Binary64.toRat? quantity with
  | none => cases shift <;> rfl
  | some value => cases shift <;> rfl

/-- A quantity that comes to nothing means no months or a span of no length. -/
theorem Shift.meant?_of_count_zero (h : shift.count? quantity = some 0) :
    shift.meant? quantity = some (.months 0) ∨ shift.meant? quantity = some (.span ⟨0⟩) := by
  rw [meant?_eq_map_count, h]
  cases shift with
  | years | months => exact .inl rfl
  | days | plus | minus | hours | minutes | seconds => exact .inr rfl

/-- One step of a chain of shifts. -/
def takeStep (date : τ) (step : Shift × Float) : Except OperatorError τ := step.1.apply date step.2

/-- The date after a chain of shifts. A step that is refused leaves it where it was. -/
def wander (start : τ) (steps : List (Shift × Float)) : τ := Chain.final takeStep start steps

theorem wander_append (start : τ) (earlier later : List (Shift × Float)) :
    wander start (earlier ++ later) = wander (wander start earlier) later := List.foldl_append

theorem Shift.exists_move?_of_apply (h : shift.apply date quantity = .ok moved) :
    ∃ d : Displacement, d.move? date = some moved := by
  rw [apply_eq_move?] at h
  split at h
  case isTrue => cases h
  case isFalse =>
    split at h
    case h_1 found hfound =>
      cases h
      obtain ⟨d, -, hd⟩ := Option.bind_eq_some_iff.mp hfound
      exact ⟨d, hd⟩
    case h_2 => cases h

/-- What every displacement keeps, a chain of shifts keeps. -/
theorem wander_of_move?
    (keeps : ∀ date d moved, P date → Displacement.move? d date = some moved → P moved) {start : τ}
    (h : P start) (steps : List (Shift × Float)) : P (wander start steps) := by
  apply Chain.final_of_step _ h
  intro date step moved hdate hstep
  obtain ⟨d, hd⟩ := Shift.exists_move?_of_apply hstep
  exact keeps date d moved hdate hd

/-- What a single displacement does to dates of one kind, as seen in universal time. -/
structure KeptByMoves (utc : τ → DateTime) (P : τ → Prop) : Prop where
  valid : ∀ date, P date → (utc date).Valid
  bounded : ∀ date, P date → Bounded date
  moved : ∀ date d moved, P date → Displacement.move? d date = some moved → P moved
  ordinary : ∀ date d moved, (utc date).time.isLeapSecond = false →
    Displacement.move? d date = some moved → (utc moved).time.isLeapSecond = false
  nothing : ∀ date, P date → (Displacement.months 0).move? date = some date ∧
    (Displacement.span ⟨0⟩).move? date = some date

/-- What a chain of shifts does to a date, as seen in universal time. -/
structure KeptByChains (utc : τ → DateTime) (start : τ) : Prop where
  /-- Every date reached is valid. -/
  valid : ∀ steps, (utc (wander start steps)).Valid
  /-- Once outside leap seconds the date stays outside. -/
  ordinary : ∀ earlier later, (utc (wander start earlier)).time.isLeapSecond = false →
    (utc (wander start (earlier ++ later))).time.isLeapSecond = false
  /-- From every date reached, a step that counts nothing succeeds and gives that date back. -/
  nothing : ∀ steps (shift : Shift) (quantity : Float), shift.count? quantity = some 0 →
    shift.apply (wander start steps) quantity = .ok (wander start steps)

theorem KeptByMoves.chains (h : KeptByMoves utc P) {start : τ} (hstart : P start) :
    KeptByChains utc start := by
  have hreached := wander_of_move? h.moved hstart
  refine ⟨?_, ?_, ?_⟩
  · intro steps
    exact h.valid _ (hreached steps)
  · intro earlier later houtside
    rw [wander_append]
    exact wander_of_move? (P := fun date => (utc date).time.isLeapSecond = false) h.ordinary houtside
      later
  · intro steps shift quantity hcount
    obtain ⟨hmonths, hspan⟩ := h.nothing _ (hreached steps)
    rw [Shift.apply_eq_ok_iff (h.bounded _ (hreached steps))]
    rcases Shift.meant?_of_count_zero hcount with hmeant | hmeant
    · exact ⟨_, hmeant, hmonths⟩
    · exact ⟨_, hmeant, hspan⟩

theorem DateTime.keptByMoves : KeptByMoves id DateTime.Valid := by
  refine ⟨fun t ht => ht, fun t ht => ht.shown.bounded, ?_, ?_, ?_⟩
  · intro t d u ht hmoved
    cases d with
    | months count => exact ht.of_plusMonths? hmoved
    | span duration => exact ht.of_addDuration? hmoved
  · intro t d u houtside hmoved
    cases d with
    | months count =>
      have htime : u.time = t.time := time_of_plusMonths? hmoved
      change u.time.isLeapSecond = false
      rw [htime]
      exact houtside
    | span duration => exact not_leap_of_addDuration? houtside hmoved
  · intro t ht
    exact ⟨plusMonths?_zero t, addDuration?_zero ht⟩

theorem Zoned.keptByMoves : KeptByMoves Zoned.utc Zoned.Valid := by
  refine ⟨fun z hz => hz.1, fun z hz => Zoned.bounded hz.1.shown, ?_, ?_, ?_⟩
  · intro z d z' hz hmoved
    cases d with
    | months count => exact hz.of_plusMonths? hmoved
    | span duration =>
      obtain ⟨u, hu, rfl⟩ := addDuration?_cases hmoved
      exact ⟨hz.1.of_addDuration? hu, hz.2⟩
  · intro z d z' houtside hmoved
    cases d with
    | months count =>
      have hnano : z'.utc.time.nano = z.utc.time.nano := nano_of_plusMonths? hmoved
      rw [TimeOfDay.isLeapSecond_eq_false_iff] at houtside ⊢
      rw [hnano]
      exact houtside
    | span duration =>
      obtain ⟨u, hu, rfl⟩ := addDuration?_cases hmoved
      exact DateTime.not_leap_of_addDuration? houtside hu
  · intro z hz
    refine ⟨plusMonths?_zero hz.shown, ?_⟩
    change (z.utc.addDuration? ⟨0⟩).map (⟨·, z.offset⟩) = some z
    rw [DateTime.addDuration?_zero hz.1]
    rfl

/-- Chains of shifts never leave the valid dates, without a zone or in one; universal time is the zone
with no offset. After every step the date in universal time is valid, once outside leap seconds it stays
outside, and a step that counts nothing changes nothing. -/
theorem chains_keep_dates :
    (∀ t : DateTime, t.Valid → KeptByChains id t) ∧
    ∀ z : Zoned, z.Valid → KeptByChains Zoned.utc z :=
  ⟨fun _ ht => DateTime.keptByMoves.chains ht, fun _ hz => Zoned.keptByMoves.chains hz⟩

/-- Steps from within a leap second: back to the end of another month, on inside the leap second, a
refused one, and out of it backwards. In a zone ahead by half a minute and more the local clock shows
another second. -/
theorem chains_keep_dates_leap_second :
    (DateTime.mk ⟨2016, 12, 31⟩ ⟨23, 59, 59, 1500000000⟩).Valid ∧
      wander (DateTime.mk ⟨2016, 12, 31⟩ ⟨23, 59, 59, 1500000000⟩)
          [(.months, -10.75), (.seconds, 0.25), (.years, 1e9), (.seconds, -1.0)] =
        ⟨⟨2016, 2, 29⟩, ⟨23, 59, 59, 750000000⟩⟩ ∧
      (wander (DateTime.mk ⟨2016, 12, 31⟩ ⟨23, 59, 59, 1500000000⟩)
        ([(.months, -10.75), (.seconds, 0.25), (.years, 1e9), (.seconds, -1.0)] ++
          [(.plus, 1e6), (.hours, 5.0)])).time.isLeapSecond = false ∧
      (Zoned.mk ⟨⟨2016, 12, 31⟩, ⟨23, 59, 59, 1500000000⟩⟩ 5430).Valid ∧
      (wander (Zoned.mk ⟨⟨2016, 12, 31⟩, ⟨23, 59, 59, 1500000000⟩⟩ 5430) [(.months, 1.0)]).utc =
        ⟨⟨2017, 1, 31⟩, ⟨23, 59, 59, 1500000000⟩⟩ ∧
      (DateTime.mk ⟨2017, 1, 31⟩ ⟨23, 59, 59, 1500000000⟩).Valid ∧
      Shift.days.count? 0.5 = some 0 ∧
      Shift.days.apply
          (wander (Zoned.mk ⟨⟨2016, 12, 31⟩, ⟨23, 59, 59, 1500000000⟩⟩ 5430) [(.months, 1.0)]) 0.5 =
        .ok (wander (Zoned.mk ⟨⟨2016, 12, 31⟩, ⟨23, 59, 59, 1500000000⟩⟩ 5430) [(.months, 1.0)]) := by
  have ht : (DateTime.mk ⟨2016, 12, 31⟩ ⟨23, 59, 59, 1500000000⟩).Valid := by decide
  have hz : (Zoned.mk ⟨⟨2016, 12, 31⟩, ⟨23, 59, 59, 1500000000⟩⟩ 5430).Valid := by decide
  have hleft : wander (DateTime.mk ⟨2016, 12, 31⟩ ⟨23, 59, 59, 1500000000⟩)
      [(.months, -10.75), (.seconds, 0.25), (.years, 1e9), (.seconds, -1.0)] =
        ⟨⟨2016, 2, 29⟩, ⟨23, 59, 59, 750000000⟩⟩ := by decide +kernel
  have hreached : (wander (Zoned.mk ⟨⟨2016, 12, 31⟩, ⟨23, 59, 59, 1500000000⟩⟩ 5430)
      [(.months, 1.0)]).utc = ⟨⟨2017, 1, 31⟩, ⟨23, 59, 59, 1500000000⟩⟩ := by decide +kernel
  have hcount : Shift.days.count? 0.5 = some 0 := by decide +kernel
  have hplain := chains_keep_dates.1 _ ht
  have hzoned := chains_keep_dates.2 _ hz
  have houtside := hplain.ordinary
    [(.months, -10.75), (.seconds, 0.25), (.years, 1e9), (.seconds, -1.0)]
    [(.plus, 1e6), (.hours, 5.0)]
  have hvalid := hzoned.valid [(.months, 1.0)]
  rw [id, id, hleft] at houtside
  rw [hreached] at hvalid
  exact ⟨ht, hleft, houtside rfl, hz, hreached, hvalid, hcount,
    hzoned.nothing [(.months, 1.0)] .days 0.5 hcount⟩

end Reckon.Calendar
