import Reckon.Calendar.Movement
import Reckon.Proofs.Calendar.Months
import Reckon.Proofs.Rational.Truncation
import Reckon.Proofs.Traced

/-!
What a quantity means for a date. Counts and spans pass through machine words, and those that do not
fit them are clamped or dropped on the way. None of that shows in a moved date: whatever does not fit
its word leads out of the calendar from every date of it.
-/

namespace Reckon.Calendar

open Rational

variable {τ : Type} [Movable τ] {date moved : τ} {t u : DateTime} {z : Zoned} {shift : Shift}
  {quantity : Float}

/-- A shift by a span of time, which is as long wherever it begins. -/
def Shift.Fixed (shift : Shift) : Prop := shift ≠ years ∧ shift ≠ months

/-- The milliseconds of a quantity of units of so many, rounded, whatever word holds them. -/
def clockMillis? (quantity unitMillis : Float) : Option Int :=
  (Binary64.toRat? (quantity * unitMillis)).map roundHalfAway

/-- The months by which a quantity moves a date, for the shifts that count months. -/
def Shift.monthCount? (shift : Shift) (quantity : Float) : Option Int :=
  match shift with
  | years => (Binary64.toRat? quantity).map fun value => 12 * truncate value
  | months => (Binary64.toRat? quantity).map truncate
  | days | plus | minus | hours | minutes | seconds => none

/-- The milliseconds by which a quantity moves a date, for the shifts by spans of time. -/
def Shift.millis? (shift : Shift) (quantity : Float) : Option Int := do
  let value ← Binary64.toRat? quantity
  match shift with
  | years | months => none
  | days | plus => some (truncate value * 86400000)
  | minus => some (-truncate value * 86400000)
  | hours => clockMillis? quantity 3600000.0
  | minutes => clockMillis? quantity 60000.0
  | seconds => clockMillis? quantity 1000.0

/-- The displacement that a quantity means, before any word has to hold it. -/
def Shift.meant? (shift : Shift) (quantity : Float) : Option Displacement :=
  ((shift.monthCount? quantity).map .months).or
    ((shift.millis? quantity).map fun millis => .span ⟨millis⟩)

theorem Shift.span_of_fixed (hfixed : shift.Fixed) {d : Displacement}
    (h : shift.displacement? quantity = some d) : ∃ duration, d = .span duration := by
  cases shift with
  | years => exact absurd rfl hfixed.1
  | months => exact absurd rfl hfixed.2
  | days | plus | hours | minutes | seconds =>
    obtain ⟨duration, -, rfl⟩ := Option.map_eq_some_iff.mp h
    exact ⟨duration, rfl⟩
  | minus =>
    obtain ⟨opposite, -, hspan⟩ := Option.bind_eq_some_iff.mp h
    obtain ⟨duration, -, rfl⟩ := Option.map_eq_some_iff.mp hspan
    exact ⟨duration, rfl⟩

theorem Shift.meant?_of_fixed (hfixed : shift.Fixed) :
    shift.meant? quantity = (shift.millis? quantity).map fun millis => .span ⟨millis⟩ := by
  cases shift with
  | years => exact absurd rfl hfixed.1
  | months => exact absurd rfl hfixed.2
  | days | plus | minus | hours | minutes | seconds => rfl

theorem Shift.meant?_of_monthCount {count : Int} (h : shift.monthCount? quantity = some count) :
    shift.meant? quantity = some (.months count) := by
  rw [meant?, h]
  rfl

/-- A number at the end of a signed word or past it. -/
def Far (n : Int) : Prop := Word.maxSigned ≤ n.natAbs

theorem far_of_not_signed {n : Int} (h : ¬Word.Signed n) : Far n := by
  unfold Word.Signed Word.minSigned at h
  unfold Far
  unfold Word.maxSigned at *
  omega

theorem Far.clamp {n : Int} (h : Far n) : Far (Word.clamp n) := by
  unfold Far Word.maxSigned at h
  unfold Far Word.clamp Word.minSigned Word.maxSigned
  omega

theorem Far.neg {n : Int} (h : Far n) : Far (-n) := by
  unfold Far at h ⊢
  rwa [Int.natAbs_neg]

/-- A displacement that leads out of the calendar wherever it begins. -/
def Displacement.TooLong : Displacement → Prop
  | months count => DateTime.maxMonths < count.natAbs
  | span duration => Duration.maxMillis < duration.millis.natAbs

theorem Far.tooLong_months {n : Int} (h : Far n) : (Displacement.months n).TooLong := by
  unfold Far Word.maxSigned at h
  change 0x7FFFFFFF < n.natAbs
  omega

theorem Far.tooLong_days {n : Int} (h : Far n) : (Displacement.span ⟨n * 86400000⟩).TooLong := by
  unfold Far Word.maxSigned at h
  change 0x7FFFFFFFFFFFFFFF < ((n * 86400000).natAbs : Int)
  omega

theorem Far.ofDays?_eq_none {n : Int} (h : Far n) : Duration.ofDays? n = none := by
  have hlong := h.tooLong_days
  unfold Duration.ofDays? Duration.ofMillis?
  exact if_neg (Int.not_le.mpr hlong)

/-- Words do not show where what is too long leads nowhere. -/
def Bounded (date : τ) : Prop := ∀ d : Displacement, d.TooLong → d.move? date = none

private theorem wholeCount_of_toRat {value : Rat} (hvalue : Binary64.toRat? quantity = some value) :
    wholeCount quantity = Word.clamp (truncate value) := by
  unfold wholeCount
  rw [hvalue]

section

variable (hbounded : Bounded date) (n : Int)
include hbounded

theorem Duration.ofMillis?_bind :
    ((ofMillis? n).map Displacement.span).bind (·.move? date) =
      (Displacement.span ⟨n⟩).move? date := by
  unfold ofMillis?
  split
  case isTrue => rfl
  case isFalse hlong => exact (hbounded (.span ⟨n⟩) (Int.not_le.mp hlong)).symm

theorem Duration.ofDays?_clamp_bind :
    ((ofDays? (Word.clamp n)).map Displacement.span).bind (·.move? date) =
      (Displacement.span ⟨n * 86400000⟩).move? date := by
  by_cases hn : Word.Signed n
  · rw [Word.clamp_of_signed hn]
    exact ofMillis?_bind hbounded _
  · have hfar := far_of_not_signed hn
    rw [hfar.clamp.ofDays?_eq_none, hbounded _ hfar.tooLong_days]
    rfl

theorem Duration.ofDays?_neg_clamp_bind :
    ((Word.signed? (-Word.clamp n)).bind fun opposite =>
        (ofDays? opposite).map Displacement.span).bind (·.move? date) =
      (Displacement.span ⟨-n * 86400000⟩).move? date := by
  by_cases hn : Word.Signed n ∧ Word.Signed (-n)
  · rw [Word.clamp_of_signed hn.1, Word.signed?, if_pos hn.2]
    exact ofMillis?_bind hbounded _
  · have hfar : Far n := by
      by_cases hsigned : Word.Signed n
      · have hopposite := far_of_not_signed fun h => hn ⟨hsigned, h⟩
        simpa using hopposite.neg
      · exact far_of_not_signed hsigned
    rw [hbounded _ hfar.neg.tooLong_days, Word.signed?]
    split
    case isTrue =>
      rw [Option.bind_some, hfar.clamp.neg.ofDays?_eq_none]
      rfl
    case isFalse => rfl

theorem Displacement.months_clamp_move? :
    (months (Word.clamp n)).move? date = (months n).move? date := by
  by_cases hn : Word.Signed n
  · rw [Word.clamp_of_signed hn]
  · have hfar := far_of_not_signed hn
    rw [hbounded _ hfar.clamp.tooLong_months, hbounded _ hfar.tooLong_months]

theorem Displacement.years_clamp_bind :
    ((Word.signed? (12 * Word.clamp n)).map months).bind (·.move? date) =
      (months (12 * n)).move? date := by
  by_cases hn : Word.Signed (12 * n)
  · have hsigned : Word.Signed n := by
      unfold Word.Signed Word.minSigned Word.maxSigned at *
      omega
    rw [Word.clamp_of_signed hsigned, Word.signed?, if_pos hn]
    rfl
  · have hclamped : ¬Word.Signed (12 * Word.clamp n) := by
      unfold Word.Signed Word.clamp Word.minSigned Word.maxSigned at *
      omega
    rw [hbounded _ (far_of_not_signed hn).tooLong_months, Word.signed?, if_neg hclamped]
    rfl

end

/-- What the limit of the floats leaves out is no span either. -/
theorem tooLong_of_clockLimit {n : Int} (h : clockLimit ≤ n.natAbs) :
    (Displacement.span ⟨n⟩).TooLong := by
  unfold clockLimit at h
  change 0x7FFFFFFFFFFFFFFF < (n.natAbs : Int)
  omega

private theorem clockSpan?_bind (hbounded : Bounded date) (unitMillis : Float) :
    ((clockSpan? quantity unitMillis).map Displacement.span).bind (·.move? date) =
      ((clockMillis? quantity unitMillis).map fun millis =>
        Displacement.span ⟨millis⟩).bind (·.move? date) := by
  unfold clockSpan? clockMillis?
  cases Binary64.toRat? (quantity * unitMillis) with
  | none => rfl
  | some product =>
    simp only [Option.bind_eq_bind, Option.bind_some, Option.map_some]
    split
    case isTrue hlimit =>
      exact (hbounded _ (tooLong_of_clockLimit hlimit)).symm
    case isFalse => exact Duration.ofMillis?_bind hbounded _

/-- A quantity moves a date by what it means. -/
theorem Shift.displacement?_bind (hbounded : Bounded date) {value : Rat}
    (hvalue : Binary64.toRat? quantity = some value) :
    (shift.displacement? quantity).bind (·.move? date) =
      (shift.meant? quantity).bind (·.move? date) := by
  unfold displacement? meant? monthCount? millis?
  rw [wholeCount_of_toRat hvalue, hvalue]
  cases shift with
  | years => exact Displacement.years_clamp_bind hbounded _
  | months => exact Displacement.months_clamp_move? hbounded _
  | days => exact Duration.ofDays?_clamp_bind hbounded _
  | plus => exact Duration.ofDays?_clamp_bind hbounded _
  | minus => exact Duration.ofDays?_neg_clamp_bind hbounded _
  | hours => exact clockSpan?_bind hbounded _
  | minutes => exact clockSpan?_bind hbounded _
  | seconds => exact clockSpan?_bind hbounded _

theorem DateTime.plusMonths?_of_long {months : Int} (h : maxMonths < months.natAbs) (t : DateTime) :
    plusMonths? months t = none := by
  have hzero : months ≠ 0 := by
    rintro rfl
    exact absurd h (Nat.not_lt_zero _)
  rw [plusMonths?_eq_ite, if_neg hzero, if_neg (Nat.not_le.mpr h)]

theorem DateTime.Shown.bounded (h : t.Shown) : Bounded t := by
  intro d hlong
  cases d with
  | months count => exact plusMonths?_of_long hlong t
  | span duration => exact h.addDuration?_of_long hlong

theorem Zoned.bounded (h : z.utc.Shown) : Bounded z := by
  intro d hlong
  cases d with
  | months count =>
    change plusMonths? count z = none
    rw [plusMonths?_eq_bind, DateTime.plusMonths?_of_long hlong]
    rfl
  | span duration =>
    change z.addDuration? duration = none
    unfold addDuration?
    rw [h.addDuration?_of_long hlong]
    rfl

theorem Shift.apply_eq_move? : shift.apply date quantity =
    if Binary64.toRat? quantity = none then .error .nonFiniteResult
    else
      match (shift.displacement? quantity).bind (·.move? date) with
      | some moved => .ok moved
      | none => .error (.dateOutOfRange shift quantity) := by
  unfold apply applyTraced
  split
  case isTrue => rfl
  case isFalse => cases (shift.displacement? quantity).bind (·.move? date) <;> rfl

/-- A shift tells of a date that would leave the calendar, and of nothing else. -/
theorem Shift.tellsRefusal_applyTraced :
    Traced.TellsRefusal OperatorError.events (shift.applyTraced date quantity) := by
  unfold applyTraced
  split
  case isTrue => rfl
  case isFalse => cases (shift.displacement? quantity).bind (·.move? date) <;> rfl

/-- What a shift gives, told by what its quantity means. -/
theorem Shift.apply_eq (hbounded : Bounded date) :
    shift.apply date quantity =
      match Binary64.toRat? quantity with
      | none => .error .nonFiniteResult
      | some _ =>
        match (shift.meant? quantity).bind (·.move? date) with
        | some moved => .ok moved
        | none => .error (.dateOutOfRange shift quantity) := by
  rw [apply_eq_move?]
  cases hvalue : Binary64.toRat? quantity with
  | none => rfl
  | some value =>
    rw [displacement?_bind hbounded hvalue]
    rfl

/-- A finite quantity is refused only for where it leads. -/
theorem Shift.refused_of_finite {value : Rat} (hvalue : Binary64.toRat? quantity = some value)
    (h : ∀ moved, shift.apply date quantity ≠ .ok moved) :
    shift.apply date quantity = .error (.dateOutOfRange shift quantity) := by
  rw [apply_eq_move?, hvalue, if_neg (by simp)] at h ⊢
  cases hmove : (shift.displacement? quantity).bind (·.move? date) with
  | some moved =>
    rw [hmove] at h
    exact absurd rfl (h moved)
  | none => rfl

theorem Shift.apply_eq_ok_iff (hbounded : Bounded date) :
    shift.apply date quantity = .ok moved ↔
      ∃ d, shift.meant? quantity = some d ∧ d.move? date = some moved := by
  rw [apply_eq hbounded]
  cases hvalue : Binary64.toRat? quantity with
  | none =>
    have hnone : shift.meant? quantity = none := by
      unfold meant? monthCount? millis?
      rw [hvalue]
      cases shift <;> rfl
    simp [hnone]
  | some value =>
    simp only
    cases shift.meant? quantity with
    | none => simp
    | some d =>
      simp only [Option.bind_some, Option.some.injEq, exists_eq_left']
      cases d.move? date <;> simp

end Reckon.Calendar
