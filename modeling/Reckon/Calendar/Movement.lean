import Reckon.Binary64.Basic
import Reckon.Calendar.Library.Zoned
import Reckon.Rational.Basic
import Reckon.Symbol
import Reckon.Traced
import Reckon.Word

/-!
Moving a date by a quantity. Years, months and days are counted whole, the fraction of the quantity cut
off; hours, minutes and seconds keep it, to the millisecond. A quantity thus stands for a displacement,
a number of months or a span of time, whatever date it is applied to. What a displacement does to a date
is the calendar library's affair.
-/

namespace Reckon.Calendar

inductive Displacement where
  | months (count : Int)
  | span (duration : Duration)
deriving DecidableEq

/-- The whole part of a quantity as a signed 64-bit word. What is not finite counts nothing. -/
def wholeCount (quantity : Float) : Int :=
  match Binary64.toRat? quantity with
  | some value => Word.clamp (Rational.truncate value)
  | none => 0

/-- The least float above every signed 64-bit word: the greatest of them is not a float. -/
def clockLimit : Int := 0x8000000000000000

/-- A quantity of units of so many milliseconds, rounded to the millisecond, a half away from zero. The
product is the one of binary64, and what is no signed word is no span. -/
def clockSpan? (quantity unitMillis : Float) : Option Duration := do
  let product ← Binary64.toRat? (quantity * unitMillis)
  let millis := Rational.roundHalfAway product
  if clockLimit ≤ millis.natAbs then none else Duration.ofMillis? millis

/-- The displacement that a quantity stands for; there is none for a count that leaves its word or a
span that is too long. -/
def Shift.displacement? (shift : Shift) (quantity : Float) : Option Displacement :=
  let count := wholeCount quantity
  match shift with
  | years => (Word.signed? (12 * count)).map .months
  | months => some (.months count)
  | days => (Duration.ofDays? count).map .span
  | plus => (Duration.ofDays? count).map .span
  | minus => do
    let opposite ← Word.signed? (-count)
    (Duration.ofDays? opposite).map .span
  | hours => (clockSpan? quantity 3600000.0).map .span
  | minutes => (clockSpan? quantity 60000.0).map .span
  | seconds => (clockSpan? quantity 1000.0).map .span

class Movable (τ : Type) where
  addMonths? : Nat → τ → Option τ
  subMonths? : Nat → τ → Option τ
  addDuration? : Duration → τ → Option τ

instance : Movable DateTime := ⟨DateTime.addMonths?, DateTime.subMonths?, DateTime.addDuration?⟩

instance : Movable Zoned := ⟨Zoned.addMonths?, Zoned.subMonths?, Zoned.addDuration?⟩

/-- A date some months later, or earlier if there are fewer than none. The library counts months with
32 bits and without a sign, and goes each way by a call of its own. -/
def plusMonths? {τ : Type} [Movable τ] (months : Int) (date : τ) : Option τ := do
  let count ← Word.half? months.natAbs
  if 0 ≤ months then Movable.addMonths? count date else Movable.subMonths? count date

def Displacement.move? {τ : Type} [Movable τ] : Displacement → τ → Option τ
  | months count, date => plusMonths? count date
  | span duration, date => Movable.addDuration? duration date

/-- A date moved by a quantity of what `shift` counts, telling of a date that would leave the
calendar. -/
def Shift.applyTraced {τ : Type} [Movable τ] (shift : Shift) (date : τ) (quantity : Float) :
    Traced OperatorError τ :=
  if Binary64.toRat? quantity = none then Traced.refuse .nonFiniteResult
  else
    match (shift.displacement? quantity).bind (·.move? date) with
    | some moved => return moved
    | none => do
      Traced.tell (.dateOutOfRange shift quantity)
      Traced.refuse (.dateOutOfRange shift quantity)

def Shift.apply {τ : Type} [Movable τ] (shift : Shift) (date : τ) (quantity : Float) :
    Except OperatorError τ :=
  (shift.applyTraced date quantity).result

def Shift.applyNamed {τ : Type} [Movable τ] (symbol : String) (date : τ) (quantity : Float) :
    Except OperatorError τ := do
  let shift ← Shift.named symbol
  shift.apply date quantity

example : Shift.months.apply (DateTime.mk ⟨2020, 1, 31⟩ ⟨8, 0, 0, 0⟩) 1.9 =
      .ok ⟨⟨2020, 2, 29⟩, ⟨8, 0, 0, 0⟩⟩ ∧
    Shift.hours.apply (DateTime.mk ⟨2019, 12, 31⟩ ⟨12, 0, 0, 0⟩) 12.5 =
      .ok ⟨⟨2020, 1, 1⟩, ⟨0, 30, 0, 0⟩⟩ ∧
    Shift.seconds.apply (DateTime.mk ⟨2016, 12, 31⟩ ⟨23, 59, 59, 1500000000⟩) 1.0 =
      .ok ⟨⟨2017, 1, 1⟩, ⟨0, 0, 0, 500000000⟩⟩ ∧
    Shift.years.apply (DateTime.mk ⟨2020, 1, 31⟩ ⟨8, 0, 0, 0⟩) 1e6 =
      .error (.dateOutOfRange .years 1e6) := by decide +kernel

end Reckon.Calendar
