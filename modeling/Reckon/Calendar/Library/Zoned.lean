import Reckon.Calendar.Library.DateTime

/-!
Dates in a zone with a fixed offset from universal time, as the calendar library has them: its `DateTime`.
The date is kept in universal time. Spans of time are added there; months are counted on the local
calendar, whose date may lie a day outside the years of the calendar.
-/

namespace Reckon.Calendar

/-- A date in universal time, and how many seconds the local clock is ahead of it. -/
structure Zoned where
  utc : DateTime
  offset : Int
deriving DecidableEq

namespace Zoned

def Valid (z : Zoned) : Prop := z.utc.Valid ∧ z.offset.natAbs < 86400

instance (z : Zoned) : Decidable z.Valid := inferInstanceAs (Decidable (_ ∧ _))

def localTime (z : Zoned) : DateTime := z.utc.translate z.offset

/-- The library's `checked_add_signed`. -/
def addDuration? (d : Duration) (z : Zoned) : Option Zoned :=
  (z.utc.addDuration? d).map (⟨·, z.offset⟩)

/-- A move of the local date, taken back to universal time. -/
def onLocal? (move? : DateTime → Option DateTime) (z : Zoned) : Option Zoned := do
  let moved ← move? z.localTime
  let utc ← (moved.translate (-z.offset)).inCalendar?
  return ⟨utc, z.offset⟩

/-- The library's `checked_add_months`. -/
def addMonths? (months : Nat) (z : Zoned) : Option Zoned := z.onLocal? (·.addMonths? months)

/-- The library's `checked_sub_months`. -/
def subMonths? (months : Nat) (z : Zoned) : Option Zoned := z.onLocal? (·.subMonths? months)

end Zoned
end Reckon.Calendar
