import Reckon.Calendar.Library.Date
import Reckon.Calendar.Library.Duration

/-!
Dates with a time of day, to the nanosecond, as the calendar library has them: its `NaiveDateTime`. Where
a leap second is inserted the nanoseconds of second 59 go on up to two billion; that is how a time inside
it is written. Instants are nanoseconds counted from the beginning of day zero, in days of 86400 seconds,
so an instant does not tell a time inside a leap second from one in the second after it. A date inside a
leap second is therefore moved by rules of its own.
-/

namespace Reckon.Calendar

/-- The library's `NaiveTime`. -/
structure TimeOfDay where
  hour : Nat
  minute : Nat
  second : Nat
  nano : Nat
deriving DecidableEq

namespace TimeOfDay

/-- A time that a clock shows; only the last second of a minute may be a leap second. -/
def Valid (time : TimeOfDay) : Prop :=
  time.hour < 24 ∧ time.minute < 60 ∧ time.second < 60 ∧ time.nano < 2000000000 ∧
    (1000000000 ≤ time.nano → time.second = 59)

instance (time : TimeOfDay) : Decidable time.Valid :=
  inferInstanceAs (Decidable (_ ∧ _ ∧ _ ∧ _ ∧ (_ → _)))

def seconds (time : TimeOfDay) : Nat := 3600 * time.hour + 60 * time.minute + time.second

def ofSeconds (seconds nano : Nat) : TimeOfDay :=
  ⟨seconds / 3600, seconds / 60 % 60, seconds % 60, nano⟩

def isLeapSecond (time : TimeOfDay) : Bool := 1000000000 ≤ time.nano

end TimeOfDay

structure DateTime where
  date : Date
  time : TimeOfDay
deriving DecidableEq

namespace DateTime

def Valid (t : DateTime) : Prop := t.date.Valid ∧ t.time.Valid

instance (t : DateTime) : Decidable t.Valid := inferInstanceAs (Decidable (_ ∧ _))

def dayNanos : Int := 86400000000000

def instant (t : DateTime) : Int :=
  t.date.dayNumber * dayNanos + (t.time.seconds * 1000000000 + t.time.nano : Nat)

/-- The date and time of an instant, outside all leap seconds. -/
def ofInstant (instant : Int) : DateTime :=
  let rest := (instant % dayNanos).toNat
  ⟨Date.ofDayNumber (instant / dayNanos),
    TimeOfDay.ofSeconds (rest / 1000000000) (rest % 1000000000)⟩

def inCalendar? (t : DateTime) : Option DateTime := if YearInRange t.date.year then some t else none

/-- The date after some whole seconds, or before if there are fewer than none, as the library's
`overflowing_add_offset` gives it. The nanoseconds stay, and the year may leave the calendar. -/
def translate (seconds : Int) (t : DateTime) : DateTime :=
  let total := t.date.dayNumber * 86400 + t.time.seconds + seconds
  ⟨Date.ofDayNumber (total / 86400), TimeOfDay.ofSeconds (total % 86400).toNat t.time.nano⟩

/-- The library's `checked_add_signed`. Inside a leap second, less than a second may be added as long as
that does not lead out behind it; whatever leads out forwards starts as if the leap second had not
been, whatever leads out backwards as if it were the second after it. -/
def addDuration? (d : Duration) (t : DateTime) : Option DateTime :=
  if t.time.isLeapSecond then
    let nano := t.time.nano + d.nanos
    if d.nanos.natAbs < 1000000000 ∧ nano < 2000000000 then
      some { t with time := { t.time with nano := nano.toNat } }
    else if 0 < d.millis then (ofInstant (t.instant - 1000000000 + d.nanos)).inCalendar?
    else (ofInstant (t.instant + d.nanos)).inCalendar?
  else (ofInstant (t.instant + d.nanos)).inCalendar?

/-- The most months that the library moves a date by at once: the greatest signed 32-bit word. -/
def maxMonths : Nat := 0x7FFFFFFF

/-- The date some months later, in the calendar or not. A day past the end of the month reached becomes
its last day; the time of day stays. -/
def monthsOn (months : Int) (t : DateTime) : DateTime :=
  let index := 12 * t.date.year + (t.date.month - 1 : Nat) + months
  let year := index / 12
  let month := (index % 12).toNat + 1
  ⟨⟨year, month, min t.date.day (daysInMonth year month)⟩, t.time⟩

/-- The library's `diff_months`. -/
def diffMonths? (months : Int) (t : DateTime) : Option DateTime := (t.monthsOn months).inCalendar?

/-- The library's `checked_add_months`. No months at all leave any date as it is. -/
def addMonths? (months : Nat) (t : DateTime) : Option DateTime :=
  if months = 0 then some t
  else if months ≤ maxMonths then t.diffMonths? months
  else none

/-- The library's `checked_sub_months`. -/
def subMonths? (months : Nat) (t : DateTime) : Option DateTime :=
  if months = 0 then some t
  else if months ≤ maxMonths then t.diffMonths? (-months)
  else none

end DateTime
end Reckon.Calendar
