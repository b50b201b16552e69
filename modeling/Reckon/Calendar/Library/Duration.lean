/-!
Spans of time as the calendar library has them, in whole milliseconds of either sign. A span fits one
signed 64-bit word, the least of them left out, so that every span has an opposite.
-/

namespace Reckon.Calendar

/-- The library's `TimeDelta`. -/
structure Duration where
  millis : Int
deriving DecidableEq

namespace Duration

def maxMillis : Int := 0x7FFFFFFFFFFFFFFF

/-- The library's `try_milliseconds`: a span that is too long is none. -/
def ofMillis? (millis : Int) : Option Duration :=
  if millis.natAbs ≤ maxMillis then some ⟨millis⟩ else none

/-- The library's `try_days`. -/
def ofDays? (days : Int) : Option Duration := ofMillis? (days * 86400000)

def nanos (d : Duration) : Int := d.millis * 1000000

end Duration
end Reckon.Calendar
