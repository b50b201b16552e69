/-!
The eight ways to move a date, named by one letter or sign each. Case tells months from minutes.
-/

namespace Reckon.Calendar

/-- What a quantity counts when a date is moved by it: units of the calendar, units of the clock, or
whole days added or withdrawn. -/
inductive Shift where
  | years
  | months
  | days
  | hours
  | minutes
  | seconds
  | plus
  | minus
deriving DecidableEq

namespace Shift

def all : List Shift := [years, months, days, hours, minutes, seconds, plus, minus]

def symbol : Shift → String
  | years => "y"
  | months => "M"
  | days => "d"
  | hours => "H"
  | minutes => "m"
  | seconds => "s"
  | plus => "+"
  | minus => "-"

def ofSymbol? (s : String) : Option Shift := all.find? (·.symbol = s)

end Shift
end Reckon.Calendar
