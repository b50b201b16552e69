import Reckon.Binary64.Power
import Reckon.Limits
import Reckon.Rational.Power
import Reckon.Symbol
import Reckon.Traced
import Reckon.Word

/-!
The operators on exact numbers. Sums, products, quotients and remainders are exact and are refused
beforehand when their operands are too large together. A power is exact while its size, foreseen from
the base and the exponent, stays within the limits; any other power is that of the nearest binary64
numbers, taken back as the rational it is.
-/

namespace Reckon.Op

open Rational

/-- Refuses operands that take more than twice the bits of an exact power together, and tells so.
Without this a chain of products of large powers would grow without bound. -/
def checkSize (limits : Limits) (op : Op) (a b : Rat) : Traced OperatorError Unit :=
  let bits := Word.saturate (size a + size b)
  if Word.saturate (2 * limits.maxBits) < bits then do
    Traced.tell (.operandsTooLarge op bits)
    Traced.refuse (.operandsTooLarge op bits)
  else return ()

def checkDivisor (b : Rat) : Except OperatorError Unit :=
  if b = 0 then .error .divisionByZero else .ok ()

def wholeExponent? (exponent : Rat) : Option Int :=
  if exponent.den = 1 then Word.signed? exponent.num else none

/-- A power by way of the nearest binary64 numbers; it has a value only where it is finite. -/
def nearbyPower (base exponent : Rat) (pow : Float → Float → Float := Float.pow) :
    Except OperatorError Rat :=
  match Binary64.toRat? (Binary64.power (Binary64.nearest base) (Binary64.nearest exponent) pow) with
  | some value => .ok value
  | none => .error .nonFiniteResult

/-- A power that is not taken exactly. The exponent need not be whole, so a zero base is asked about
here as well. -/
def raiseNearby (base exponent : Rat) (pow : Float → Float → Float := Float.pow) :
    Except OperatorError Rat :=
  if base = 0 ∧ exponent < 0 then .error .divisionByZero else nearbyPower base exponent pow

/-- A rational to a rational power. It is exact for a whole exponent whose magnitude times the size of
the base stays within the limits. Any other power goes by the machine's power function, core's unless
another is handed in. -/
def raise (limits : Limits) (base exponent : Rat) (pow : Float → Float → Float := Float.pow) :
    Except OperatorError Rat :=
  match wholeExponent? exponent with
  | some n =>
    if base = 0 ∧ n < 0 then .error .divisionByZero
    else if Word.saturate (size base * n.natAbs) ≤ limits.maxBits then .ok (power base n)
    else raiseNearby base exponent pow
  | none => raiseNearby base exponent pow

/-- An operator on two rationals, telling of what it refuses. The sizes are looked at before a zero
divisor is. -/
def applyTraced (limits : Limits) (op : Op) (a b : Rat) : Traced OperatorError Rat := do
  if op ≠ pow then checkSize limits op a b
  match op with
  | add => return a + b
  | sub => return a - b
  | mul => return a * b
  | div => do
    checkDivisor b
    return a / b
  | rem => do
    checkDivisor b
    return remainder a b
  | pow => raise limits a b

def apply (limits : Limits) (op : Op) (a b : Rat) : Except OperatorError Rat :=
  (op.applyTraced limits a b).result

def applyNamed (limits : Limits) (symbol : String) (a b : Rat) : Except OperatorError Rat := do
  let op ← named symbol
  op.apply limits a b

end Reckon.Op
