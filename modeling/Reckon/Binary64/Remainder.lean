import Reckon.Binary64.Nearest
import Reckon.Rational.Basic

/-!
The remainder of two binary64 numbers. It is the remainder of the truncated division of the two
rationals, which is always a binary64 number, so nothing is rounded.
-/

namespace Reckon.Binary64

/-- The remainder of `x` by `y`, with the sign of `x` also where it is zero. A remainder of an
infinity or by zero is not a number; a remainder by an infinity is `x` itself. -/
def remainder (x y : Float) : Float :=
  match toRat? x, decode y with
  | some _, .infinite _ => x
  | some a, .finite negative mantissa exponent =>
    match (Datum.finite negative mantissa exponent).toRat? with
    | some b =>
      if b = 0 then notANumber
      else
        let r := Rational.remainder a b
        if r = 0 then zero (isNegative x) else nearest r
    | none => notANumber
  | _, _ => notANumber

example : remainder (-7.0) 4.0 = -3.0 ∧ remainder (-8.0) 4.0 = zero true ∧
    remainder 5.5 (infinity true) = 5.5 ∧ remainder 5.0 0.0 = notANumber := by decide +kernel

end Reckon.Binary64
