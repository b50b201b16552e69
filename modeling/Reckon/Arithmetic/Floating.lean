import Reckon.Arithmetic.Exact
import Reckon.Binary64.Remainder

/-!
The operators on binary64 numbers. They round as binary64 does and hand infinities and results that
are no number on; only a zero divisor is refused. A float has a fixed size, so no limit applies.
-/

namespace Reckon.Op

/-- An operator on two floats. A divisor of either zero is refused, also when the dividend is not a
number. -/
def applyFloat (op : Op) (a b : Float) : Except OperatorError Float :=
  match op with
  | add => .ok (a + b)
  | sub => .ok (a - b)
  | mul => .ok (a * b)
  | div => if b == 0.0 then .error .divisionByZero else .ok (a / b)
  | rem => if b == 0.0 then .error .divisionByZero else .ok (Binary64.remainder a b)
  | pow => .ok (Binary64.power a b)

def applyFloatNamed (symbol : String) (a b : Float) : Except OperatorError Float := do
  let op ← named symbol
  op.applyFloat a b

end Reckon.Op
