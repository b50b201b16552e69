import Reckon.Rational.Basic

/-!
Integer powers of a rational by repeated squaring. The state of the computation is explicit, so that
statements can speak of every number that is built on the way: the last square is never one that
the result does not need.
-/

namespace Reckon.Rational

/-- A power under way: what remains to be multiplied into `product` is `square` raised to
`exponent`. -/
structure PowerState where
  product : Rat
  square : Rat
  exponent : Nat

/-- One binary digit of the exponent: an odd exponent takes one factor out, and the square is taken
only while digits remain. -/
def PowerState.step (s : PowerState) : PowerState where
  product := if s.exponent % 2 = 1 then s.product * s.square else s.product
  square := if 0 < s.exponent / 2 then s.square * s.square else s.square
  exponent := s.exponent / 2

def PowerState.start (base : Rat) (exponent : Nat) : PowerState := ⟨1, base, exponent⟩

def PowerState.after (n : Nat) (s : PowerState) : PowerState := Nat.repeat PowerState.step n s

/-- A base raised to an integer, one step for each binary digit of the exponent; a negative exponent
gives the reciprocal. The base must not be zero for a negative exponent. -/
def power (base : Rat) (exponent : Int) : Rat :=
  let finish := (PowerState.start base exponent.natAbs).after (bitLength exponent.natAbs)
  if exponent < 0 then finish.product⁻¹ else finish.product

example : power (2 / 3) 3 = 8 / 27 ∧ power 2 (-2) = 1 / 4 ∧ power 0 0 = 1 := by decide +kernel

end Reckon.Rational
