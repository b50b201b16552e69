/-!
Exact numbers are the rationals of core, always in lowest terms. This module holds what the
calculator asks of one: how many bits its fraction takes, its whole part toward zero, the nearest
whole number, the remainder of a truncated division, and the fraction as text.
-/

namespace Reckon.Rational

def bitLength (n : Nat) : Nat := if n = 0 then 0 else n.log2 + 1

def size (r : Rat) : Nat := bitLength r.num.natAbs + bitLength r.den

def truncate (r : Rat) : Int := r.num.tdiv r.den

/-- The whole number nearest to `r`; a half goes away from zero. -/
def roundHalfAway (r : Rat) : Int :=
  r.num.sign * ((2 * r.num.natAbs + r.den) / (2 * r.den) : Nat)

/-- What is left of `a` after the whole part of `a / b` is taken away `b` times. It has the sign of
`a`, or is zero. -/
def remainder (a b : Rat) : Rat := a - b * truncate (a / b)

/-- The number as an integer where it is one, else as `n/d` in lowest terms. -/
def fraction (r : Rat) : String :=
  if r.den = 1 then toString r.num else toString r.num ++ "/" ++ toString r.den

example : remainder (-7) 4 = -3 ∧ remainder (7 / 2) 1 = 1 / 2 := by decide +kernel

end Reckon.Rational
