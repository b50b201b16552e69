import Reckon.Binary64.Basic

/-!
The binary64 number nearest to a rational. The quotient is put on the grid of the multiples of
`2 ^ q` that has fifty-three digits at its size, or on the finest grid if the number is smaller than
that, and is rounded there; a tie goes to the even neighbour. Past the greatest finite number the
answer is an infinity, below half of the least one a zero, both with the sign of the rational.
-/

namespace Reckon.Binary64

/-- The greatest `e` with `2 ^ e ≤ n / d`, for positive `n` and `d`. -/
def quotientLog (n d : Nat) : Int :=
  let e : Int := (n.log2 : Int) - d.log2
  if d <<< e.toNat ≤ n <<< (-e).toNat then e else e - 1

/-- The whole number nearest to `n / d`; a tie goes to the even one. -/
def roundTiesEven (n d : Nat) : Nat :=
  let whole := n / d
  let twice := 2 * (n % d)
  if d < twice ∨ (twice = d ∧ whole % 2 = 1) then whole + 1 else whole

def gridExponent (n d : Nat) : Int := max (quotientLog n d - 52) (-1074)

/-- The word of the nearest number to `n / d`, for positive `n` and `d`. A mantissa that rounds up to
the next power of two carries into the exponent field by itself, and a field that reaches 2047 is
infinity. -/
def nearestWord (n d : Nat) : Nat :=
  let q := gridExponent n d
  let mantissa := roundTiesEven (n <<< (-q).toNat) (d <<< q.toNat)
  min infinityWord ((q + 1074).toNat * leadingBit + mantissa)

/-- The binary64 number nearest to `r`. The rational zero has no sign and gives the positive zero. -/
def nearest (r : Rat) : Float :=
  if r = 0 then zero false else signed (r < 0) (nearestWord r.num.natAbs r.den)

example : nearest (1 / 10) = 0.1 ∧ nearest (-5 / 2) = -2.5 ∧ nearest 0 = 0.0 := by decide +kernel

example : nearest ((2 : Rat) ^ 1024 - (2 : Rat) ^ 970) = infinity false ∧
    nearest ((2 : Rat) ^ 1024 - (2 : Rat) ^ 971) = ofWord (infinityWord - 1) ∧
    nearest (-1 / (2 : Rat) ^ 1075) = zero true ∧ nearest (3 / (2 : Rat) ^ 1076) = ofWord 1 := by
  decide +kernel

end Reckon.Binary64
