import Reckon.Rational.Basic

/-!
Rationals as decimal text. A reading at a number of places is truncated toward zero, never rounded,
so asking for more places only adds digits. The exact text is the integer or the shortest decimal
where there is one of bearable length, and the fraction in lowest terms otherwise.
-/

namespace Reckon.Decimal

/-- The most places after the point that are ever written; a request for more is cut to this. -/
def maxPlaces : Nat := 10000

def scale (places : Nat) : Nat := Nat.pow 10 places

def padded (width n : Nat) : String := String.ofList ((toString n).toList.leftpad width '0')

/-- The number `n / 10 ^ places` as text: a minus sign for a negative `n`, the whole part, and behind
a point exactly as many digits as there are places. Without places there is no point. More places than
`maxPlaces` count as that many, for the scale of `n` too. -/
def scaled (n : Int) (places : Nat) : String :=
  let places := min places maxPlaces
  let sign := if n < 0 then "-" else ""
  let fraction := if places = 0 then "" else "." ++ padded places (n.natAbs % scale places)
  sign ++ toString (n.natAbs / scale places) ++ fraction

def reading (r : Rat) (places : Nat) : String :=
  let places := min places maxPlaces
  scaled ((r.num * scale places).tdiv r.den) places

/-- Divides `n` by `p` while that leaves no rest; gives `count` plus the number of divisions, and what
is left of `n`. -/
def factorOut (p n count : Nat) : Nat × Nat :=
  if h : 2 ≤ p ∧ 0 < n ∧ n % p = 0 then factorOut p (n / p) (count + 1) else (count, n)
termination_by n
decreasing_by exact Nat.div_lt_self h.2.1 h.1

/-- How many places the decimal expansion of `r` has, if it ends: it does when the denominator has no
prime factors but two and five, and then each place uses up one of both. -/
def places? (r : Rat) : Option Nat :=
  let twos := factorOut 2 r.den 0
  let fives := factorOut 5 twos.2 0
  if fives.2 = 1 then some (max twos.1 fives.1) else none

/-- The exact text of `r`: `12`, `0.25`, and `1/3` where no decimal of at most `maxPlaces` places
is exact. -/
def exact (r : Rat) : String :=
  if r.den = 1 then toString r.num
  else
    match places? r with
    | some places => if places ≤ maxPlaces then reading r places else Rational.fraction r
    | none => Rational.fraction r

example : exact (-7 / 2) = "-3.5" ∧ exact (1 / 8) = "0.125" ∧ exact (-1 / 6) = "-1/6" ∧
    reading (-2 / 3) 4 = "-0.6666" ∧ reading (1 / 20) 3 = "0.050" ∧ reading (-1 / 20) 1 = "0.0" ∧
    scaled (-5) 0 = "-5" := by decide +kernel

end Reckon.Decimal
