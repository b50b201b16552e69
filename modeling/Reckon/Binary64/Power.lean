import Reckon.Binary64.Nearest

/-!
Powers of binary64 numbers. Where the answer does not depend on rounding (zeros, ones, infinities,
what is not a number, negative bases) it is laid down here, case by case; only a positive finite base
other than one with a finite exponent other than zero is left to a power function of the machine's,
whose last bit is its own affair. That function may be handed in; where none is, it is core's.
-/

namespace Reckon.Binary64

/-- Whether a float is a whole number that is odd; only such an exponent keeps a minus sign. -/
def isOdd (y : Float) : Bool :=
  match toRat? y with
  | some r => r.den = 1 ∧ r.num % 2 = 1
  | none => false

def isWhole (y : Float) : Bool :=
  match decode y with
  | .notANumber => false
  | .infinite _ => true
  | .finite _ _ _ => (toRat? y).any (·.den = 1)

/-- The power of a base that has no minus sign by an exponent that is a number other than zero. -/
def magnitudePower (x y : Float) (pow : Float → Float → Float := Float.pow) : Float :=
  match toRat? x, toRat? y with
  | none, _ => if isNegative y then zero false else infinity false
  | some a, b =>
    if a = 0 then if isNegative y then infinity false else zero false
    else if a = 1 then 1.0
    else
      match b with
      | none => if decide (a < 1) = isNegative y then infinity false else zero false
      | some _ => pow x y

def withSign (negative : Bool) (x : Float) : Float :=
  signed negative (x.toBits.toNat % signBit)

/-- The power `x ^ y`. Anything to the power zero is one, and one to any power is one, even where the
other operand is not a number. A negative finite base has a power only for whole exponents; an odd
exponent keeps the sign of the base, of zero and of infinity too. -/
def power (x y : Float) (pow : Float → Float → Float := Float.pow) : Float :=
  if toRat? y = some 0 then 1.0
  else if toRat? x = some 1 then 1.0
  else if decode x = .notANumber ∨ decode y = .notANumber then notANumber
  else if isNegative x then
    if isWhole y ∨ toRat? x = some 0 ∨ decode x = .infinite true then
      withSign (isOdd y) (magnitudePower (withSign false x) y pow)
    else notANumber
  else magnitudePower x y pow

example : power notANumber 0.0 = 1.0 ∧ power 1.0 notANumber = 1.0 ∧
    power (-1.0) (infinity false) = 1.0 ∧ power (zero true) (-3.0) = infinity true ∧
    power (zero true) (-2.0) = infinity false ∧ power (infinity true) (-3.0) = zero true ∧
    power (infinity true) 0.5 = infinity false ∧ power (-4.0) 0.5 = notANumber ∧
    power 0.5 (infinity true) = infinity false ∧ power (-1.0) 3.0 = -1.0 := by decide +kernel

end Reckon.Binary64
