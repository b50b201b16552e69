/-!
The binary64 numbers of core, opened. A word of 64 bits is a sign, eleven bits of exponent and
fifty-two of fraction; it stands for a signed whole multiple of a power of two, for an infinity, or
for no number. Every statement about a float in this library goes through this reading.
-/

namespace Reckon.Binary64

/-- What a binary64 word stands for. A finite one is `mantissa * 2 ^ exponent` with its sign, which
zero has too. -/
inductive Datum where
  | notANumber
  | infinite (negative : Bool)
  | finite (negative : Bool) (mantissa : Nat) (exponent : Int)
deriving DecidableEq

def signBit : Nat := 0x8000000000000000

/-- The value of the bit above the fraction: a step of the exponent field, and the leading one that a
mantissa has beside its stored digits. -/
def leadingBit : Nat := 0x10000000000000

def infinityWord : Nat := 0x7FF0000000000000

/-- Reads the word of a float. The exponent field 2047 marks what is not finite, the field 0 the
numbers without a leading one. -/
def decode (x : Float) : Datum :=
  let word : Nat := x.toBits.toNat
  let negative : Bool := signBit ≤ word
  let field : Nat := word / leadingBit % 2048
  let fraction : Nat := word % leadingBit
  if field = 2047 then
    if fraction = 0 then .infinite negative else .notANumber
  else if field = 0 then .finite negative fraction (-1074)
  else .finite negative (leadingBit + fraction) ((field : Int) - 1075)

def Datum.toRat? : Datum → Option Rat
  | .notANumber => none
  | .infinite _ => none
  | .finite negative mantissa exponent =>
    let magnitude : Rat := mantissa * (2 : Rat) ^ exponent
    some (if negative then -magnitude else magnitude)

/-- The rational number that a float is, exactly; an infinity and what is not a number have none. -/
def toRat? (x : Float) : Option Rat := (decode x).toRat?

/-- Whether the sign bit is set; of what is not a number the answer is no. -/
def isNegative (x : Float) : Bool :=
  match decode x with
  | .notANumber => false
  | .infinite negative => negative
  | .finite negative _ _ => negative

def ofWord (word : Nat) : Float := Float.ofBits (UInt64.ofNat word)

def signed (negative : Bool) (magnitude : Nat) : Float :=
  ofWord (if negative then signBit + magnitude else magnitude)

def infinity (negative : Bool) : Float := signed negative infinityWord

def zero (negative : Bool) : Float := signed negative 0

def notANumber : Float := ofWord 0x7FF8000000000000

example : decode (zero true) = .finite true 0 (-1074) ∧ decode (infinity true) = .infinite true ∧
    decode notANumber = .notANumber ∧ toRat? 0.75 = some (3 / 4) := by decide +kernel

end Reckon.Binary64
