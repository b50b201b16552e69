/-!
Whole numbers that must fit a machine word. A count taken from a floating-point number is a signed
64-bit word: it is clamped to the ends of that range, and a product or a negation that leaves the
range has no result. A size in bits is an unsigned 64-bit word and stops growing at the largest one.
An exponent of ten and a number of months are unsigned 32-bit words, and a greater number is none.
-/

namespace Reckon.Word

def minSigned : Int := -0x8000000000000000

def maxSigned : Int := 0x7FFFFFFFFFFFFFFF

def maxUnsigned : Nat := 0xFFFFFFFFFFFFFFFF

def maxHalf : Nat := 0xFFFFFFFF

/-- A whole number that is a signed 64-bit word. -/
def Signed (n : Int) : Prop := minSigned ≤ n ∧ n ≤ maxSigned

instance (n : Int) : Decidable (Signed n) :=
  inferInstanceAs (Decidable (minSigned ≤ n ∧ n ≤ maxSigned))

/-- The signed word nearest to `n`: `n` itself inside the range, an end of the range outside. -/
def clamp (n : Int) : Int := max minSigned (min maxSigned n)

def signed? (n : Int) : Option Int := if Signed n then some n else none

def saturate (n : Nat) : Nat := min n maxUnsigned

def half? (n : Nat) : Option Nat := if n ≤ maxHalf then some n else none

theorem clamp_of_signed {n : Int} (h : Signed n) : clamp n = n := by
  unfold Signed minSigned maxSigned at h
  unfold clamp minSigned maxSigned
  omega

end Reckon.Word
