/-!
Bounds on a computation. They are handed to each call; nothing is kept between calls.
-/

namespace Reckon

/-- How long a text may be, in characters, and how many bits an exact power may take. The other exact
operations accept operands of up to twice as many bits together. -/
structure Limits where
  maxLength : Nat
  maxBits : Nat
deriving DecidableEq

def Limits.standard : Limits := ⟨4096, 65536⟩

end Reckon
