import Reckon.Binary64.Power
import Reckon.Proofs.Binary64.Sign

/-!
The words of binary64 numbers. A word is a sign bit, eleven bits of exponent and fifty-two of fraction,
and a float has any word but those that would tell apart what is not a number. So a float other than
that one is a sign and a magnitude, and either can be changed and leaves the other as it was.
-/

namespace Reckon.Binary64

open Float.Model Float.Model.UnpackedFloat

variable {w word : Nat} {x : Float}

end Reckon.Binary64
