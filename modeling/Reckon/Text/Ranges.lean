/-!
Character classes as lists of ranges of code points. A class is looked up by walking its ranges in
order, so a class whose ranges are ascending and apart has one range at most for a character.
-/

namespace Reckon.Text

abbrev Ranges := List (Nat × Nat)

def Ranges.contains (ranges : Ranges) (c : Char) : Bool :=
  ranges.any fun range => range.1 ≤ c.toNat && c.toNat ≤ range.2

/-- Ranges in ascending order from `least` on, none empty and no two of them touching. -/
def Ranges.ascendingFrom (least : Nat) : Ranges → Bool
  | [] => true
  | range :: rest =>
    least ≤ range.1 && range.1 ≤ range.2 && Ranges.ascendingFrom (range.2 + 2) rest

theorem Ranges.contains_iff (ranges : Ranges) (c : Char) :
    ranges.contains c = true ↔ ∃ range ∈ ranges, range.1 ≤ c.toNat ∧ c.toNat ≤ range.2 := by
  simp [Ranges.contains]

end Reckon.Text
