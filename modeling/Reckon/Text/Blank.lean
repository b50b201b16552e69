import Reckon.Text.Ranges

/-!
The blank characters: the property `White_Space` of Unicode, twenty-five characters in ten ranges.
-/

namespace Reckon.Text

def blankRanges : Ranges :=
  [(0x9, 0xD), (0x20, 0x20), (0x85, 0x85), (0xA0, 0xA0), (0x1680, 0x1680), (0x2000, 0x200A),
  (0x2028, 0x2029), (0x202F, 0x202F), (0x205F, 0x205F), (0x3000, 0x3000)]

def isBlank (c : Char) : Bool := blankRanges.contains c

example : blankRanges.ascendingFrom 0 = true := by decide +kernel

end Reckon.Text
