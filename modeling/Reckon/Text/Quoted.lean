import Reckon.Text.Combining
import Reckon.Text.Printable

/-!
A text between double quotes, for messages that cite it. The quote and the backslash are escaped,
the commonest controls have letters of their own, and whatever cannot be seen for itself is
written by its code point. The single quote stands as it is.
-/

namespace Reckon.Text

/-- The hexadecimal digits of a code point, in lower case and without leading zeros. -/
def hexadecimal (c : Char) : List Char := Nat.toDigits 16 c.toNat

def escaped (c : Char) : List Char :=
  match c.toNat with
  | 0x00 => ['\\', '0']
  | 0x09 => ['\\', 't']
  | 0x0A => ['\\', 'n']
  | 0x0D => ['\\', 'r']
  | 0x22 => ['\\', c]
  | 0x5C => ['\\', c]
  | _ =>
    if isCombining c || !isPrintable c then
      ['\\', 'u', '\x7b'] ++ hexadecimal c ++ ['\x7d']
    else [c]

def quoted (text : String) : String :=
  "\"" ++ String.ofList (text.toList.flatMap escaped) ++ "\""

example : escaped (Char.ofNat 0x301) = "\\u\x7b301\x7d".toList ∧
    escaped (Char.ofNat 0x7F) = "\\u\x7b7f\x7d".toList ∧ escaped 'x' = ['x'] := by decide +kernel

end Reckon.Text
