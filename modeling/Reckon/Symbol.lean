import Reckon.Error

/-!
Operators and shifts by their symbols, for callers who have only a text. A text that is no symbol of
the domain is refused by name, also if it is one of the other domain.
-/

namespace Reckon

def Op.named (symbol : String) : Except OperatorError Op :=
  match ofSymbol? symbol with
  | some op => .ok op
  | none => .error (.unsupportedOperator symbol)

def Calendar.Shift.named (symbol : String) : Except OperatorError Calendar.Shift :=
  match ofSymbol? symbol with
  | some shift => .ok shift
  | none => .error (.unsupportedOperator symbol)

example : Op.named "^" = .ok .pow ∧ Op.named "d" = .error (.unsupportedOperator "d") ∧
    Calendar.Shift.named "M" = .ok .months ∧ Calendar.Shift.named "m" = .ok .minutes ∧
    Calendar.Shift.named "*" = .error (.unsupportedOperator "*") := by decide +kernel

end Reckon
