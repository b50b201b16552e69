import Reckon.Calendar.Shift
import Reckon.Op
import Reckon.Text.Quoted

/-!
Why a computation was refused. An operator has its own causes, the reading of an expression has
faults of form, and a caller who hands in a text sees one rejection that carries the fault.
Each cause keeps what its message needs, and the wording stands in one place per type.
-/

namespace Reckon

instance decidableEqResult {ε α : Type} [DecidableEq ε] [DecidableEq α] : DecidableEq (Except ε α)
  | .ok a, .ok b => decidable_of_iff (a = b) (by simp)
  | .error e, .error f => decidable_of_iff (e = f) (by simp)
  | .ok _, .error _ => isFalse (by simp)
  | .error _, .ok _ => isFalse (by simp)

inductive OperatorError where
  /-- No operator of the domain has this symbol. -/
  | unsupportedOperator (symbol : String)
  /-- A quotient, a remainder or a negative power asked for a division by zero. -/
  | divisionByZero
  /-- A quantity or a result is infinite or not a number. -/
  | nonFiniteResult
  /-- The operands together take more bits than the limits allow; told as a result that is not
  finite. -/
  | operandsTooLarge (op : Op) (bits : Nat)
  /-- The moved date would leave the calendar. -/
  | dateOutOfRange (shift : Calendar.Shift) (quantity : Float)
deriving DecidableEq

def OperatorError.message : OperatorError → String
  | .unsupportedOperator symbol => "opérateur non supporté: " ++ Text.quoted symbol
  | .divisionByZero => "division par zéro"
  | .nonFiniteResult => "résultat non fini"
  | .operandsTooLarge _ _ => "résultat non fini"
  | .dateOutOfRange _ _ => "date hors limites"

/-- What is wrong with an expression. -/
inductive Fault where
  /-- The text holds no token. -/
  | empty
  /-- A character that begins no token, and its index in the text. -/
  | unexpectedChar (c : Char) (position : Nat)
  /-- A run of digits and points that is no number. -/
  | badNumber (text : String)
  | unclosedParen
  | unmatchedParen
  /-- A value was due. -/
  | missingOperand
  /-- A value follows a value. -/
  | unexpectedOperand
  /-- The text has more characters than the limits allow. -/
  | tooLong (length max : Nat)
  /-- The exact value lies outside the finite floating-point numbers. -/
  | notRepresentable
  | operator (error : OperatorError)
deriving DecidableEq

def Fault.message : Fault → String
  | .empty => "entrée vide"
  | .unexpectedChar c position =>
    "caractère inattendu: '" ++ String.singleton c ++ "' (position " ++ toString position ++ ")"
  | .badNumber text => "nombre invalide: " ++ Text.quoted text
  | .unclosedParen => "parenthèses non fermées"
  | .unmatchedParen => "parenthèse fermante inattendue"
  | .missingOperand => "opérande manquant"
  | .unexpectedOperand => "opérande inattendu"
  | .tooLong length max =>
    "expression trop longue (" ++ toString length ++ " > " ++ toString max ++ ")"
  | .notRepresentable => "résultat non représentable"
  | .operator error => error.message

/-- The one error of a call that takes a text. -/
structure Rejection where
  cause : Fault
deriving DecidableEq

def Rejection.message (r : Rejection) : String := "expression malformée: " ++ r.cause.message

/-- The messages below the rejection's own, outermost first: only its cause has one. -/
def Rejection.sources (r : Rejection) : List String := [r.cause.message]

end Reckon
