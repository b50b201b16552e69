import Reckon.Error
import Reckon.Expr.Token

/-!
What a computation tells about itself as it goes: the stages of an evaluation that are done, and the
refusals worth a note. An event is a value; its level, message and named fields are how it is shown.
-/

namespace Reckon

inductive Level where
  | trace
  | debug
deriving DecidableEq

inductive FieldValue where
  | text (value : String)
  | count (value : Nat)
  | quantity (value : Float)
deriving DecidableEq

inductive Event where
  /-- The text was read into tokens. -/
  | scanned (tokens : List Token)
  /-- The tokens were put in the order of their computation. -/
  | arranged (tokens : List Token)
  /-- The tokens were computed. -/
  | reduced (value : Rat)
  /-- An operator refused its operands for their size. -/
  | operandsTooLarge (op : Op) (bits : Nat)
  /-- A shift led out of the calendar. -/
  | dateOutOfRange (shift : Calendar.Shift) (quantity : Float)
  /-- The caller's text was refused. -/
  | rejected (text : String) (cause : Fault)
deriving DecidableEq

namespace Event

def level : Event → Level
  | scanned _ | arranged _ | reduced _ => .trace
  | operandsTooLarge _ _ | dateOutOfRange _ _ | rejected _ _ => .debug

def message : Event → String
  | scanned _ => "expression tokenisée"
  | arranged _ => "forme postfixée"
  | reduced _ => "expression réduite"
  | operandsTooLarge _ _ => "opérandes exacts trop grands"
  | dateOutOfRange _ _ => "décalage temporel hors limites"
  | rejected _ _ => "expression rejetée"

/-- The fields of an event with their names. A value is shown as a fraction here, not as a decimal. -/
def fields : Event → List (String × FieldValue)
  | scanned tokens => [("jetons", .text (Token.join tokens))]
  | arranged tokens => [("rpn", .text (Token.join tokens))]
  | reduced value => [("resultat", .text (Rational.fraction value))]
  | operandsTooLarge op bits => [("op", .text op.text), ("bits", .count bits)]
  | dateOutOfRange shift quantity =>
    [("op", .text shift.symbol), ("quantite", .quantity quantity)]
  | rejected text cause => [("expression", .text text), ("motif", .text cause.message)]

end Event

/-- The events that go with an operator's refusal. -/
def OperatorError.events : OperatorError → List Event
  | .operandsTooLarge op bits => [.operandsTooLarge op bits]
  | .dateOutOfRange shift quantity => [.dateOutOfRange shift quantity]
  | _ => []

/-- The events that go with a fault: those of the operator that caused it. -/
def Fault.events : Fault → List Event
  | .operator error => error.events
  | _ => []

end Reckon
