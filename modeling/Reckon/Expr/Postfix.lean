import Reckon.Error
import Reckon.Expr.Token

/-!
From the order in which an expression is written to the order in which it is computed: operands first,
then their operator. One pass over the tokens keeps the operators and parentheses that still wait.
An operator waits while those that follow bind tighter; a closing parenthesis ends the wait of all that
came after its opening one. The pass refuses whatever is not an expression, at the first token that
cannot be right.
-/

namespace Reckon.Postfix

/-- What waits for its turn: an operator for its right operand, a parenthesis for its closing one. -/
inductive Pending where
  | op (op : Op)
  | paren
deriving DecidableEq

/-- The pass at some point of the text: the tokens put out so far, last first; what waits, innermost
first; and whether the token just read ends a value. -/
structure State where
  emitted : List Token
  pending : List Pending
  afterValue : Bool
deriving DecidableEq

def State.start : State := ⟨[], [], false⟩

/-- Whether a waiting operator has all its operands when `incoming` is read: it binds tighter, or as
tight and the row is grouped from the left. -/
def isComplete (incoming waiting : Op) : Bool :=
  if incoming.rightAssociative then incoming.precedence < waiting.precedence
  else incoming.precedence ≤ waiting.precedence

/-- Puts out the waiting operators that `incoming` completes, up to the innermost parenthesis. -/
def release (incoming : Op) : List Pending → List Token → List Pending × List Token
  | .op waiting :: rest, emitted =>
    if isComplete incoming waiting then release incoming rest (.op waiting :: emitted)
    else (.op waiting :: rest, emitted)
  | pending, emitted => (pending, emitted)

/-- Puts out the waiting operators up to the innermost parenthesis, which is taken away; there is no
result when none waits. -/
def close? : List Pending → List Token → Option (List Pending × List Token)
  | [], _ => none
  | .paren :: rest, emitted => some (rest, emitted)
  | .op waiting :: rest, emitted => close? rest (.op waiting :: emitted)

/-- Reads one token. A value may not follow a value, and all else must. -/
def State.step (s : State) : Token → Except Fault State
  | .num value =>
    if s.afterValue then .error .unexpectedOperand
    else .ok ⟨.num value :: s.emitted, s.pending, true⟩
  | .lparen =>
    if s.afterValue then .error .unexpectedOperand
    else .ok ⟨s.emitted, .paren :: s.pending, false⟩
  | .rparen =>
    if s.afterValue then
      match close? s.pending s.emitted with
      | some (pending, emitted) => .ok ⟨emitted, pending, true⟩
      | none => .error .unmatchedParen
    else .error .missingOperand
  | .op incoming =>
    if s.afterValue then
      let released := release incoming s.pending s.emitted
      .ok ⟨released.2, .op incoming :: released.1, false⟩
    else .error .missingOperand

def drain : List Pending → List Token → Except Fault (List Token)
  | [], emitted => .ok emitted
  | .paren :: _, _ => .error .unclosedParen
  | .op waiting :: rest, emitted => drain rest (.op waiting :: emitted)

def State.finish (s : State) : Except Fault (List Token) :=
  if s.afterValue then (drain s.pending s.emitted).map List.reverse else .error .missingOperand

def ofTokens (tokens : List Token) : Except Fault (List Token) := do
  let s ← tokens.foldlM State.step State.start
  s.finish

example : ofTokens [.num 2, .op .pow, .num 3, .op .pow, .num 4] =
      .ok [.num 2, .num 3, .num 4, .op .pow, .op .pow] ∧
    ofTokens [.num 2, .op .sub, .num 3, .op .sub, .num 4] =
      .ok [.num 2, .num 3, .op .sub, .num 4, .op .sub] ∧
    ofTokens [.op .sub, .num 5] = .error .missingOperand ∧
    ofTokens [.num 2, .lparen] = .error .unexpectedOperand ∧
    ofTokens [.num 2, .rparen] = .error .unmatchedParen ∧
    ofTokens [.lparen, .num 2] = .error .unclosedParen := by decide +kernel

end Reckon.Postfix
