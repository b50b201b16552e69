import Reckon.Arithmetic.Exact
import Reckon.Expr.Token

/-!
The value of tokens in the order of their computation. A number is put on a stack of values, an
operator takes the two topmost off and puts its result there; what is left in the end is the value.
Any list of tokens may be handed in, so lists that are no computation are refused here too.
-/

namespace Reckon.Postfix

/-- The stack of values, topmost first, after one more token. -/
def pushTraced (limits : Limits) (stack : List Rat) : Token → Traced Fault (List Rat)
  | .num value => return value :: stack
  | .op op =>
    match stack with
    | b :: a :: rest => do
      let value ← (op.applyTraced limits a b).mapError .operator
      return value :: rest
    | _ => Traced.refuse .missingOperand
  | .lparen => Traced.refuse .unmatchedParen
  | .rparen => Traced.refuse .unmatchedParen

def push (limits : Limits) (stack : List Rat) (token : Token) : Except Fault (List Rat) :=
  (pushTraced limits stack token).result

def single : List Rat → Except Fault Rat
  | [] => .error .missingOperand
  | [value] => .ok value
  | _ :: _ :: _ => .error .unexpectedOperand

/-- The value that a list of tokens computes, telling of what its operators refuse. -/
def reduceTraced (limits : Limits) (tokens : List Token) : Traced Fault Rat := do
  let stack ← tokens.foldlM (pushTraced limits) []
  single stack

def reduce (limits : Limits) (tokens : List Token) : Except Fault Rat :=
  (reduceTraced limits tokens).result

end Reckon.Postfix
