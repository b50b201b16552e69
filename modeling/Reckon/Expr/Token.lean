import Reckon.Decimal
import Reckon.Op

/-!
The pieces of an expression: exact numbers, operators and parentheses.
-/

namespace Reckon

inductive Token where
  | num (value : Rat)
  | op (op : Op)
  | lparen
  | rparen
deriving DecidableEq

namespace Token

def ofChar? (c : Char) : Option Token :=
  if c = '(' then some lparen
  else if c = ')' then some rparen
  else (Op.ofChar? c).map op

/-- The text of a token; a number is written exactly. -/
def text : Token → String
  | num value => Decimal.exact value
  | op operator => operator.text
  | lparen => "("
  | rparen => ")"

def join (tokens : List Token) : String := " ".intercalate (tokens.map text)

end Token
end Reckon
