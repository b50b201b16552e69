import Reckon.Expr.Tree

/-!
The grammar of expressions. A sum is a row of products, a product a row of powers, each grouped from
the left; a power is an atom raised to a power, grouped from the right; an atom is a number or a sum in
parentheses. Parentheses leave no trace in the tree. There is no sign in front of a value.
-/

namespace Reckon

/-- The four kinds of phrase, loosest first. -/
inductive Phrase where
  | sum
  | product
  | power
  | atom
deriving DecidableEq

inductive Derives : Phrase → List Token → Expr → Prop where
  | num (value : Rat) : Derives .atom [.num value] (.num value)
  | paren {tokens : List Token} {tree : Expr} :
      Derives .sum tokens tree → Derives .atom (.lparen :: tokens ++ [.rparen]) tree
  | atom {tokens : List Token} {tree : Expr} :
      Derives .atom tokens tree → Derives .power tokens tree
  | pow {left right : List Token} {a b : Expr} :
      Derives .atom left a → Derives .power right b →
        Derives .power (left ++ .op .pow :: right) (.node .pow a b)
  | power {tokens : List Token} {tree : Expr} :
      Derives .power tokens tree → Derives .product tokens tree
  | mul {left right : List Token} {a b : Expr} (op : Op) :
      op ∈ [Op.mul, Op.div, Op.rem] → Derives .product left a → Derives .power right b →
        Derives .product (left ++ .op op :: right) (.node op a b)
  | product {tokens : List Token} {tree : Expr} :
      Derives .product tokens tree → Derives .sum tokens tree
  | add {left right : List Token} {a b : Expr} (op : Op) :
      op ∈ [Op.add, Op.sub] → Derives .sum left a → Derives .product right b →
        Derives .sum (left ++ .op op :: right) (.node op a b)

end Reckon
