import Reckon.Arithmetic.Exact
import Reckon.Expr.Token

/-!
Expressions as trees, the shape that parentheses and precedence only describe. A tree says what is
computed from what; its tokens in postorder, and its value by recursion, are what the one-pass
algorithms have to agree with.
-/

namespace Reckon

inductive Expr where
  | num (value : Rat)
  | node (op : Op) (left right : Expr)
deriving DecidableEq

namespace Expr

/-- The tokens of a tree in the order of computation: left, right, operator. -/
def postorder : Expr → List Token
  | num value => [.num value]
  | node op left right => left.postorder ++ right.postorder ++ [.op op]

/-- The value of a tree, left before right; the first operator that is refused decides. -/
def value (limits : Limits) : Expr → Except OperatorError Rat
  | num value => .ok value
  | node op left right => do
    let a ← left.value limits
    let b ← right.value limits
    op.apply limits a b

theorem value_node {limits : Limits} {left right : Expr} {a b : Rat} (op : Op)
    (hleft : left.value limits = .ok a) (hright : right.value limits = .ok b) :
    (node op left right).value limits = op.apply limits a b := by
  rw [value, hleft, hright]
  rfl

end Expr
end Reckon
