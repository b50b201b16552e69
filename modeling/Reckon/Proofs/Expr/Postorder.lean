import Reckon.Expr.Tree

/-!
A list of tokens in postorder reads back as one tree at most. The reader keeps a stack of finished
trees, so that a list which is no tree in postorder still shows how far it is one.
-/

namespace Reckon.Expr

/-- The stack of finished trees, topmost first, after one more token. -/
def grow (stack : List Expr) : Token → Option (List Expr)
  | .num value => some (.num value :: stack)
  | .op op =>
    match stack with
    | right :: left :: rest => some (.node op left right :: rest)
    | _ => none
  | .lparen => none
  | .rparen => none

/-- A tree in postorder puts that tree on the stack and leaves alone what is below. -/
theorem foldlM_grow_postorder (tree : Expr) (stack : List Expr) :
    tree.postorder.foldlM grow stack = some (tree :: stack) := by
  induction tree generalizing stack with
  | num value => rfl
  | node op left right ihl ihr =>
    simp only [postorder, List.foldlM_append, ihl, ihr, Option.bind_eq_bind, Option.bind_some]
    rfl

/-- No two trees have the same postorder. -/
theorem postorder_injective : Function.Injective postorder := by
  intro first second h
  have hfirst := foldlM_grow_postorder first []
  rw [h, foldlM_grow_postorder second []] at hfirst
  simpa using hfirst.symm

end Reckon.Expr
