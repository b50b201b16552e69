import Reckon.Proofs.Arithmetic.Exactness
import Reckon.Proofs.Expr.Reduction

/-!
A computation without floats is exact. A tree denotes a rational by what its operators mean, with no
limits and no order of computation, and where no power is left to the floats the stack of values ends
with the number that the tree denotes.
-/

namespace Reckon

open Run

variable {limits : Limits} {tree : Expr} {tokens before after : List Token} {stack : List Rat}
  {v w : Rat}

/-- The number that a tree means over the rationals. -/
inductive Expr.Denotes : Expr → Rat → Prop where
  | num (value : Rat) : Denotes (.num value) value
  | node {op : Op} {left right : Expr} {a b v : Rat} :
      Denotes left a → Denotes right b → op.Yields a b v → Denotes (.node op left right) v

theorem Expr.Denotes.unique (hv : tree.Denotes v) (hw : tree.Denotes w) : v = w := by
  induction hv generalizing w with
  | num value =>
    cases hw
    rfl
  | node hleft hright hyields ihl ihr =>
    cases hw with
    | node hleft' hright' hyields' =>
      obtain rfl := ihl hleft'
      obtain rfl := ihr hright'
      exact hyields.unique hyields'

namespace Postfix

/-- No power that the stack meets is left to the floats. -/
def PowersExact (limits : Limits) (tokens : List Token) : Prop :=
  ∀ before after a b below, tokens = before ++ .op .pow :: after →
    before.foldlM (push limits) [] = .ok (b :: a :: below) → Op.ExactPower limits a b

/-- The tree of any part of a computation denotes its value. What comes before that part has been put
on the stack, which is how the powers within the part are met. -/
theorem denotes_of_value (hpowers : PowersExact limits tokens)
    (hbefore : before.foldlM (push limits) [] = .ok stack)
    (htokens : tokens = before ++ tree.postorder ++ after)
    (hvalue : tree.value limits = .ok v) : tree.Denotes v := by
  induction tree generalizing before after stack v with
  | num value =>
    cases hvalue
    exact .num value
  | node op left right ihl ihr =>
    obtain ⟨a, hleft, hvalue⟩ := bind_eq_ok hvalue
    obtain ⟨b, hright, happly⟩ := bind_eq_ok hvalue
    have hafterLeft : (before ++ left.postorder).foldlM (push limits) [] = .ok (a :: stack) := by
      rw [append_of_ok hbefore, foldlM_push_postorder, hleft]
      rfl
    have hafterRight : (before ++ left.postorder ++ right.postorder).foldlM (push limits) [] =
        .ok (b :: a :: stack) := by
      rw [append_of_ok hafterLeft, foldlM_push_postorder, hright]
      rfl
    have htokensLeft : tokens =
        before ++ left.postorder ++ (right.postorder ++ .op op :: after) := by
      simp [htokens, Expr.postorder]
    have htokensRight : tokens =
        before ++ left.postorder ++ right.postorder ++ .op op :: after := by
      simp [htokens, Expr.postorder]
    have ha : left.Denotes a := ihl hbefore htokensLeft hleft
    have hb : right.Denotes b := ihr hafterLeft htokensRight hright
    apply Expr.Denotes.node ha hb
    apply Op.yields_of_apply happly
    rintro rfl
    exact hpowers _ after a b stack htokensRight hafterRight

/-- Evaluation is exact outside the floats: a list of tokens that has a value, and no power of which
is left to the floats, is one tree in postorder, and the value is the only number that tree denotes. -/
theorem reduce_denotes (limits : Limits) (tokens : List Token) (v : Rat)
    (h : reduce limits tokens = .ok v) (hpowers : PowersExact limits tokens) :
    ∃ tree : Expr, tree.postorder = tokens ∧ ∀ w, tree.Denotes w ↔ w = v := by
  obtain ⟨tree, rfl, hvalue⟩ := tree_of_reduce h
  have hstart : ([] : List Token).foldlM (push limits) [] = .ok [] := rfl
  have hwhole : tree.postorder = [] ++ tree.postorder ++ [] := by simp
  have hdenotes : tree.Denotes v := denotes_of_value hpowers hstart hwhole hvalue
  refine ⟨tree, rfl, ?_⟩
  intro w
  constructor
  · intro hw
    exact hw.unique hdenotes
  · rintro rfl
    exact hdenotes

/-- The reciprocal of a square, and what is left of it above the halves. -/
theorem reduce_denotes_remainder :
    reduce ⟨0, 8⟩ [.num (-2 / 3), .num (-2), .op .pow, .num (1 / 2), .op .rem] = .ok (1 / 4) ∧
      PowersExact ⟨0, 8⟩ [.num (-2 / 3), .num (-2), .op .pow, .num (1 / 2), .op .rem] ∧
      ∃ tree : Expr,
        tree.postorder = [.num (-2 / 3), .num (-2), .op .pow, .num (1 / 2), .op .rem] ∧
        ∀ w, tree.Denotes w ↔ w = 1 / 4 := by
  have hreduce : reduce ⟨0, 8⟩ [.num (-2 / 3), .num (-2), .op .pow, .num (1 / 2), .op .rem] =
      .ok (1 / 4) := by decide +kernel
  have hpowers : PowersExact ⟨0, 8⟩
      [.num (-2 / 3), .num (-2), .op .pow, .num (1 / 2), .op .rem] := by
    intro before after a b below hsplit hrun
    rcases before with _ | ⟨x, _ | ⟨y, _ | ⟨z, _ | ⟨t, before⟩⟩⟩⟩
    · simp at hsplit
    · simp at hsplit
    · simp only [List.cons_append, List.nil_append, List.cons.injEq] at hsplit
      obtain ⟨rfl, rfl, -⟩ := hsplit
      cases hrun
      exact ⟨-2, by norm_num, by decide, by decide +kernel⟩
    · simp at hsplit
    · rcases before with _ | ⟨s, before⟩ <;> simp at hsplit
  exact ⟨hreduce, hpowers, reduce_denotes ⟨0, 8⟩ _ _ hreduce hpowers⟩

end Postfix
end Reckon
