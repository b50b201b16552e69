import Reckon.Expr.Reduction
import Reckon.Proofs.Expr.Grammar
import Reckon.Proofs.Expr.Postorder
import Reckon.Proofs.Run
import Reckon.Proofs.Traced

/-!
The stack of values computes trees. At any point of a list of tokens what was read is a row of trees
in postorder, one for each value on the stack; a list that is one tree gives what the recursion over
that tree gives, and any other list stops at the first token that cannot be right.
-/

namespace Reckon.Postfix

open Run Reckon.Expr

variable {limits : Limits} {tokens read : List Token} {stack : List Rat} {tree : Expr}
  {forest trees : List Expr} {fault : Fault}

/-- All trees of a row have values. -/
def Settled (limits : Limits) (forest : List Expr) : Prop :=
  ∀ tree ∈ forest, ∃ value, tree.value limits = .ok value

/-- What first goes wrong with a list of tokens, from the left. Before it stands a row of trees that
all have values. -/
inductive Stops (limits : Limits) : List Token → Fault → Prop where
  /-- A parenthesis has no place here. -/
  | paren (forest : List Expr) (token : Token) (rest : List Token) :
      Settled limits forest → token.isParen = true →
        Stops limits (forest.flatMap postorder ++ token :: rest) .unmatchedParen
  /-- An operator comes before its two operands. -/
  | starved (forest : List Expr) (op : Op) (rest : List Token) :
      Settled limits forest → forest.length < 2 →
        Stops limits (forest.flatMap postorder ++ .op op :: rest) .missingOperand
  /-- An operator refuses the values of the two trees before it. -/
  | refused {x y : Rat} {error : OperatorError} (forest : List Expr) (a b : Expr) (op : Op)
      (rest : List Token) :
      Settled limits forest → a.value limits = .ok x → b.value limits = .ok y →
        op.apply limits x y = .error error →
        Stops limits ((forest ++ [a, b]).flatMap postorder ++ .op op :: rest) (.operator error)
  /-- The list ends without a value. -/
  | nothing : Stops limits [] .missingOperand
  /-- The list ends with more than one value. -/
  | leftover (forest : List Expr) :
      Settled limits forest → 2 ≤ forest.length →
        Stops limits (forest.flatMap postorder) .unexpectedOperand

theorem push_op (limits : Limits) (op : Op) (x y : Rat) (stack : List Rat) :
    push limits (y :: x :: stack) (.op op) =
      ((op.apply limits x y).mapError Fault.operator).map (· :: stack) := by
  unfold push pushTraced
  rw [Traced.result_bind, Traced.result_mapError]
  change ((op.apply limits x y).mapError Fault.operator >>= _) = _
  cases op.apply limits x y <;> rfl

theorem push_op_of_error {op : Op} {x y : Rat} {error : OperatorError}
    (h : op.apply limits x y = .error error) (stack : List Rat) :
    push limits (y :: x :: stack) (.op op) = .error (.operator error) := by
  rw [push_op, h]
  rfl

/-- An operator that has a result puts it in the place of the two values on top. -/
theorem push_op_eq_ok {op : Op} {x y : Rat} {stack next : List Rat}
    (h : push limits (y :: x :: stack) (.op op) = .ok next) :
    ∃ v, op.apply limits x y = .ok v ∧ next = v :: stack := by
  rw [push_op] at h
  cases happly : op.apply limits x y with
  | error error =>
    rw [happly] at h
    cases h
  | ok v =>
    rw [happly] at h
    cases h
    exact ⟨v, rfl, rfl⟩

theorem push_op_eq_error {op : Op} {x y : Rat} {stack : List Rat}
    (h : push limits (y :: x :: stack) (.op op) = .error fault) :
    ∃ error, op.apply limits x y = .error error ∧ fault = .operator error := by
  rw [push_op] at h
  cases happly : op.apply limits x y with
  | error error =>
    rw [happly] at h
    cases h
    exact ⟨error, rfl, rfl⟩
  | ok v =>
    rw [happly] at h
    cases h

/-- The run over the tokens and the look at what is left, apart from what is told. -/
theorem reduce_eq (limits : Limits) (tokens : List Token) :
    reduce limits tokens = tokens.foldlM (push limits) [] >>= single := by
  unfold reduce reduceTraced
  rw [Traced.result_bind, Traced.result_foldlM]
  rfl

/-- A tree that has a value puts it on the stack, and one that has none stops the run by the refusal
that the recursion meets first. -/
theorem foldlM_push_postorder (tree : Expr) (stack : List Rat) :
    tree.postorder.foldlM (push limits) stack =
      ((tree.value limits).mapError Fault.operator).map (· :: stack) := by
  induction tree generalizing stack with
  | num value => rfl
  | node op left right ihl ihr =>
    simp only [postorder, List.append_assoc, value]
    cases hleft : left.value limits with
    | error e =>
      -- the left operand stands first, so that its refusal is the one to show
      have hrun : left.postorder.foldlM (push limits) stack = .error (.operator e) := by
        rw [ihl, hleft]
        rfl
      exact append_of_error hrun
    | ok x =>
      have hrun : left.postorder.foldlM (push limits) stack = .ok (x :: stack) := by
        rw [ihl, hleft]
        rfl
      rw [append_of_ok hrun]
      cases hright : right.value limits with
      | error e =>
        have hrun' : right.postorder.foldlM (push limits) (x :: stack) =
            .error (.operator e) := by
          rw [ihr, hright]
          rfl
        exact append_of_error hrun'
      | ok y =>
        have hrun' : right.postorder.foldlM (push limits) (x :: stack) =
            .ok (y :: x :: stack) := by
          rw [ihr, hright]
          rfl
        rw [append_of_ok hrun']
        change (push limits (y :: x :: stack) (.op op) >>= _) =
          ((op.apply limits x y).mapError Fault.operator).map (· :: stack)
        rw [push_op]
        cases op.apply limits x y <;> rfl

/-- On a tree in postorder the stack machine and the recursion agree. -/
theorem reduce_postorder (tree : Expr) :
    reduce limits tree.postorder = (tree.value limits).mapError .operator := by
  rw [reduce_eq, foldlM_push_postorder]
  cases tree.value limits <;> rfl

/-- A row of trees with values puts one value on the stack for each. -/
theorem foldlM_push_forest (h : Settled limits forest) (stack : List Rat) :
    ∃ values, values.length = forest.length ∧
      (forest.flatMap postorder).foldlM (push limits) stack = .ok (values ++ stack) := by
  induction forest generalizing stack with
  | nil => exact ⟨[], rfl, rfl⟩
  | cons tree rest ih =>
    obtain ⟨v, hv⟩ := h tree (by simp)
    have hrest : Settled limits rest := by
      intro other hother
      exact h other (by simp [hother])
    obtain ⟨values, hlength, hrun⟩ := ih hrest (v :: stack)
    have htree : tree.postorder.foldlM (push limits) stack = .ok (v :: stack) := by
      rw [foldlM_push_postorder, hv]
      rfl
    refine ⟨values ++ [v], by simp [hlength], ?_⟩
    rw [List.flatMap_cons, append_of_ok htree, hrun]
    simp

/-- A list that stops somewhere is refused with what stops it. -/
theorem reduce_of_stops (h : Stops limits tokens fault) : reduce limits tokens = .error fault := by
  rw [reduce_eq]
  -- each case runs over the row of trees and looks at what stands behind it
  cases h with
  | paren forest token rest hforest htoken =>
    obtain ⟨values, -, hrun⟩ := foldlM_push_forest hforest []
    have hpush : push limits (values ++ []) token = .error .unmatchedParen := by
      cases token <;> first | rfl | cases htoken
    rw [append_of_ok hrun, cons_of_error hpush]
    rfl
  | starved forest op rest hforest hlength =>
    obtain ⟨values, hvalues, hrun⟩ := foldlM_push_forest hforest []
    have hpush : push limits (values ++ []) (.op op) = .error .missingOperand := by
      rcases values with _ | ⟨y, _ | ⟨x, below⟩⟩
      · rfl
      · rfl
      · simp only [List.length_cons] at hvalues
        omega
    rw [append_of_ok hrun, cons_of_error hpush]
    rfl
  | refused forest a b op rest hforest ha hb happly =>
    rename_i x y error
    obtain ⟨values, -, hrun⟩ := foldlM_push_forest hforest []
    have hab : ([a, b].flatMap postorder).foldlM (push limits) (values ++ []) =
        .ok (y :: x :: (values ++ [])) := by
      simp only [List.flatMap_cons, List.flatMap_nil, List.append_nil]
      rw [append_of_ok (t := x :: values)]
      · rw [foldlM_push_postorder, hb]
        rfl
      · rw [foldlM_push_postorder, ha]
        rfl
    have hpush : push limits (y :: x :: (values ++ [])) (.op op) = .error (.operator error) :=
      push_op_of_error happly _
    rw [List.flatMap_append, List.append_assoc, append_of_ok hrun, append_of_ok hab,
      cons_of_error hpush]
    rfl
  | nothing => rfl
  | leftover forest hforest hlength =>
    obtain ⟨values, hvalues, hrun⟩ := foldlM_push_forest hforest []
    rw [hrun]
    rcases values with _ | ⟨y, _ | ⟨x, below⟩⟩
    · simp only [List.length_nil] at hvalues
      omega
    · simp only [List.length_cons, List.length_nil] at hvalues
      omega
    · rfl

/-- What the stack says of the tokens read so far: they are a row of trees in postorder, whose values
stand on the stack, the last tree's topmost. -/
def Stacked (limits : Limits) (read : List Token) (stack : List Rat) : Prop :=
  ∃ trees : List Expr, read = trees.reverse.flatMap postorder ∧
    trees.map (value limits) = stack.map .ok

theorem settled_of_values (h : trees.map (value limits) = stack.map .ok) :
    Settled limits trees.reverse := by
  intro tree htree
  have hmem : tree.value limits ∈ stack.map .ok := by
    rw [← h]
    exact List.mem_map_of_mem (List.mem_reverse.mp htree)
  obtain ⟨v, -, hv⟩ := List.mem_map.mp hmem
  exact ⟨v, hv.symm⟩

/-- The two topmost values are those of the last two trees. -/
theorem last_trees {x y : Rat} (h : trees.map (value limits) = (y :: x :: stack).map .ok) :
    ∃ a b others, trees = b :: a :: others ∧ a.value limits = .ok x ∧ b.value limits = .ok y ∧
      others.map (value limits) = stack.map .ok := by
  obtain ⟨b, trees', rfl, hb, h⟩ := List.map_eq_cons_iff.mp h
  obtain ⟨a, others, rfl, ha, hothers⟩ := List.map_eq_cons_iff.mp h
  exact ⟨a, b, others, rfl, ha, hb, hothers⟩

theorem stacked_push (read : List Token) (stack : List Rat) (token : Token) (next : List Rat)
    (h : Stacked limits read stack) (hpush : push limits stack token = .ok next) :
    Stacked limits (read ++ [token]) next := by
  obtain ⟨trees, rfl, hvalues⟩ := h
  cases token with
  | num v =>
    cases hpush
    exact ⟨.num v :: trees, by simp [postorder], congrArg (Except.ok v :: ·) hvalues⟩
  | op op =>
    rcases stack with _ | ⟨y, _ | ⟨x, below⟩⟩
    · cases hpush
    · cases hpush
    · obtain ⟨a, b, others, rfl, ha, hb, hothers⟩ := last_trees hvalues
      obtain ⟨v, happly, rfl⟩ := push_op_eq_ok hpush
      have hnode : (Expr.node op a b).value limits = .ok v := by
        rw [value_node op ha hb, happly]
      refine ⟨.node op a b :: others, by simp [postorder], ?_⟩
      rw [List.map_cons, List.map_cons, hnode, hothers]
  | lparen => cases hpush
  | rparen => cases hpush

private theorem stops_of_push (h : Stacked limits read stack) (token : Token) (rest : List Token)
    (hpush : push limits stack token = .error fault) :
    Stops limits (read ++ token :: rest) fault := by
  obtain ⟨trees, rfl, hvalues⟩ := h
  have hsettled := settled_of_values hvalues
  have hlength : trees.length = stack.length := by
    simpa using congrArg List.length hvalues
  cases token with
  | num v => cases hpush
  | op op =>
    rcases stack with _ | ⟨y, _ | ⟨x, below⟩⟩
    · cases hpush
      exact .starved _ op rest hsettled (by simp [hlength])
    · cases hpush
      exact .starved _ op rest hsettled (by simp [hlength])
    · obtain ⟨a, b, others, rfl, ha, hb, hothers⟩ := last_trees hvalues
      obtain ⟨error, happly, rfl⟩ := push_op_eq_error hpush
      simpa using Stops.refused others.reverse a b op rest (settled_of_values hothers) ha hb happly
  | lparen =>
    cases hpush
    exact .paren _ .lparen rest hsettled rfl
  | rparen =>
    cases hpush
    exact .paren _ .rparen rest hsettled rfl

private theorem stops_of_single (h : Stacked limits tokens stack)
    (hsingle : single stack = .error fault) :
    Stops limits tokens fault := by
  obtain ⟨trees, rfl, hvalues⟩ := h
  rcases stack with _ | ⟨y, _ | ⟨x, below⟩⟩
  · cases hsingle
    rw [List.map_eq_nil_iff.mp hvalues]
    exact .nothing
  · cases hsingle
  · cases hsingle
    have hsettled := settled_of_values hvalues
    obtain ⟨a, b, others, rfl, -⟩ := last_trees hvalues
    exact .leftover _ hsettled (by simp)

private theorem tree_of_single {v : Rat} (h : Stacked limits tokens stack)
    (hsingle : single stack = .ok v) :
    ∃ tree : Expr, tree.postorder = tokens ∧ tree.value limits = .ok v := by
  obtain ⟨trees, rfl, hvalues⟩ := h
  rcases stack with _ | ⟨y, _ | ⟨x, below⟩⟩
  · cases hsingle
  · cases hsingle
    obtain ⟨tree, others, rfl, htree, hothers⟩ := List.map_eq_cons_iff.mp hvalues
    rw [List.map_eq_nil_iff.mp hothers]
    exact ⟨tree, by simp, htree⟩
  · cases hsingle

theorem stacked_run (h : tokens.foldlM (push limits) [] = .ok stack) :
    Stacked limits tokens stack :=
  invariant stacked_push [] tokens ⟨[], rfl, rfl⟩ h

theorem tree_of_reduce {v : Rat} (h : reduce limits tokens = .ok v) :
    ∃ tree : Expr, tree.postorder = tokens ∧ tree.value limits = .ok v := by
  rw [reduce_eq] at h
  cases hrun : tokens.foldlM (push limits) [] with
  | error fault =>
    rw [hrun] at h
    cases h
  | ok stack =>
    rw [hrun] at h
    exact tree_of_single (stacked_run hrun) h

theorem stops_of_reduce (h : reduce limits tokens = .error fault) : Stops limits tokens fault := by
  rw [reduce_eq] at h
  cases hrun : tokens.foldlM (push limits) [] with
  | error fault' =>
    rw [hrun] at h
    cases h
    obtain ⟨read, token, rest, stack, rfl, hread, hpush⟩ := error_split hrun
    exact stops_of_push (stacked_run hread) token rest hpush
  | ok stack =>
    rw [hrun] at h
    exact stops_of_single (stacked_run hrun) h

/-- The stack machine refines the recursion over trees on every list of tokens. It gives a value
exactly for the one tree that the list is in postorder, fails on such a list as the recursion does,
and on any other list by the first thing that is wrong with it, of which there is one. -/
theorem reduce_refines_value (limits : Limits) (tokens : List Token) :
    (∀ tree other : Expr, tree.postorder = tokens → other.postorder = tokens → tree = other) ∧
    (∀ v, reduce limits tokens = .ok v ↔
      ∃ tree : Expr, tree.postorder = tokens ∧ tree.value limits = .ok v) ∧
    (∀ (tree : Expr) (error : OperatorError), tree.postorder = tokens →
      tree.value limits = .error error → reduce limits tokens = .error (.operator error)) ∧
    ((¬∃ tree : Expr, tree.postorder = tokens) →
      ∃ fault, reduce limits tokens = .error fault ∧
        ∀ other, Stops limits tokens other ↔ other = fault) := by
  refine ⟨?_, ?_, ?_, ?_⟩
  · intro tree other htree hother
    exact postorder_injective (htree.trans hother.symm)
  · intro v
    refine ⟨tree_of_reduce, ?_⟩
    rintro ⟨tree, rfl, hv⟩
    rw [reduce_postorder, hv]
    rfl
  · rintro tree error rfl herror
    rw [reduce_postorder, herror]
    rfl
  · intro hnone
    cases hreduce : reduce limits tokens with
    | ok v =>
      obtain ⟨tree, htree, -⟩ := tree_of_reduce hreduce
      exact absurd ⟨tree, htree⟩ hnone
    | error fault =>
      refine ⟨fault, rfl, ?_⟩
      intro other
      constructor
      · intro hother
        exact Except.error.inj ((reduce_of_stops hother).symm.trans hreduce)
      · rintro rfl
        exact stops_of_reduce hreduce

end Reckon.Postfix
