import Reckon.Proofs.Arithmetic.Refusal
import Reckon.Proofs.Composition

/-!
What the pass over the tokens accepts, the stack of values carries through. The two look at a list of
tokens in different ways, the one at what may follow what and the other at how many values there are,
and they agree because both come down to trees. So of an accepted expression only the arithmetic can
still fail, and of its text besides only the length and the rounding.
-/

namespace Reckon

open Run

variable {limits : Limits} {tree : Expr} {read rest : List Token} {stack : List Rat} {op : Op}
  {error : OperatorError} {fault : Fault} {text : String}

theorem Expr.arithmetic_of_value (h : tree.value limits = .error error) : error.Arithmetic := by
  induction tree with
  | num value => cases h
  | node op left right ihl ihr =>
    rcases bind_eq_error h with hleft | ⟨a, -, h⟩
    · exact ihl hleft
    · rcases bind_eq_error h with hright | ⟨b, -, happly⟩
      · exact ihr hright
      · exact Op.arithmetic_of_apply happly

theorem Expr.arithmetic_of_mapError
    (h : (tree.value limits).mapError Fault.operator = .error fault) :
    ∃ error, fault = .operator error ∧ error.Arithmetic := by
  obtain ⟨error, hvalue, rfl⟩ := of_mapError_eq_error h
  exact ⟨error, rfl, arithmetic_of_value hvalue⟩

namespace Postfix

/-- An operator of a tree in postorder finds its two operands on the stack. -/
theorem two_le_length_at_op (hsplit : tree.postorder = read ++ .op op :: rest)
    (hrun : read.foldlM (push limits) [] = .ok stack) : 2 ≤ stack.length := by
  obtain ⟨trees, hread, hvalues⟩ := stacked_run hrun
  have hlength : trees.length = stack.length := by
    simpa using congrArg List.length hvalues
  by_contra hshort
  -- the run would stop here for want of an operand, which a tree in postorder never does
  have hstops : Stops limits tree.postorder .missingOperand := by
    rw [hsplit, hread]
    apply Stops.starved _ op rest (settled_of_values hvalues)
    rw [List.length_reverse]
    omega
  have hreduce := reduce_of_stops hstops
  rw [reduce_postorder] at hreduce
  obtain ⟨error, -, hfault⟩ := of_mapError_eq_error hreduce
  cases hfault

theorem length_at_end (hrun : tree.postorder.foldlM (push limits) [] = .ok stack) :
    stack.length = 1 := by
  rw [foldlM_push_postorder] at hrun
  cases hvalue : tree.value limits with
  | ok v =>
    rw [hvalue] at hrun
    cases hrun
    rfl
  | error e =>
    rw [hvalue] at hrun
    cases hrun

theorem arithmetic_of_reduce (h : reduce limits tree.postorder = .error fault) :
    ∃ error, fault = .operator error ∧ error.Arithmetic := by
  rw [reduce_postorder] at h
  exact Expr.arithmetic_of_mapError h

end Postfix

private theorem exactValue_error (htext : WellFormed text)
    (h : exactValue limits text = .error fault) :
    (fault = .tooLong text.length limits.maxLength ∧ limits.maxLength < text.length) ∨
      ∃ error, fault = .operator error ∧ error.Arithmetic := by
  obtain ⟨tokens, tree, hscan, -, hderives⟩ := htext.tree
  by_cases hlength : text.length ≤ limits.maxLength
  · rw [exactValue_of_tree hscan hderives hlength] at h
    exact .inr (Expr.arithmetic_of_mapError h)
  · have hlong := Nat.not_le.mp hlength
    have hcheck : checkLength limits text = .error (.tooLong text.length limits.maxLength) := by
      simp [checkLength, hlong]
    unfold exactValue at h
    rw [evaluate_result, hcheck] at h
    cases h
    exact .inl ⟨rfl, hlong⟩

private theorem compute_error {rejection : Rejection} (htext : WellFormed text)
    (h : (compute limits text).result = .error rejection) :
    (rejection.cause = .tooLong text.length limits.maxLength ∧ limits.maxLength < text.length) ∨
      (∃ error, rejection.cause = .operator error ∧ error.Arithmetic) ∨
      rejection.cause = .notRepresentable := by
  rw [compute_result] at h
  obtain ⟨fault, hfault, rfl⟩ := of_mapError_eq_error h
  rcases bind_eq_error hfault with hvalue | ⟨v, -, hfloat⟩
  · rcases exactValue_error htext hvalue with hlong | herror
    · exact .inl hlong
    · exact .inr (.inl herror)
  · exact .inr (.inr (toFloat_error hfloat))

/-- Once the pass accepts, only arithmetic can fail: every operator is reached with two values on the
stack, one value is left in the end, and a well-formed text is refused for nothing but its length, its
arithmetic or a value beyond the floats. -/
theorem accepted_fails_in_arithmetic_only (limits : Limits) :
    (∀ tokens arranged, Postfix.ofTokens tokens = .ok arranged →
      (∀ read op rest stack, arranged = read ++ .op op :: rest →
        read.foldlM (Postfix.push limits) [] = .ok stack → 2 ≤ stack.length) ∧
      (∀ stack, arranged.foldlM (Postfix.push limits) [] = .ok stack → stack.length = 1) ∧
      ((∃ v, Postfix.reduce limits arranged = .ok v) ∨
        ∃ error, Postfix.reduce limits arranged = .error (.operator error) ∧
          error.Arithmetic)) ∧
    (∀ text rejection, WellFormed text → (compute limits text).result = .error rejection →
      (rejection.cause = .tooLong text.length limits.maxLength ∧
        limits.maxLength < text.length) ∨
      (∃ error, rejection.cause = .operator error ∧ error.Arithmetic) ∨
      rejection.cause = .notRepresentable) := by
  refine ⟨?_, ?_⟩
  · intro tokens arranged haccepted
    obtain ⟨tree, -, rfl⟩ := Postfix.derives_of_ofTokens haccepted
    refine ⟨?_, ?_, ?_⟩
    · intro read op rest stack hsplit hrun
      exact Postfix.two_le_length_at_op hsplit hrun
    · intro stack hrun
      exact Postfix.length_at_end hrun
    · cases hreduce : Postfix.reduce limits tree.postorder with
      | ok v => exact .inl ⟨v, rfl⟩
      | error fault =>
        obtain ⟨error, rfl, herror⟩ := Postfix.arithmetic_of_reduce hreduce
        exact .inr ⟨error, rfl, herror⟩
  · intro text rejection htext hresult
    exact compute_error htext hresult

/-- A division by zero deep in an expression, and the powers that fill the stack before it. -/
theorem accepted_fails_in_arithmetic_only_quotient :
    Postfix.ofTokens [.num 2, .op .pow, .num 3, .op .div, .lparen, .num 1, .op .sub, .num 1, .rparen] =
        .ok [.num 2, .num 3, .op .pow, .num 1, .num 1, .op .sub, .op .div] ∧
      [.num 2, .num 3, .op .pow, .num 1, .num 1].foldlM (Postfix.push .standard) [] =
        .ok [1, 1, 8] ∧
      2 ≤ [(1 : Rat), 1, 8].length ∧
      WellFormed "2^3/(1-1)" ∧
      (compute .standard "2^3/(1-1)").result = .error ⟨.operator .divisionByZero⟩ ∧
      OperatorError.divisionByZero.Arithmetic := by
  have haccepted : Postfix.ofTokens
      [.num 2, .op .pow, .num 3, .op .div, .lparen, .num 1, .op .sub, .num 1, .rparen] =
        .ok [.num 2, .num 3, .op .pow, .num 1, .num 1, .op .sub, .op .div] := by decide +kernel
  have hrun : [.num 2, .num 3, .op .pow, .num 1, .num 1].foldlM (Postfix.push .standard) [] =
      .ok [1, 1, 8] := by decide +kernel
  have htext : WellFormed "2^3/(1-1)" := ⟨_, _, by decide +kernel, haccepted⟩
  have hresult : (compute .standard "2^3/(1-1)").result =
      .error ⟨.operator .divisionByZero⟩ := by decide +kernel
  have h := accepted_fails_in_arithmetic_only .standard
  refine ⟨haccepted, hrun, ?_, htext, hresult, ?_⟩
  · exact (h.1 _ _ haccepted).1 _ .sub [.op .div] _ rfl hrun
  · rcases h.2 _ _ htext hresult with ⟨hlong, -⟩ | ⟨error, herror, harith⟩ | hfloat
    · cases hlong
    · cases herror
      exact harith
    · cases hfloat

end Reckon
