import Reckon.Proofs.Arithmetic.Refusal
import Reckon.Proofs.Evaluation

/-!
Wider limits keep exact results. Nothing of a computation but its guards reads the limits, and the
guards read besides them only the operands. So a computation in which no operands were too large, and
no power was left to the floats, goes through the same values under wider limits, one after another.
-/

namespace Reckon

open Run

variable {limits wider : Limits} {op : Op} {a b : Rat} {token : Token}
  {tokens before part after : List Token} {stack : List Rat} {text : String}

/-- Limits that allow no more than other limits do. -/
structure Limits.Within (limits wider : Limits) : Prop where
  maxLength_le : limits.maxLength ≤ wider.maxLength
  maxBits_le : limits.maxBits ≤ wider.maxBits

/-- A fault that wider limits may do away with: the text is too long, or a result is not finite. -/
def Fault.OfLimits : Fault → Prop
  | tooLong _ _ => True
  | operator error => error.NotFinite
  | empty | unexpectedChar _ _ | badNumber _ | unclosedParen | unmatchedParen | missingOperand
  | unexpectedOperand | notRepresentable => False

namespace Op

theorem checkSize_of_within (h : limits.Within wider)
    (hcheck : (checkSize limits op a b).result = .ok ()) :
    (checkSize wider op a b).result = .ok () := by
  have hbits := h.maxBits_le
  rw [result_checkSize] at hcheck ⊢
  split at hcheck
  case isTrue => cases hcheck
  case isFalse hfits =>
    rw [if_neg]
    unfold Word.saturate at hfits ⊢
    omega

theorem exactExponent?_of_within {n : Int} (h : limits.Within wider)
    (hexact : exactExponent? limits a b = some n) : exactExponent? wider a b = some n := by
  obtain ⟨hwhole, hsigned, hbits⟩ := exactExponent?_eq_some_iff.mp hexact
  exact exactExponent?_eq_some_iff.mpr ⟨hwhole, hsigned, Nat.le_trans hbits h.maxBits_le⟩

private theorem apply_of_checks (hop : op ≠ .pow)
    (hcheck : (checkSize limits op a b).result = .ok ())
    (hwider : (checkSize wider op a b).result = .ok ()) :
    op.apply wider a b = op.apply limits a b := by
  rw [apply_eq, apply_eq]
  cases op with
  | add | sub | mul | div | rem => simp only [hcheck, hwider]
  | pow => exact absurd rfl hop

private theorem raise_of_within {n : Int} (h : limits.Within wider)
    (hexact : exactExponent? limits a b = some n) : raise wider a b = raise limits a b := by
  rw [raise_eq, raise_eq, hexact, exactExponent?_of_within h hexact]

/-- An operator gives the same under wider limits, be it a value or a refusal, unless the refusal is of
a result that is not finite. -/
theorem apply_of_within (h : limits.Within wider)
    (hpow : op = .pow → ∃ n, exactExponent? limits a b = some n)
    (hlasting : ∀ error, op.apply limits a b = .error error → ¬error.NotFinite) :
    op.apply wider a b = op.apply limits a b := by
  by_cases hop : op = .pow
  · obtain ⟨n, hexact⟩ := hpow hop
    subst hop
    exact raise_of_within h hexact
  · cases hcheck : (checkSize limits op a b).result with
    | error error =>
      have happly := apply_of_checkSize_error hop hcheck
      exact absurd (notFinite_of_checkSize hcheck) (hlasting error happly)
    | ok _ => exact apply_of_checks hop hcheck (checkSize_of_within h hcheck)

end Op

namespace Postfix

/-- Every power that the stack meets is taken exactly, by a whole exponent. -/
def PowersTaken (limits : Limits) (tokens : List Token) : Prop :=
  ∀ before after a b below, tokens = before ++ .op .pow :: after →
    before.foldlM (push limits) [] = .ok (b :: a :: below) →
      ∃ n, Op.exactExponent? limits a b = some n

private theorem push_of_within (h : limits.Within wider)
    (hpow : ∀ a b below, token = .op .pow → stack = b :: a :: below →
      ∃ n, Op.exactExponent? limits a b = some n)
    (hlasting : ∀ fault, push limits stack token = .error fault → ¬fault.OfLimits) :
    push wider stack token = push limits stack token := by
  cases token with
  | num value => rfl
  | lparen => rfl
  | rparen => rfl
  | op op =>
    rcases stack with _ | ⟨b, _ | ⟨a, below⟩⟩
    · rfl
    · rfl
    · have happly : op.apply wider a b = op.apply limits a b := by
        apply Op.apply_of_within h
        · rintro rfl
          exact hpow a b below rfl rfl
        · intro error herror
          exact hlasting (.operator error) (push_op_of_error herror below)
      rw [push_op, push_op, happly]

/-- Over any part of a computation the stack is the same, step by step. The induction is on what is to
be read of that part; what was read before is how the powers in it are met. -/
theorem foldlM_push_of_within (h : limits.Within wider) (hpowers : PowersTaken limits tokens)
    (htokens : tokens = before ++ (part ++ after))
    (hbefore : before.foldlM (push limits) [] = .ok stack)
    (hlasting : ∀ fault, part.foldlM (push limits) stack = .error fault → ¬fault.OfLimits) :
    part.foldlM (push wider) stack = part.foldlM (push limits) stack := by
  induction part generalizing before stack with
  | nil => rfl
  | cons token part ih =>
    have hpush : push wider stack token = push limits stack token := by
      apply push_of_within h
      · rintro a b below rfl rfl
        exact hpowers before (part ++ after) a b below htokens hbefore
      · intro fault hfault
        exact hlasting fault (cons_of_error hfault)
    cases hnext : push limits stack token with
    | error fault => rw [cons_of_error hnext, cons_of_error (hpush.trans hnext)]
    | ok next =>
      have hread : (before ++ [token]).foldlM (push limits) [] = .ok next := by
        rw [append_of_ok hbefore, cons_of_ok hnext]
        rfl
      have hsplit : tokens = (before ++ [token]) ++ (part ++ after) := by
        simpa using htokens
      rw [cons_of_ok hnext] at hlasting
      rw [cons_of_ok hnext, cons_of_ok (hpush.trans hnext)]
      exact ih hsplit hread hlasting

theorem reduce_of_within (h : limits.Within wider) (hpowers : PowersTaken limits tokens)
    (hlasting : ∀ fault, reduce limits tokens = .error fault → ¬fault.OfLimits) :
    reduce wider tokens = reduce limits tokens := by
  have hwhole : tokens = [] ++ (tokens ++ []) := by simp
  have hstart : ([] : List Token).foldlM (push limits) [] = .ok [] := rfl
  have hrun : tokens.foldlM (push wider) [] = tokens.foldlM (push limits) [] := by
    apply foldlM_push_of_within h hpowers hwhole hstart
    intro fault hfault
    apply hlasting
    rw [reduce_eq, hfault]
    rfl
  rw [reduce_eq, reduce_eq, hrun]

/-- A computation that ends meets the same powers under wider limits, and takes them exactly. -/
theorem PowersTaken.of_within (h : limits.Within wider) (hpowers : PowersTaken limits tokens)
    (hrun : tokens.foldlM (push limits) [] = .ok stack) : PowersTaken wider tokens := by
  intro before after a b below htokens hwider
  rw [htokens] at hrun
  obtain ⟨met, hbefore, -⟩ := append_eq_ok hrun
  have hstart : ([] : List Token).foldlM (push limits) [] = .ok [] := rfl
  have hsame : before.foldlM (push wider) [] = before.foldlM (push limits) [] := by
    apply foldlM_push_of_within h hpowers htokens hstart
    intro fault hfault
    rw [hbefore] at hfault
    cases hfault
  obtain ⟨n, hexact⟩ := hpowers before after a b below htokens (hsame.symm.trans hwider)
  exact ⟨n, Op.exactExponent?_of_within h hexact⟩

private theorem powersTaken_of_not_mem (hpow : .op .pow ∉ tokens) : PowersTaken limits tokens := by
  rintro before after a b below rfl -
  exact absurd (by simp) hpow

private theorem foldlM_of_reduce {v : Rat} (hreduce : reduce limits tokens = .ok v) :
    ∃ stack, tokens.foldlM (push limits) [] = .ok stack := by
  rw [reduce_eq] at hreduce
  obtain ⟨stack, hrun, -⟩ := bind_eq_ok hreduce
  exact ⟨stack, hrun⟩

end Postfix

private theorem checkLength_of_within (h : limits.Within wider)
    (hlength : checkLength limits text = .ok ()) : checkLength wider text = .ok () :=
  checkLength_of_le (Nat.le_trans (length_le_of_checkLength hlength) h.maxLength_le)

/-- An evaluation goes the same way under wider limits, unless it ended for the limits or there are
powers left to the floats. -/
theorem evaluate_of_within (h : limits.Within wider)
    (hpowers : ∀ tokens arranged, Token.scan text = .ok tokens →
      Postfix.ofTokens tokens = .ok arranged → Postfix.PowersTaken limits arranged)
    (hlasting : ∀ fault, (evaluate limits text).result = .error fault → ¬fault.OfLimits) :
    (evaluate wider text).result = (evaluate limits text).result := by
  have hlength : checkLength limits text = .ok () := by
    cases hcheck : checkLength limits text with
    | ok _ => rfl
    | error fault =>
      obtain ⟨-, rfl⟩ := tooLong_of_checkLength hcheck
      have hfault : (evaluate limits text).result =
          .error (.tooLong text.length limits.maxLength) := by
        rw [evaluate_result, hcheck]
        rfl
      exact absurd trivial (hlasting _ hfault)
  have hwider := checkLength_of_within h hlength
  cases hscan : Token.scan text with
  | error fault =>
    rw [evaluate_result, evaluate_result, hlength, hwider, hscan]
    rfl
  | ok tokens =>
    cases harranged : Postfix.ofTokens tokens with
    | error fault =>
      rw [evaluate_result, evaluate_result, hlength, hwider, hscan]
      change (Postfix.ofTokens tokens >>= _) = (Postfix.ofTokens tokens >>= _)
      rw [harranged]
      rfl
    | ok arranged =>
      have hreduce : Postfix.reduce wider arranged = Postfix.reduce limits arranged := by
        apply Postfix.reduce_of_within h (hpowers tokens arranged hscan harranged)
        intro fault hfault
        apply hlasting
        rw [evaluate_result_of_arranged hlength hscan harranged, hfault]
        rfl
      rw [evaluate_result_of_arranged hlength hscan harranged,
        evaluate_result_of_arranged hwider hscan harranged, hreduce]

/-- Wider limits keep exact results. A value for which no power was left to the floats is found again,
in the same way; and a text without powers that is refused for something other than its length or a
result that is not finite is refused for the same reason. -/
theorem wider_limits_keep_results (h : limits.Within wider) (text : String) :
    (∀ workings, (evaluate limits text).result = .ok workings →
      Postfix.PowersTaken limits workings.arranged →
      (evaluate wider text).result = .ok workings ∧
        Postfix.PowersTaken wider workings.arranged) ∧
    ('^' ∉ text.toList → ∀ fault, (evaluate limits text).result = .error fault →
      ¬fault.OfLimits → (evaluate wider text).result = .error fault) := by
  refine ⟨?_, ?_⟩
  · intro workings hworkings hpowers
    obtain ⟨-, hscan, harranged, hreduce⟩ := stages_of_evaluate hworkings
    obtain ⟨stack, hrun⟩ := Postfix.foldlM_of_reduce hreduce
    refine ⟨?_, hpowers.of_within h hrun⟩
    rw [evaluate_of_within h, hworkings]
    · intro tokens arranged hscan' harranged'
      obtain rfl := Except.ok.inj (hscan.symm.trans hscan')
      obtain rfl := Except.ok.inj (harranged.symm.trans harranged')
      exact hpowers
    · intro fault hfault
      rw [hworkings] at hfault
      cases hfault
  · intro hcaret fault hfault hlasting
    rw [evaluate_of_within h, hfault]
    · intro tokens arranged hscan harranged
      apply Postfix.powersTaken_of_not_mem
      intro hmem
      obtain ⟨hspells, -⟩ := (Token.scan_eq_ok_iff text).mp hscan
      exact hcaret (hspells.symbol_mem (Postfix.mem_of_mem_arranged harranged hmem))
    · intro other hother
      rw [hfault] at hother
      cases hother
      exact hlasting

/-- A power that just keeps to the limits, and a division by zero. -/
theorem wider_limits_keep_results_quotient :
    Limits.Within ⟨7, 9⟩ .standard ∧
      (evaluate ⟨7, 9⟩ "2^3/5").result =
        .ok ⟨[.num 2, .op .pow, .num 3, .op .div, .num 5],
          [.num 2, .num 3, .op .pow, .num 5, .op .div], 8 / 5⟩ ∧
      Postfix.PowersTaken ⟨7, 9⟩ [.num 2, .num 3, .op .pow, .num 5, .op .div] ∧
      (evaluate .standard "2^3/5").result =
        .ok ⟨[.num 2, .op .pow, .num 3, .op .div, .num 5],
          [.num 2, .num 3, .op .pow, .num 5, .op .div], 8 / 5⟩ ∧
      '^' ∉ "2/(1-1)".toList ∧
      (evaluate ⟨7, 9⟩ "2/(1-1)").result = .error (.operator .divisionByZero) ∧
      ¬(Fault.operator .divisionByZero).OfLimits ∧
      (evaluate .standard "2/(1-1)").result = .error (.operator .divisionByZero) := by
  have hwithin : Limits.Within ⟨7, 9⟩ .standard := ⟨by decide, by decide⟩
  have hvalue : (evaluate ⟨7, 9⟩ "2^3/5").result =
      .ok ⟨[.num 2, .op .pow, .num 3, .op .div, .num 5],
        [.num 2, .num 3, .op .pow, .num 5, .op .div], 8 / 5⟩ := by decide +kernel
  have hpowers : Postfix.PowersTaken ⟨7, 9⟩ [.num 2, .num 3, .op .pow, .num 5, .op .div] := by
    intro before after a b below hsplit hrun
    rcases before with _ | ⟨x, _ | ⟨y, _ | ⟨z, _ | ⟨t, _ | ⟨s, before⟩⟩⟩⟩⟩
    · simp at hsplit
    · simp at hsplit
    · simp only [List.cons_append, List.nil_append, List.cons.injEq] at hsplit
      obtain ⟨rfl, rfl, -⟩ := hsplit
      cases hrun
      exact ⟨3, by decide +kernel⟩
    · simp at hsplit
    · simp at hsplit
    · simp at hsplit
  have hcaret : '^' ∉ "2/(1-1)".toList := by decide
  have hfault : (evaluate ⟨7, 9⟩ "2/(1-1)").result = .error (.operator .divisionByZero) := by
    decide +kernel
  have hlasting : ¬(Fault.operator .divisionByZero).OfLimits := id
  have hkept := (wider_limits_keep_results hwithin "2^3/5").1 _ hvalue hpowers
  have hrefused := (wider_limits_keep_results hwithin "2/(1-1)").2 hcaret _ hfault hlasting
  exact ⟨hwithin, hvalue, hpowers, hkept.1, hcaret, hfault, hlasting, hrefused⟩

end Reckon
