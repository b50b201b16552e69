import Reckon.Expr.Lexer
import Reckon.Expr.Postfix
import Reckon.Proofs.Arithmetic.Refusal
import Reckon.Proofs.Expr.Reduction

/-!
Where the faults of an expression come from. Reading and arranging find faults of form only; a
computation is refused for its form or by one of its operators, and for the size of operands exactly
where the guard looks at two that are too large together.
-/

namespace Reckon

open Run

variable {limits : Limits} {tokens : List Token} {fault : Fault} {op : Op} {bits : Nat}

/-- A fault of the form of a text, with no arithmetic in it. -/
def Fault.OfForm : Fault → Prop
  | empty | unexpectedChar _ _ | badNumber _ | unclosedParen | unmatchedParen | missingOperand
  | unexpectedOperand => True
  | tooLong _ _ | notRepresentable | operator _ => False

theorem Token.ofForm_of_scanFrom {position : Nat} {text : List Char}
    (h : scanFrom position text = .error fault) : fault.OfForm := by
  fun_induction scanFrom position text with
  | case1 => cases h
  | case2 position c rest hblank ih => exact ih h
  | case3 position c rest hblank token hsymbol ih =>
    rcases bind_eq_error h with hrest | ⟨more, -, hmore⟩
    · exact ih hrest
    · cases hmore
  | case4 position c rest hblank hsymbol hnumeral run value hvalue ih =>
    rcases bind_eq_error h with hrest | ⟨more, -, hmore⟩
    · exact ih hrest
    · cases hmore
  | case5 =>
    cases h
    exact trivial
  | case6 =>
    cases h
    exact trivial

theorem Token.ofForm_of_scan {text : String} (h : scan text = .error fault) : fault.OfForm := by
  unfold scan at h
  rcases bind_eq_error h with hscan | ⟨found, -, hfound⟩
  · exact ofForm_of_scanFrom hscan
  · split at hfound
    case isTrue =>
      cases hfound
      exact trivial
    case isFalse => cases hfound

namespace Postfix

theorem State.ofForm_of_step {s : State} {token : Token} (h : s.step token = .error fault) :
    fault.OfForm := by
  cases token with
  | num | lparen =>
    simp only [step] at h
    split at h
    case isTrue =>
      cases h
      exact trivial
    case isFalse => cases h
  | op =>
    simp only [step] at h
    split at h
    case isTrue => cases h
    case isFalse =>
      cases h
      exact trivial
  | rparen =>
    simp only [step] at h
    split at h
    case isTrue =>
      split at h
      case h_1 => cases h
      case h_2 =>
        cases h
        exact trivial
    case isFalse =>
      cases h
      exact trivial

theorem ofForm_of_drain {pending : List Pending} {emitted : List Token}
    (h : drain pending emitted = .error fault) : fault.OfForm := by
  induction pending generalizing emitted with
  | nil => cases h
  | cons waiting rest ih =>
    cases waiting with
    | op op => exact ih h
    | paren =>
      cases h
      exact trivial

theorem ofForm_of_ofTokens (h : ofTokens tokens = .error fault) : fault.OfForm := by
  unfold ofTokens at h
  rcases bind_eq_error h with hrun | ⟨s, -, hfinish⟩
  · obtain ⟨read, token, rest, s, -, -, hstep⟩ := error_split hrun
    exact State.ofForm_of_step hstep
  · unfold State.finish at hfinish
    split at hfinish
    case isTrue =>
      cases hdrain : drain s.pending s.emitted with
      | ok drained =>
        rw [hdrain] at hfinish
        cases hfinish
      | error other =>
        rw [hdrain] at hfinish
        cases hfinish
        exact ofForm_of_drain hdrain
    case isFalse =>
      cases hfinish
      exact trivial

/-- The size guard stops a computation: before an operator other than the power, the two operands on
top of the stack take more bits than twice those of an exact power. -/
def StoppedBySize (limits : Limits) (tokens : List Token) (op : Op) (bits : Nat) : Prop :=
  ∃ read rest a b below, tokens = read ++ .op op :: rest ∧
    read.foldlM (push limits) [] = .ok (b :: a :: below) ∧ op ≠ .pow ∧
    bits = Word.saturate (Rational.size a + Rational.size b) ∧
    Word.saturate (2 * limits.maxBits) < bits

theorem reduce_of_stoppedBySize (h : StoppedBySize limits tokens op bits) :
    reduce limits tokens = .error (.operator (.operandsTooLarge op bits)) := by
  obtain ⟨read, rest, a, b, below, rfl, hread, hop, hbits, hlarge⟩ := h
  have hcheck : (Op.checkSize limits op a b).result = .error (.operandsTooLarge op bits) := by
    rw [Op.checkSize_eq_error_iff, ← hbits]
    exact ⟨hlarge, rfl⟩
  have happly := Op.apply_of_checkSize_error hop hcheck
  have hpush : push limits (b :: a :: below) (.op op) =
      .error (.operator (.operandsTooLarge op bits)) := push_op_of_error happly below
  rw [reduce_eq, append_of_ok hread, cons_of_error hpush]
  rfl

/-- A computation is refused for its form, or by one of its operators. -/
theorem error_of_reduce (h : reduce limits tokens = .error fault) :
    fault.OfForm ∨ ∃ read op rest a b below error, tokens = read ++ .op op :: rest ∧
      read.foldlM (push limits) [] = .ok (b :: a :: below) ∧
      op.apply limits a b = .error error ∧ fault = .operator error := by
  rw [reduce_eq] at h
  rcases bind_eq_error h with hrun | ⟨stack, -, hsingle⟩
  · obtain ⟨read, token, rest, stack, rfl, hread, hpush⟩ := error_split hrun
    cases token with
    | num value => cases hpush
    | lparen | rparen =>
      cases hpush
      exact .inl trivial
    | op op =>
      rcases stack with _ | ⟨b, _ | ⟨a, below⟩⟩
      · cases hpush
        exact .inl trivial
      · cases hpush
        exact .inl trivial
      · obtain ⟨error, happly, rfl⟩ := push_op_eq_error hpush
        exact .inr ⟨read, op, rest, a, b, below, error, rfl, hread, happly, rfl⟩
  · rcases stack with _ | ⟨b, _ | ⟨a, below⟩⟩
    · cases hsingle
      exact .inl trivial
    · cases hsingle
    · cases hsingle
      exact .inl trivial

/-- A computation is refused for the size of its operands exactly where the guard stops it. -/
theorem reduce_eq_tooLarge_iff :
    reduce limits tokens = .error (.operator (.operandsTooLarge op bits)) ↔
      StoppedBySize limits tokens op bits := by
  refine ⟨?_, reduce_of_stoppedBySize⟩
  intro h
  rcases error_of_reduce h with hform | ⟨read, named, rest, a, b, below, error, hsplit, hread,
    happly, hfault⟩
  · exact hform.elim
  · cases hfault
    obtain ⟨hop, hcheck⟩ := Op.tooLarge_of_apply happly
    obtain ⟨hlarge, herror⟩ := Op.checkSize_eq_error_iff.mp hcheck
    cases herror
    exact ⟨read, rest, a, b, below, hsplit, hread, hop, rfl, hlarge⟩

end Postfix
end Reckon
