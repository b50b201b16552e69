import Reckon.Arithmetic.Exact
import Reckon.Proofs.Run
import Reckon.Proofs.Traced

/-!
Why an operator on exact numbers gives no value. There are two reasons only: something was to be
divided by zero, or there is no finite result, be it that the operands were too large together for
one to be looked for. The other causes belong to symbols and to dates.
-/

namespace Reckon

open Run

/-- A refusal that is told as a result that is not finite. -/
def OperatorError.NotFinite : OperatorError → Prop
  | .nonFiniteResult | .operandsTooLarge _ _ => True
  | .unsupportedOperator _ | .divisionByZero | .dateOutOfRange _ _ => False

/-- A refusal that lies in the numbers and not in what was asked of them. -/
def OperatorError.Arithmetic (error : OperatorError) : Prop :=
  error = .divisionByZero ∨ error.NotFinite

namespace Op

open Rational

variable {limits : Limits} {op : Op} {a b : Rat} {error : OperatorError}

theorem result_checkSize (limits : Limits) (op : Op) (a b : Rat) :
    (checkSize limits op a b).result =
      if Word.saturate (2 * limits.maxBits) < Word.saturate (size a + size b) then
        .error (.operandsTooLarge op (Word.saturate (size a + size b)))
      else .ok () := by
  unfold checkSize
  simp only
  split <;> rfl

/-- The result of an operator, apart from what is told on the way to it. -/
theorem apply_eq (limits : Limits) (op : Op) (a b : Rat) : op.apply limits a b =
    match op with
    | add => do
      (checkSize limits add a b).result
      return a + b
    | sub => do
      (checkSize limits sub a b).result
      return a - b
    | mul => do
      (checkSize limits mul a b).result
      return a * b
    | div => do
      (checkSize limits div a b).result
      checkDivisor b
      return a / b
    | rem => do
      (checkSize limits rem a b).result
      checkDivisor b
      return remainder a b
    | pow => raise limits a b := by
  cases op with
  | add | sub | mul | div | rem =>
    simp only [apply, applyTraced, ne_eq, reduceCtorEq, not_false_eq_true, if_true,
      Traced.result_bind, Traced.result_lift, Traced.result_pure]
    rfl
  | pow => rfl

theorem checkSize_eq_error_iff : (checkSize limits op a b).result = .error error ↔
    Word.saturate (2 * limits.maxBits) < Word.saturate (size a + size b) ∧
      error = .operandsTooLarge op (Word.saturate (size a + size b)) := by
  rw [result_checkSize]
  split
  case isTrue hlarge =>
    rw [Except.error.injEq]
    exact ⟨fun h => ⟨hlarge, h.symm⟩, fun h => h.2.symm⟩
  case isFalse hfits => simp [hfits]

theorem notFinite_of_checkSize (h : (checkSize limits op a b).result = .error error) :
    error.NotFinite := by
  obtain ⟨-, rfl⟩ := checkSize_eq_error_iff.mp h
  exact trivial

theorem checkSize_of_le (h : size a + size b ≤ 2 * limits.maxBits) :
    (checkSize limits op a b).result = .ok () := by
  have hsaturated : ¬Word.saturate (2 * limits.maxBits) < Word.saturate (size a + size b) := by
    unfold Word.saturate
    omega
  rw [result_checkSize, if_neg hsaturated]

theorem checkDivisor_of_ne_zero (h : b ≠ 0) : checkDivisor b = .ok () := by
  unfold checkDivisor
  rw [if_neg h]

theorem ne_zero_of_checkDivisor (h : checkDivisor b = .ok ()) : b ≠ 0 := by
  rintro rfl
  cases h

theorem apply_sub_of_le (h : size a + size b ≤ 2 * limits.maxBits) :
    apply limits .sub a b = .ok (a - b) := by
  rw [apply_eq]
  simp only [checkSize_of_le h]
  rfl

theorem apply_div_of_le (hb : b ≠ 0) (h : size a + size b ≤ 2 * limits.maxBits) :
    apply limits .div a b = .ok (a / b) := by
  rw [apply_eq]
  simp only [checkSize_of_le h, checkDivisor_of_ne_zero hb]
  rfl

theorem eq_of_checkDivisor (h : checkDivisor b = .error error) : error = .divisionByZero := by
  unfold checkDivisor at h
  split at h
  case isTrue =>
    cases h
    rfl
  case isFalse => cases h

/-- The exponent of a power that is taken exactly: a whole number of one signed word, whose magnitude
times the size of the base stays within the limits. -/
def exactExponent? (limits : Limits) (base exponent : Rat) : Option Int :=
  let n := exponent.num
  if exponent.den = 1 ∧ Word.Signed n ∧
      Word.saturate (size base * n.natAbs) ≤ limits.maxBits then some n
  else none

theorem wholeExponent?_eq_some_iff {n : Int} :
    wholeExponent? b = some n ↔ b = n ∧ Word.Signed n := by
  unfold wholeExponent? Word.signed?
  constructor
  · intro h
    split at h
    case isTrue hden =>
      split at h
      case isTrue hsigned =>
        cases h
        exact ⟨Rat.ext rfl hden, hsigned⟩
      case isFalse => cases h
    case isFalse => cases h
  · rintro ⟨rfl, hsigned⟩
    simp [hsigned]

private theorem exactExponent?_eq (limits : Limits) (a b : Rat) : exactExponent? limits a b =
    (wholeExponent? b).bind fun n =>
      if Word.saturate (size a * n.natAbs) ≤ limits.maxBits then some n else none := by
  unfold exactExponent? wholeExponent? Word.signed?
  by_cases hden : b.den = 1
  · by_cases hsigned : Word.Signed b.num <;> simp [hden, hsigned]
  · simp [hden]

/-- A power is exact by a whole exponent of one word, as long as the size foreseen for it allows. -/
theorem exactExponent?_eq_some_iff {n : Int} : exactExponent? limits a b = some n ↔
    b = n ∧ Word.Signed n ∧ Word.saturate (size a * n.natAbs) ≤ limits.maxBits := by
  rw [exactExponent?_eq, Option.bind_eq_some_iff]
  constructor
  · rintro ⟨m, hwhole, hbits⟩
    obtain ⟨rfl, hsigned⟩ := wholeExponent?_eq_some_iff.mp hwhole
    split at hbits
    case isTrue hle =>
      cases hbits
      exact ⟨rfl, hsigned, hle⟩
    case isFalse => cases hbits
  · rintro ⟨hb, hsigned, hbits⟩
    exact ⟨n, wholeExponent?_eq_some_iff.mpr ⟨hb, hsigned⟩, if_pos hbits⟩

/-- A zero base is asked about on the way to an exact power and again on the way to any other. Together
the two questions are one that comes first, since a whole exponent has the sign of the number it is. -/
theorem raise_eq (limits : Limits) (a b : Rat) (pow : Float → Float → Float) :
    raise limits a b pow =
      if a = 0 ∧ b < 0 then .error .divisionByZero
      else
        match exactExponent? limits a b with
        | some n => .ok (power a n)
        | none => nearbyPower a b pow := by
  unfold raise
  rw [exactExponent?_eq]
  cases hwhole : wholeExponent? b with
  | none => rfl
  | some n =>
    obtain ⟨rfl, -⟩ := wholeExponent?_eq_some_iff.mp hwhole
    simp only [raiseNearby, Option.bind_some, Rat.intCast_neg_iff]
    by_cases hzero : a = 0 ∧ n < 0
    · rw [if_pos hzero, if_pos hzero]
    · rw [if_neg hzero, if_neg hzero]
      split <;> rfl

/-- Every operator but the power looks at the sizes first. -/
theorem apply_of_checkSize_error (hop : op ≠ .pow)
    (hcheck : (checkSize limits op a b).result = .error error) :
    op.apply limits a b = .error error := by
  rw [apply_eq]
  cases op with
  | add | sub | mul | div | rem =>
    simp only [hcheck]
    rfl
  | pow => exact absurd rfl hop

/-- A power divides by zero or is not finite; its operands are never too large. -/
theorem error_of_raise (h : raise limits a b = .error error) :
    error = .divisionByZero ∨ error = .nonFiniteResult := by
  rw [raise_eq] at h
  split at h
  case isTrue =>
    cases h
    exact .inl rfl
  case isFalse =>
    split at h
    case h_1 => cases h
    case h_2 =>
      unfold nearbyPower at h
      split at h
      case h_1 => cases h
      case h_2 =>
        cases h
        exact .inr rfl

/-- The ways for an operator to be refused: for the sizes, at which all but the power look first, for a
zero divisor, and for a power that is not finite. -/
theorem error_of_apply (h : op.apply limits a b = .error error) :
    (op ≠ .pow ∧ (checkSize limits op a b).result = .error error) ∨ error = .divisionByZero ∨
      error = .nonFiniteResult := by
  have hdivisor (v : Rat) (h : (checkDivisor b >>= fun _ => pure v) = .error error) :
      error = .divisionByZero := by
    rcases bind_eq_error h with hzero | ⟨_, -, hrest⟩
    · exact eq_of_checkDivisor hzero
    · cases hrest
  rw [apply_eq] at h
  cases op with
  | add | sub | mul =>
    rcases bind_eq_error h with hsize | ⟨_, -, hrest⟩
    · exact .inl ⟨nofun, hsize⟩
    · cases hrest
  | div | rem =>
    rcases bind_eq_error h with hsize | ⟨_, -, hrest⟩
    · exact .inl ⟨nofun, hsize⟩
    · exact .inr (.inl (hdivisor _ hrest))
  | pow => exact .inr (error_of_raise h)

theorem arithmetic_of_apply (h : op.apply limits a b = .error error) : error.Arithmetic := by
  rcases error_of_apply h with ⟨-, hsize⟩ | rfl | rfl
  · exact .inr (notFinite_of_checkSize hsize)
  · exact .inl rfl
  · exact .inr trivial

/-- No other look at the operands refuses them for their size. -/
theorem tooLarge_of_apply {named : Op} {bits : Nat}
    (h : op.apply limits a b = .error (.operandsTooLarge named bits)) :
    op ≠ .pow ∧ (checkSize limits op a b).result = .error (.operandsTooLarge named bits) := by
  rcases error_of_apply h with hsize | herror | herror
  · exact hsize
  · cases herror
  · cases herror

end Op
end Reckon
