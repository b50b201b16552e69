import Reckon.Proofs.Arithmetic.Refusal
import Reckon.Proofs.Rational.Power

/-!
Nothing is ever divided by zero. Over the rationals a quotient by zero is zero by convention, so that a
division that should not be reached would go by unseen. Here the operators are gone through once more
with a division that stops at a zero divisor. They come out the same, so that no quotient, no remainder
and no reciprocal is taken where there is none.
-/

namespace Reckon

namespace Rational

variable {a b base : Rat} {exponent : Int}

/-- The quotient of two numbers, or a stop where the divisor is zero. -/
def quotientOrStop (a b : Rat) : Option Rat := if b = 0 then none else some (a / b)

/-- The remainder of two numbers, by way of a quotient that may stop. -/
def remainderOrStop (a b : Rat) : Option Rat :=
  (quotientOrStop a b).map fun quotient => a - b * truncate quotient

/-- A power by repeated squaring; the reciprocal for a negative exponent may stop. -/
def powerOrStop (base : Rat) (exponent : Int) : Option Rat :=
  let finish := (PowerState.start base exponent.natAbs).after (bitLength exponent.natAbs)
  if exponent < 0 then quotientOrStop 1 finish.product else some finish.product

theorem quotientOrStop_of_ne_zero (a : Rat) (h : b ≠ 0) : quotientOrStop a b = some (a / b) :=
  if_neg h

theorem remainderOrStop_of_ne_zero (a : Rat) (h : b ≠ 0) :
    remainderOrStop a b = some (remainder a b) := by
  simp [remainderOrStop, remainder, quotientOrStop_of_ne_zero a h]

/-- No power stops but a negative one of zero. -/
theorem powerOrStop_of_defined (h : base ≠ 0 ∨ 0 ≤ exponent) :
    powerOrStop base exponent = some (power base exponent) := by
  simp only [powerOrStop, power, PowerState.product_after]
  split
  case isTrue hneg =>
    have hbase : base ≠ 0 := h.resolve_right (not_le.mpr hneg)
    rw [quotientOrStop_of_ne_zero 1 (pow_ne_zero _ hbase), one_div]
  case isFalse => rfl

end Rational

namespace Op

open Rational

variable {ε α β : Type}

/-- A power as `raise` takes it, or a stop at the reciprocal of zero. -/
def raiseOrStop (limits : Limits) (base exponent : Rat)
    (pow : Float → Float → Float := Float.pow) : ExceptT OperatorError Option Rat :=
  match wholeExponent? exponent with
  | some n =>
    if base = 0 ∧ n < 0 then throw .divisionByZero
    else if Word.saturate (size base * n.natAbs) ≤ limits.maxBits then powerOrStop base n
    else raiseNearby base exponent pow
  | none => raiseNearby base exponent pow

/-- An operator as `apply` computes it, or a stop at a division by zero. A refusal is not a stop but an
answer. -/
def applyOrStop (limits : Limits) (op : Op) (a b : Rat) : ExceptT OperatorError Option Rat :=
  match op with
  | add => do
    (checkSize limits add a b).result
    return a + b
  | sub => do
    (checkSize limits sub a b).result
    return a - b
  | mul => do
    (checkSize limits mul a b).result
    return a * b
  | div => do
    (checkSize limits div a b).result
    checkDivisor b
    quotientOrStop a b
  | rem => do
    (checkSize limits rem a b).result
    checkDivisor b
    remainderOrStop a b
  | pow => raiseOrStop limits a b

/-- What follows a check need not stop in any case but that in which the check passes. -/
theorem run_check_bind {x : Except ε α} {orStop : α → ExceptT ε Option β} {next : α → Except ε β}
    (h : ∀ a, x = .ok a → (orStop a).run = some (next a)) :
    ExceptT.run (m := Option) (liftM x >>= orStop) = some (x >>= next) := by
  cases x with
  | error e => rfl
  | ok a => exact h a rfl

/-- Only an exact power divides, and a negative one of zero is refused before it is taken. -/
theorem raiseOrStop_run (limits : Limits) (a b : Rat) (pow : Float → Float → Float) :
    (raiseOrStop limits a b pow).run = some (raise limits a b pow) := by
  unfold raiseOrStop raise
  cases wholeExponent? b with
  | none => rfl
  | some n =>
    simp only
    split
    case isTrue => rfl
    case isFalse hdefined =>
      have hreciprocal : a ≠ 0 ∨ 0 ≤ n := by
        rwa [← Rat.intCast_neg_iff, defined_iff] at hdefined
      rw [powerOrStop_of_defined hreciprocal]
      split <;> rfl

/-- No operator ever stops: none divides by zero, whatever its operands and the limits are. -/
theorem applyOrStop_run (limits : Limits) (op : Op) (a b : Rat) :
    (op.applyOrStop limits a b).run = some (op.apply limits a b) := by
  rw [apply_eq]
  cases op with
  | add | sub | mul => exact run_check_bind fun _ _ => rfl
  | div =>
    refine run_check_bind fun _ _ => run_check_bind fun _ hdivisor => ?_
    rw [quotientOrStop_of_ne_zero a (ne_zero_of_checkDivisor hdivisor)]
    rfl
  | rem =>
    refine run_check_bind fun _ _ => run_check_bind fun _ hdivisor => ?_
    rw [remainderOrStop_of_ne_zero a (ne_zero_of_checkDivisor hdivisor)]
    rfl
  | pow => exact raiseOrStop_run limits a b Float.pow

end Op
end Reckon
