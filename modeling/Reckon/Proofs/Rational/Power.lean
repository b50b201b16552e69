import Mathlib.Tactic
import Reckon.Proofs.Rational.Size
import Reckon.Rational.Power

/-!
Repeated squaring computes the power. A step keeps the product times the square raised to the
exponent, and as many steps as the exponent has binary digits use it up.
-/

namespace Reckon.Rational

/-- The number that a power under way is going to be. -/
def PowerState.value (s : PowerState) : Rat := s.product * s.square ^ s.exponent

theorem PowerState.value_step (s : PowerState) : s.step.value = s.value := by
  obtain ⟨product, square, exponent⟩ := s
  have hsplit : exponent = 2 * (exponent / 2) + exponent % 2 := (Nat.div_add_mod exponent 2).symm
  have hsquares : (if 0 < exponent / 2 then square * square else square) ^ (exponent / 2) =
      square ^ (2 * (exponent / 2)) := by
    split
    case isTrue => rw [pow_mul, pow_two]
    case isFalse h =>
      have hzero : exponent / 2 = 0 := by omega
      rw [hzero, Nat.mul_zero, pow_zero]
  unfold value step
  simp only [hsquares]
  rcases Nat.mod_two_eq_zero_or_one exponent with hbit | hbit
  · rw [hbit, Nat.add_zero] at hsplit
    simp only [hbit, zero_ne_one, if_false, ← hsplit]
  · rw [hbit] at hsplit
    simp only [hbit, if_true]
    conv_rhs => rw [hsplit, pow_succ]
    ring

theorem PowerState.value_after (n : Nat) (s : PowerState) : (s.after n).value = s.value := by
  unfold after
  induction n with
  | zero => rfl
  | succ n ih => rw [Nat.repeat, value_step, ih]

theorem PowerState.exponent_after (n : Nat) (s : PowerState) :
    (s.after n).exponent = s.exponent / 2 ^ n := by
  unfold after
  induction n with
  | zero => simp [Nat.repeat]
  | succ n ih =>
    rw [Nat.repeat, Nat.pow_succ, ← Nat.div_div_eq_div_mul, ← ih]
    rfl

/-- After the last digit the product is the power. -/
theorem PowerState.product_after (base : Rat) (exponent : Nat) :
    ((PowerState.start base exponent).after (bitLength exponent)).product = base ^ exponent := by
  have hvalue := value_after (bitLength exponent) (start base exponent)
  have hexponent : ((start base exponent).after (bitLength exponent)).exponent = 0 := by
    rw [exponent_after]
    exact Nat.div_eq_of_lt (lt_two_pow_bitLength exponent)
  unfold value at hvalue
  rw [hexponent, pow_zero, mul_one] at hvalue
  rw [hvalue]
  simp [start]

theorem power_eq_zpow (base : Rat) (exponent : Int) : power base exponent = base ^ exponent := by
  unfold power
  simp only [PowerState.product_after]
  split
  case isTrue h =>
    have hneg : exponent = -(exponent.natAbs : Int) := by omega
    conv_rhs => rw [hneg, zpow_neg, zpow_natCast]
  case isFalse h =>
    have hpos : exponent = (exponent.natAbs : Int) := by omega
    conv_rhs => rw [hpos, zpow_natCast]

/-- A power is defined unless zero is taken to a negative exponent. -/
theorem defined_iff {base : Rat} {exponent : Int} :
    ¬(base = 0 ∧ (exponent : Rat) < 0) ↔ base ≠ 0 ∨ 0 ≤ exponent := by
  rw [not_and_or, not_lt, Int.cast_nonneg_iff]

/-- A power takes the bits of its base as often as the exponent says, or two if that is never. -/
theorem size_power_le (base : Rat) (exponent : Int) (h : base ≠ 0 ∨ 0 ≤ exponent) :
    size (power base exponent) ≤ max 2 (size base * exponent.natAbs) := by
  have hsize := size_pow_le_max base exponent.natAbs
  unfold power
  simp only [PowerState.product_after]
  split
  case isTrue hneg =>
    have hbase : base ≠ 0 := by
      rcases h with h | h
      · exact h
      · omega
    rw [size_inv (pow_ne_zero _ hbase)]
    exact hsize
  case isFalse => exact hsize

end Reckon.Rational
