import Mathlib.Tactic
import Reckon.Proofs.Arithmetic.Refusal
import Reckon.Proofs.Binary64.Size
import Reckon.Proofs.Rational.Power

/-!
What the limits say of a result. They are only looked at before an operation, on its operands; here
they become bounds on what the operation gives. The limits are machine words, and the greatest of
them would make the sum of two sizes stop short, so they are kept below half of it.
-/

namespace Reckon.Op

open Rational Run

variable {limits : Limits} {op : Op} {a b v : Rat}

theorem size_sum_le (hlimits : limits.maxBits < 2 ^ 63)
    (h : (checkSize limits op a b).result = .ok ()) : size a + size b ≤ 2 * limits.maxBits := by
  rw [result_checkSize] at h
  split at h
  case isTrue => cases h
  case isFalse hbits =>
    unfold Word.saturate Word.maxUnsigned at hbits
    omega

/-- A sum, difference, product, quotient or remainder has at most twice the bits of its operands. -/
theorem size_apply_le (hlimits : limits.maxBits < 2 ^ 63) (hop : op ≠ .pow)
    (h : op.apply limits a b = .ok v) : size v ≤ 4 * limits.maxBits := by
  rw [apply_eq] at h
  cases op with
  | add =>
    obtain ⟨_, hcheck, hv⟩ := bind_eq_ok h
    cases hv
    have hsum := size_sum_le hlimits hcheck
    have hsize := size_add_le a b
    omega
  | sub =>
    obtain ⟨_, hcheck, hv⟩ := bind_eq_ok h
    cases hv
    have hsum := size_sum_le hlimits hcheck
    have hsize := size_sub_le a b
    omega
  | mul =>
    obtain ⟨_, hcheck, hv⟩ := bind_eq_ok h
    cases hv
    have hsum := size_sum_le hlimits hcheck
    have hsize := size_mul_le a b
    omega
  | div =>
    obtain ⟨_, hcheck, hrest⟩ := bind_eq_ok h
    obtain ⟨_, hdivisor, hv⟩ := bind_eq_ok hrest
    cases hv
    have hsum := size_sum_le hlimits hcheck
    have hsize := size_div_le a (ne_zero_of_checkDivisor hdivisor)
    omega
  | rem =>
    obtain ⟨_, hcheck, hrest⟩ := bind_eq_ok h
    obtain ⟨_, hdivisor, hv⟩ := bind_eq_ok hrest
    cases hv
    have hsum := size_sum_le hlimits hcheck
    have hsize := size_remainder_le a (ne_zero_of_checkDivisor hdivisor)
    omega
  | pow => exact absurd rfl hop

theorem exactExponent?_eq_some {n : Int} (hlimits : limits.maxBits < 2 ^ 63)
    (h : exactExponent? limits a b = some n) :
    b = n ∧ Word.Signed n ∧ size a * n.natAbs ≤ limits.maxBits := by
  obtain ⟨hwhole, hsigned, hbits⟩ := exactExponent?_eq_some_iff.mp h
  refine ⟨hwhole, hsigned, ?_⟩
  unfold Word.saturate Word.maxUnsigned at hbits
  omega

/-- An exact power keeps within the limits, and any other is a finite binary64 number. -/
theorem size_raise_le (hlimits : limits.maxBits < 2 ^ 63) (h : raise limits a b = .ok v) :
    size v ≤ max limits.maxBits 1128 := by
  rw [raise_eq] at h
  split at h
  case isTrue => cases h
  case isFalse hzero =>
    split at h
    case h_1 n hexact =>
      cases h
      obtain ⟨rfl, -, hbits⟩ := exactExponent?_eq_some hlimits hexact
      have hsize := size_power_le a n (defined_iff.mp hzero)
      omega
    case h_2 =>
      unfold nearbyPower at h
      split at h
      case h_1 value hfinite =>
        cases h
        exact le_trans (Binary64.size_toRat_le hfinite) (le_max_right _ _)
      case h_2 => cases h

end Reckon.Op
