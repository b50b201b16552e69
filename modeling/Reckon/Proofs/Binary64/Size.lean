import Mathlib.Tactic
import Reckon.Binary64.Basic
import Reckon.Proofs.Rational.Size

/-!
How many bits the rational takes that a finite binary64 number is. Nothing is asked of the number but
its word: a mantissa of fifty-three digits and an exponent between the least and the greatest one.
-/

namespace Reckon.Binary64

open Rational

variable {negative : Bool} {mantissa : Nat} {exponent : Int} {x : Float} {r : Rat}

/-- A finite word has a mantissa of at most fifty-three digits and an exponent of its field's range. -/
theorem decode_finite (h : decode x = .finite negative mantissa exponent) :
    mantissa < 2 ^ 53 ∧ -1074 ≤ exponent ∧ exponent ≤ 971 := by
  have hfraction : x.toBits.toNat % leadingBit < leadingBit := Nat.mod_lt _ (by decide)
  have hfield : x.toBits.toNat / leadingBit % 2048 < 2048 := Nat.mod_lt _ (by decide)
  unfold decode at h
  simp only at h
  unfold leadingBit at h hfraction hfield
  split at h
  case isTrue =>
    split at h
    case isTrue => cases h
    case isFalse => cases h
  case isFalse hfinite =>
    split at h
    case isTrue =>
      cases h
      omega
    case isFalse hnormal =>
      cases h
      omega

private theorem size_magnitude_le (hmantissa : mantissa < 2 ^ 53) (hlow : -1074 ≤ exponent)
    (hhigh : exponent ≤ 971) : size ((mantissa : Rat) * (2 : Rat) ^ exponent) ≤ 1128 := by
  rcases Int.le_total 0 exponent with hsign | hsign
  · -- a whole number of at most 53 + 971 digits
    obtain ⟨e, rfl⟩ := Int.eq_ofNat_of_zero_le hsign
    have hr : (mantissa : Rat) * (2 : Rat) ^ (e : Int) * (1 : Nat) = (mantissa * 2 ^ e : Nat) := by
      rw [zpow_natCast]
      push_cast
      ring
    have he : e < 972 := by omega
    have hscale : 2 ^ e < 2 ^ 972 := pow_lt_pow_right₀ Nat.one_lt_two he
    have hnum : mantissa * 2 ^ e < 2 ^ (53 + 972) := mul_lt_two_pow_add hmantissa hscale
    exact Nat.le_trans (size_le_of_fraction (v := 1) (by decide) hr hnum (by decide)) (by decide)
  · -- fifty-three digits over a power of two of at most 1075
    obtain ⟨e, he⟩ := Int.eq_ofNat_of_zero_le (Int.neg_nonneg_of_nonpos hsign)
    have hexponent : exponent = -(e : Int) := by omega
    have hr : (mantissa : Rat) * (2 : Rat) ^ exponent * (2 ^ e : Nat) = (mantissa : Int) := by
      rw [hexponent, zpow_neg, zpow_natCast]
      push_cast
      field_simp
    have hbelow : e < 1075 := by omega
    have hden : 2 ^ e < 2 ^ 1075 := pow_lt_pow_right₀ Nat.one_lt_two hbelow
    exact size_le_of_fraction (Nat.two_pow_pos e).ne' hr hmantissa hden

private theorem size_finite_le (hmantissa : mantissa < 2 ^ 53) (hlow : -1074 ≤ exponent)
    (hhigh : exponent ≤ 971) (h : (Datum.finite negative mantissa exponent).toRat? = some r) :
    size r ≤ 1128 := by
  have hmagnitude := size_magnitude_le hmantissa hlow hhigh
  simp only [Datum.toRat?, Option.some.injEq] at h
  subst h
  split
  case isTrue =>
    rw [size_neg]
    exact hmagnitude
  case isFalse => exact hmagnitude

/-- A finite number takes at most 1128 bits: 53 above 1075. -/
theorem size_toRat_le (h : toRat? x = some r) : size r ≤ 1128 := by
  unfold toRat? at h
  cases hdecode : decode x with
  | notANumber =>
    rw [hdecode] at h
    cases h
  | infinite =>
    rw [hdecode] at h
    cases h
  | finite negative mantissa exponent =>
    rw [hdecode] at h
    obtain ⟨hmantissa, hlow, hhigh⟩ := decode_finite hdecode
    exact size_finite_le hmantissa hlow hhigh h

/-- The least numbers with a leading one reach the bound. -/
example : (toRat? (ofWord 0x1FFFFFFFFFFFFF)).map size = some 1128 := by decide +kernel

end Reckon.Binary64
