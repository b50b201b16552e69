import Mathlib.Tactic
import Reckon.Proofs.Rational.Truncation

/-!
How far an operation makes a number grow. A rational takes no more bits than any fraction that it is
equal to, so each bound comes from one fraction for the result and the bounds of its two parts.
-/

namespace Reckon.Rational

variable {n d k u v : Nat} {a b r : Rat}

theorem bitLength_le_iff : bitLength n ≤ k ↔ n < 2 ^ k := by
  unfold bitLength
  split
  case isTrue h =>
    subst h
    simp
  case isFalse h => exact Nat.log2_lt h

theorem lt_two_pow_bitLength (n : Nat) : n < 2 ^ bitLength n := bitLength_le_iff.mp (Nat.le_refl _)

theorem bitLength_pos (h : n ≠ 0) : 0 < bitLength n := by
  simp [bitLength, h]

theorem mul_lt_two_pow_add (hn : n < 2 ^ u) (hd : d < 2 ^ v) : n * d < 2 ^ (u + v) := by
  rw [Nat.pow_add]
  exact Nat.mul_lt_mul'' hn hd

theorem size_natCast (n : Nat) : size n = bitLength n + 1 := by
  unfold size
  rw [Rat.num_natCast, Rat.den_natCast]
  rfl

/-- A number is no larger than a fraction that it is equal to. -/
theorem size_le_of_fraction {m : Int} (hd : d ≠ 0) (hr : r * d = m) (hm : m.natAbs < 2 ^ u)
    (hdv : d < 2 ^ v) : size r ≤ u + v := by
  have hdiv : r = Rat.divInt m d := by
    rw [Rat.divInt_eq_div, eq_div_iff (by exact_mod_cast hd)]
    exact_mod_cast hr
  have hden : r.den ∣ d := by
    have hdvd := Rat.den_dvd m d
    rw [← hdiv] at hdvd
    exact_mod_cast hdvd
  have hnum : r.num ∣ m := by
    have hdvd := Rat.num_dvd m (b := d) (by exact_mod_cast hd)
    rwa [← hdiv] at hdvd
  have hdenle : bitLength r.den ≤ v :=
    bitLength_le_iff.mpr (Nat.lt_of_le_of_lt (Nat.le_of_dvd (Nat.pos_of_ne_zero hd) hden) hdv)
  have hnumle : bitLength r.num.natAbs ≤ u := by
    rw [bitLength_le_iff]
    by_cases hzero : m = 0
    · rw [hzero, Int.cast_zero, mul_eq_zero] at hr
      rcases hr with rfl | hr
      · exact Nat.two_pow_pos u
      · exact absurd (by exact_mod_cast hr) hd
    · have hpos : 0 < m.natAbs := Int.natAbs_pos.mpr hzero
      exact Nat.lt_of_le_of_lt (Nat.le_of_dvd hpos (Int.natAbs_dvd_natAbs.mpr hnum)) hm
  unfold size
  omega

/-- A numerator over the product of two denominators. -/
theorem size_le_of_common_den {m : Int} (hr : r * (a.den * b.den : Nat) = m)
    (hm : m.natAbs < 2 ^ (size a + size b)) : size r ≤ 2 * (size a + size b) := by
  have hden : a.den * b.den < 2 ^ (bitLength a.den + bitLength b.den) :=
    mul_lt_two_pow_add (lt_two_pow_bitLength _) (lt_two_pow_bitLength _)
  have hne : a.den * b.den ≠ 0 := Nat.mul_ne_zero a.den_nz b.den_nz
  have hsize := size_le_of_fraction hne hr hm hden
  unfold size at hsize ⊢
  omega

/-- A numerator brought to the common denominator is at most half of what two bits more allow. -/
theorem two_mul_cross_lt (a b : Rat) :
    2 * (a.num.natAbs * b.den) < 2 ^ (size a + size b) := by
  have hcross : a.num.natAbs * b.den < 2 ^ (bitLength a.num.natAbs + bitLength b.den) :=
    mul_lt_two_pow_add (lt_two_pow_bitLength _) (lt_two_pow_bitLength _)
  have hden := bitLength_pos a.den_nz
  calc 2 * (a.num.natAbs * b.den)
    _ < 2 * 2 ^ (bitLength a.num.natAbs + bitLength b.den) := by omega
    _ = 2 ^ (bitLength a.num.natAbs + bitLength b.den + 1) := by rw [Nat.pow_succ, Nat.mul_comm]
    _ ≤ 2 ^ (size a + size b) := by
      apply Nat.pow_le_pow_right (by decide)
      unfold size
      omega

private theorem mul_den (r : Rat) : r * (r.den : Rat) = r.num := Rat.mul_den_eq_num r

theorem size_add_le (a b : Rat) : size (a + b) ≤ 2 * (size a + size b) := by
  have hr : (a + b) * (a.den * b.den : Nat) = (a.num * b.den + b.num * a.den : Int) := by
    push_cast
    linear_combination (b.den : Rat) * mul_den a + (a.den : Rat) * mul_den b
  refine size_le_of_common_den hr ?_
  have ha := two_mul_cross_lt a b
  have hb := two_mul_cross_lt b a
  have hsum := Int.natAbs_add_le (a.num * b.den) (b.num * a.den)
  rw [Int.natAbs_mul, Int.natAbs_mul, Int.natAbs_natCast, Int.natAbs_natCast] at hsum
  rw [Nat.add_comm (size b)] at hb
  omega

theorem size_neg (r : Rat) : size (-r) = size r := by
  simp [size]

theorem size_sub_le (a b : Rat) : size (a - b) ≤ 2 * (size a + size b) := by
  rw [sub_eq_add_neg, ← size_neg b]
  exact size_add_le a (-b)

theorem size_mul_le (a b : Rat) : size (a * b) ≤ size a + size b := by
  have hr : a * b * (a.den * b.den : Nat) = (a.num * b.num : Int) := by
    push_cast
    linear_combination (b * b.den) * mul_den a + (a.num : Rat) * mul_den b
  have hnum : (a.num * b.num).natAbs <
      2 ^ (bitLength a.num.natAbs + bitLength b.num.natAbs) := by
    rw [Int.natAbs_mul]
    exact mul_lt_two_pow_add (lt_two_pow_bitLength _) (lt_two_pow_bitLength _)
  have hden : a.den * b.den < 2 ^ (bitLength a.den + bitLength b.den) :=
    mul_lt_two_pow_add (lt_two_pow_bitLength _) (lt_two_pow_bitLength _)
  have hsize := size_le_of_fraction (Nat.mul_ne_zero a.den_nz b.den_nz) hr hnum hden
  unfold size at hsize ⊢
  omega

theorem size_inv {r : Rat} (h : r ≠ 0) : size r⁻¹ = size r := by
  have hnum : r.num ≠ 0 := Rat.num_ne_zero.mpr h
  unfold size
  rw [Rat.num_inv, Rat.den_inv, if_neg hnum, Int.natAbs_mul, Int.natAbs_sign_of_ne_zero hnum,
    Int.natAbs_natCast, Nat.one_mul, Nat.add_comm]

theorem size_div_le (a : Rat) {b : Rat} (h : b ≠ 0) : size (a / b) ≤ size a + size b := by
  rw [div_eq_mul_inv, ← size_inv h]
  exact size_mul_le a b⁻¹

theorem size_remainder_le (a : Rat) {b : Rat} (h : b ≠ 0) :
    size (remainder a b) ≤ 2 * (size a + size b) := by
  let m : Int := a.num * b.den - b.num * a.den * truncate (a / b)
  have hr : remainder a b * (a.den * b.den : Nat) = m := by
    unfold remainder
    simp only [m]
    push_cast
    linear_combination (b.den : Rat) * mul_den a - (a.den * truncate (a / b) : Rat) * mul_den b
  have hm : m.natAbs ≤ a.num.natAbs * b.den := by
    have habs : |(m : Rat)| ≤ |(a.num : Rat)| * b.den := by
      calc |(m : Rat)|
        _ = |remainder a b| * (a.den * b.den) := by
          rw [← hr, abs_mul, Nat.abs_cast]
          push_cast
          rfl
        _ ≤ |a| * (a.den * b.den) :=
          mul_le_mul_of_nonneg_right (abs_remainder_le a h) (by positivity)
        _ = |(a.num : Rat)| * b.den := by
          rw [← mul_den a, abs_mul, Nat.abs_cast]
          ring
    rw [← Int.cast_abs, ← Int.cast_abs, Int.abs_eq_natAbs, Int.abs_eq_natAbs] at habs
    exact_mod_cast habs
  refine size_le_of_common_den hr ?_
  have hcross := two_mul_cross_lt a b
  omega

theorem size_pow_le (r : Rat) (h : n ≠ 0) : size (r ^ n) ≤ size r * n := by
  have hpart (m : Nat) : bitLength (m ^ n) ≤ bitLength m * n := by
    rw [bitLength_le_iff, Nat.pow_mul]
    exact Nat.pow_lt_pow_left (lt_two_pow_bitLength m) h
  have hnum := hpart r.num.natAbs
  have hden := hpart r.den
  unfold size
  rw [Rat.num_pow, Rat.den_pow, Int.natAbs_pow, Nat.add_mul]
  omega

/-- The empty power is one, which takes two bits. -/
theorem size_pow_le_max (r : Rat) (n : Nat) : size (r ^ n) ≤ max 2 (size r * n) := by
  by_cases hzero : n = 0
  · rw [hzero, pow_zero]
    exact le_max_left 2 _
  · exact le_trans (size_pow_le r hzero) (le_max_right 2 _)

end Reckon.Rational
