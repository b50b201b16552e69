import Mathlib.Tactic
import Reckon.Rational.Basic

/-!
The whole part of a number toward zero and the remainder that belongs to it. A division of the
numerator by the denominator finds it; in terms of the order of the rationals it is the floor of what
is not negative and the ceiling of the rest, and from that the remainder has its sign and its bound.
-/

namespace Reckon.Rational

variable {r : Rat}

/-- The last whole number on the way from zero to `r`. -/
def towardZero (r : Rat) : Int := if 0 ≤ r then ⌊r⌋ else ⌈r⌉

theorem truncate_of_nonneg (h : 0 ≤ r) : truncate r = ⌊r⌋ := by
  unfold truncate
  rw [Int.tdiv_eq_ediv_of_nonneg (Rat.num_nonneg.mpr h), Rat.floor_def']

theorem truncate_neg (r : Rat) : truncate (-r) = -truncate r := by
  unfold truncate
  rw [Rat.num_neg_eq_neg_num, Rat.den_neg_eq_den, Int.neg_tdiv]

theorem truncate_eq_towardZero (r : Rat) : truncate r = towardZero r := by
  unfold towardZero
  split
  case isTrue h => exact truncate_of_nonneg h
  case isFalse h =>
    have hneg : 0 ≤ -r := by linarith
    rw [← neg_neg r, truncate_neg, truncate_of_nonneg hneg, ← Int.ceil_neg]

/-- A division of whole numbers toward zero cuts the fraction of the quotient off, in lowest terms or not. -/
theorem truncate_div (a : Int) (b : Nat) : truncate (a / b : Rat) = a.tdiv b := by
  rcases Int.le_total 0 a with ha | ha
  · have hquotient : (0 : Rat) ≤ a / b := by positivity
    rw [truncate_of_nonneg hquotient, Rat.floor_intCast_div_natCast, Int.tdiv_eq_ediv_of_nonneg ha]
  · have hquotient : (0 : Rat) ≤ (-a : Int) / b := by
      have hopposite : (0 : Rat) ≤ (-a : Int) := by exact_mod_cast Int.neg_nonneg_of_nonpos ha
      positivity
    have hback : (a / b : Rat) = -((-a : Int) / b) := by
      push_cast
      ring
    rw [hback, truncate_neg, truncate_of_nonneg hquotient, Rat.floor_intCast_div_natCast,
      ← Int.tdiv_eq_ediv_of_nonneg (Int.neg_nonneg_of_nonpos ha), Int.neg_tdiv, neg_neg]

/-- A quotient by a whole number, cut off, is that of the number already cut off. -/
theorem truncate_div_natCast (r : Rat) (b : Nat) : truncate (r / b) = (truncate r).tdiv b := by
  have hnonneg {s : Rat} (hs : 0 ≤ s) : truncate (s / b) = (truncate s).tdiv b := by
    rw [truncate_of_nonneg hs, truncate_of_nonneg (by positivity), Int.floor_div_natCast,
      Int.tdiv_eq_ediv_of_nonneg (Int.floor_nonneg.mpr hs)]
  rcases le_total 0 r with hr | hr
  · exact hnonneg hr
  · have hback := hnonneg (neg_nonneg.mpr hr)
    rw [neg_div, truncate_neg, truncate_neg, Int.neg_tdiv] at hback
    exact Int.neg_inj.mp hback

theorem truncate_mono {s : Rat} (h : r ≤ s) : truncate r ≤ truncate s := by
  rw [truncate_eq_towardZero, truncate_eq_towardZero]
  unfold towardZero
  split
  case isTrue hr =>
    rw [if_pos (hr.trans h)]
    exact Int.floor_le_floor h
  case isFalse hr =>
    split
    case isTrue hs =>
      have hceil : ⌈r⌉ ≤ 0 := Int.ceil_le.mpr (by exact_mod_cast (not_le.mp hr).le)
      exact hceil.trans (Int.floor_nonneg.mpr hs)
    case isFalse => exact Int.ceil_le_ceil h

/-- What is left of `r` lies between zero and `r`, and is less than one. -/
theorem fraction_bounds (r : Rat) :
    0 ≤ r * (r - towardZero r) ∧ |r - towardZero r| < 1 := by
  unfold towardZero
  split
  case isTrue h =>
    have hlow := Int.floor_le r
    have hhigh := Int.lt_floor_add_one r
    refine ⟨mul_nonneg h (by linarith), ?_⟩
    rw [abs_lt]
    constructor <;> linarith
  case isFalse h =>
    have hhigh := Int.le_ceil r
    have hlow := Int.ceil_lt_add_one r
    refine ⟨mul_nonneg_of_nonpos_of_nonpos (by linarith) (by linarith), ?_⟩
    rw [abs_lt]
    constructor <;> linarith

private theorem abs_fraction_le (r : Rat) : |r - towardZero r| ≤ |r| := by
  unfold towardZero
  split
  case isTrue h =>
    have hfloor : (0 : Rat) ≤ ⌊r⌋ := by exact_mod_cast Int.floor_nonneg.mpr h
    have hlow := Int.floor_le r
    rw [abs_of_nonneg h, abs_of_nonneg (by linarith)]
    linarith
  case isFalse h =>
    have hceil : (⌈r⌉ : Rat) ≤ 0 := by exact_mod_cast Int.ceil_le.mpr (by push_cast; linarith)
    have hhigh := Int.le_ceil r
    rw [abs_of_nonpos (by linarith), abs_of_nonpos (by linarith)]
    linarith

theorem abs_towardZero_le (r : Rat) : |(towardZero r : Rat)| ≤ |r| := by
  unfold towardZero
  split
  case isTrue h =>
    have hfloor : (0 : Rat) ≤ ⌊r⌋ := by exact_mod_cast Int.floor_nonneg.mpr h
    rw [abs_of_nonneg h, abs_of_nonneg hfloor]
    exact Int.floor_le r
  case isFalse h =>
    have hceil : (⌈r⌉ : Rat) ≤ 0 := by exact_mod_cast Int.ceil_le.mpr (by push_cast; linarith)
    rw [abs_of_nonpos hceil, abs_of_neg (not_le.mp h)]
    exact neg_le_neg (Int.le_ceil r)

/-- A number with a negative whole part is negative, and a negative one has such a part or none. -/
theorem truncate_neg_iff : truncate r < 0 ↔ r < 0 ∧ truncate r ≠ 0 := by
  rw [truncate_eq_towardZero]
  unfold towardZero
  split
  case isTrue h =>
    have hfloor := Int.floor_nonneg.mpr h
    constructor
    · intro hneg
      omega
    · intro hneg
      exact absurd hneg.1 (not_lt.mpr h)
  case isFalse h =>
    have hceil : ⌈r⌉ ≤ 0 := Int.ceil_le.mpr (by push_cast; linarith)
    constructor
    · intro hneg
      exact ⟨not_le.mp h, hneg.ne⟩
    · intro hneg
      exact lt_of_le_of_ne hceil hneg.2

/-- A remainder is what is left of the quotient, in units of the divisor. -/
theorem remainder_eq_mul (a : Rat) {b : Rat} (hb : b ≠ 0) :
    remainder a b = b * (a / b - towardZero (a / b)) := by
  unfold remainder
  rw [truncate_eq_towardZero]
  field_simp

/-- A remainder has the sign of the dividend, unless it is zero, and is smaller than the divisor. -/
theorem remainder_bounds (a : Rat) {b : Rat} (hb : b ≠ 0) :
    0 ≤ a * remainder a b ∧ |remainder a b| < |b| := by
  obtain ⟨hsign, hsmall⟩ := fraction_bounds (a / b)
  have hr := remainder_eq_mul a hb
  have ha : a = b * (a / b) := by field_simp
  constructor
  · calc 0
      _ ≤ b ^ 2 * (a / b * (a / b - towardZero (a / b))) := mul_nonneg (sq_nonneg b) hsign
      _ = b * (a / b) * (b * (a / b - towardZero (a / b))) := by ring
      _ = a * remainder a b := by rw [← ha, ← hr]
  · rw [hr, abs_mul]
    exact mul_lt_of_lt_one_right (abs_pos.mpr hb) hsmall

theorem abs_remainder_le (a : Rat) {b : Rat} (hb : b ≠ 0) : |remainder a b| ≤ |a| := by
  calc |remainder a b|
    _ = |b| * |a / b - towardZero (a / b)| := by rw [remainder_eq_mul a hb, abs_mul]
    _ ≤ |b| * |a / b| := mul_le_mul_of_nonneg_left (abs_fraction_le _) (abs_nonneg b)
    _ = |a| := by rw [← abs_mul, mul_div_cancel₀ a hb]

end Reckon.Rational
