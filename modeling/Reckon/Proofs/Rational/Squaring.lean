import Reckon.Proofs.Arithmetic.Division
import Reckon.Proofs.Rational.Power

/-!
Repeated squaring never computes a number that its result does not need. The product and the square are
powers of the base throughout, and what they are powers of makes up the exponent together with the digits
that remain. The square could run ahead of the result by its last step; it does not, because it is not
taken when no digit remains.
-/

namespace Reckon.Rational

variable {base : Rat} {total : Nat} {s : PowerState}

namespace PowerState

/-- A power of `base` to `total` under way. Both numbers are powers of the base; the exponent of the
product, and that of the square as often as the digits left say, make up the whole. Unless nothing at all
is to be multiplied, the square does not go beyond the whole. -/
def UnderWay (base : Rat) (total : Nat) (s : PowerState) : Prop :=
  ∃ i j, s.product = base ^ i ∧ s.square = base ^ j ∧ i + j * s.exponent = total ∧ j ≤ max 1 total

/-- The two numbers are powers of the base that go no further than `total`. -/
def Within (base : Rat) (total : Nat) (s : PowerState) : Prop :=
  (∃ i ≤ total, s.product = base ^ i) ∧ ∃ j ≤ total, s.square = base ^ j

private theorem underWay_start (base : Rat) (total : Nat) :
    UnderWay base total (start base total) := by
  refine ⟨0, 1, (pow_zero base).symm, (pow_one base).symm, ?_, le_max_left 1 total⟩
  simp [start]

private theorem product_step {i j : Nat} (hproduct : s.product = base ^ i)
    (hsquare : s.square = base ^ j) :
    s.step.product = base ^ (i + j * (s.exponent % 2)) := by
  rcases Nat.mod_two_eq_zero_or_one s.exponent with hbit | hbit
  · simp [step, hbit, hproduct]
  · simp [step, hbit, hproduct, hsquare, pow_add]

/-- The exponent of the square is doubled for the digits that remain, and they hold it below the whole. -/
theorem UnderWay.step (h : UnderWay base total s) : UnderWay base total s.step := by
  obtain ⟨i, j, hproduct, hsquare, htotal, hbound⟩ := h
  have hdigits : i + j * (s.exponent % 2) + (j + j) * (s.exponent / 2) = total := by
    rw [← htotal]
    conv_rhs => rw [← Nat.div_add_mod s.exponent 2]
    ring
  by_cases hmore : 0 < s.exponent / 2
  · refine ⟨_, j + j, product_step hproduct hsquare, ?_, hdigits, ?_⟩
    · simp [PowerState.step, hmore, hsquare, pow_add]
    · -- the doubled exponent still counts at least once in the whole
      have hsquared : j + j ≤ (j + j) * (s.exponent / 2) := Nat.le_mul_of_pos_right _ hmore
      omega
  · have hlast : s.exponent / 2 = 0 := Nat.eq_zero_of_not_pos hmore
    refine ⟨_, j, product_step hproduct hsquare, ?_, ?_, hbound⟩
    · simp [PowerState.step, hlast, hsquare]
    · simpa [PowerState.step, hlast] using hdigits

theorem UnderWay.after (h : UnderWay base total s) (n : Nat) : UnderWay base total (s.after n) := by
  induction n with
  | zero => exact h
  | succ n ih => exact ih.step

theorem UnderWay.within (h : UnderWay base total s) (htotal : 0 < total) : s.Within base total := by
  obtain ⟨i, j, hproduct, hsquare, hsum, hbound⟩ := h
  exact ⟨⟨i, by omega, hproduct⟩, j, by omega, hsquare⟩

theorem UnderWay.size_le (h : UnderWay base total s) :
    size s.product ≤ max 2 (size base * total) ∧
      size s.square ≤ max 2 (max (size base) (size base * total)) := by
  obtain ⟨i, j, hproduct, hsquare, hsum, hbound⟩ := h
  have hi : size base * i ≤ size base * total := Nat.mul_le_mul_left _ (by omega)
  have hj : size base * j ≤ max (size base) (size base * total) := by
    have hleft := Nat.mul_le_mul_left (size base) hbound
    rwa [mul_max, Nat.mul_one] at hleft
  rw [hproduct, hsquare]
  exact ⟨le_trans (size_pow_le_max base i) (max_le_max_left 2 hi),
    le_trans (size_pow_le_max base j) (max_le_max_left 2 hj)⟩

/-- Digits remain exactly as long as `power` takes steps. -/
theorem exponent_after_pos_iff (base : Rat) (total k : Nat) :
    0 < ((start base total).after k).exponent ↔ k < bitLength total := by
  rw [exponent_after, Nat.div_pos_iff, ← Nat.not_le (a := bitLength total), bitLength_le_iff,
    Nat.not_lt]
  exact and_iff_right (Nat.two_pow_pos k)

private theorem total_pos_of_exponent_pos {k : Nat}
    (h : 0 < ((start base total).after k).exponent) :
    0 < total := by
  rw [exponent_after] at h
  exact lt_of_lt_of_le h (Nat.div_le_self total (2 ^ k))

end PowerState

/-- A power is computed exactly and without a detour. As long as digits of the exponent remain, which is as
long as steps are taken, the product and the square are powers of the base within the one that is asked
for. So where that is foreseen to keep to some number of bits, all of them do. -/
theorem power_stays_within (base : Rat) (exponent : Int) :
    power base exponent = base ^ exponent ∧
    (base ≠ 0 ∨ 0 ≤ exponent → powerOrStop base exponent = some (base ^ exponent)) ∧
    (∀ k, let s := (PowerState.start base exponent.natAbs).after k
      (0 < s.exponent ↔ k < bitLength exponent.natAbs) ∧
      (0 < s.exponent → s.Within base exponent.natAbs ∧ s.step.Within base exponent.natAbs)) ∧
    ∀ maxBits, size base * exponent.natAbs ≤ maxBits →
      ∀ k, let s := (PowerState.start base exponent.natAbs).after k
        size s.product ≤ max 2 (max (size base) maxBits) ∧
          size s.square ≤ max 2 (max (size base) maxBits) := by
  have hunderWay (k : Nat) := (PowerState.underWay_start base exponent.natAbs).after k
  refine ⟨power_eq_zpow base exponent, ?_, ?_, ?_⟩
  · intro hdefined
    rw [powerOrStop_of_defined hdefined, power_eq_zpow]
  · intro k
    refine ⟨PowerState.exponent_after_pos_iff base exponent.natAbs k, fun hmore => ?_⟩
    have hpos := PowerState.total_pos_of_exponent_pos hmore
    exact ⟨(hunderWay k).within hpos, (hunderWay k).step.within hpos⟩
  · intro maxBits hfits k
    obtain ⟨hproduct, hsquare⟩ := (hunderWay k).size_le
    refine ⟨hproduct.trans ?_, hsquare.trans ?_⟩
    · omega
    · omega

/-- The power `-5` of `-2/3` takes three steps, the last of which leaves the square at the fourth power. The
least exponent of one word is no exception. -/
theorem power_stays_within_fifth :
    ((-2 / 3 : Rat) ≠ 0 ∨ 0 ≤ (-5 : Int)) ∧ powerOrStop (-2 / 3) (-5) = some (-243 / 32) ∧
      0 < ((PowerState.start (-2 / 3) 5).after 2).exponent ∧
      ((PowerState.start (-2 / 3) 5).after 2).step.Within (-2 / 3) 5 ∧
      size (-2 / 3) * 5 ≤ 20 ∧ size ((PowerState.start (-2 / 3) 5).after 3).square ≤ 20 ∧
      powerOrStop (-1) Word.minSigned = some 1 := by
  have hdefined : (-2 / 3 : Rat) ≠ 0 ∨ 0 ≤ (-5 : Int) := .inl (by norm_num)
  have hvalue : (-2 / 3 : Rat) ^ (-5 : Int) = -243 / 32 := by norm_num
  have hmore : 0 < ((PowerState.start (-2 / 3) 5).after 2).exponent := by decide
  have hfits : size (-2 / 3) * 5 ≤ 20 := by decide +kernel
  have hleast : (-1 : Rat) ^ Word.minSigned = 1 := Even.neg_one_zpow ⟨Word.minSigned / 2, rfl⟩
  obtain ⟨-, hpower, hloop, hsize⟩ := power_stays_within (-2 / 3) (-5)
  obtain ⟨-, hleastPower, -, -⟩ := power_stays_within (-1) Word.minSigned
  rw [hvalue] at hpower
  rw [hleast] at hleastPower
  exact ⟨hdefined, hpower hdefined, hmore, ((hloop 2).2 hmore).2, hfits,
    (hsize 20 hfits 3).2.trans (by decide +kernel), hleastPower (.inl (by norm_num))⟩

end Reckon.Rational
