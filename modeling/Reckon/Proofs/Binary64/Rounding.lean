import Mathlib

/-!
How a magnitude is rounded to binary64. Its digits are shifted down to the grid of its size, and two
digits behind those that stay tell the nearer neighbour on the grid. Rounding keeps the order of the
rationals, within a grid and from one to the next.
-/

namespace Reckon.Binary64

open Float.Model Float.Model.UnpackedFloat

variable {x y v w : Rat} {n k m shift : Nat} {q e : Int} {em : ExtendedMantissa}

/-- The whole number nearest to `x`, the even one of two. -/
structure Nearest (x : Rat) (n : Nat) : Prop where
  low : (n : Rat) - 1 / 2 ≤ x
  high : x ≤ (n : Rat) + 1 / 2
  even_of_low : (n : Rat) - 1 / 2 = x → n % 2 = 0
  even_of_high : x = (n : Rat) + 1 / 2 → n % 2 = 0

theorem nearest_natCast (n : Nat) : Nearest n n := by
  refine ⟨by linarith, by linarith, ?_, ?_⟩
  · intro htie
    linarith
  · intro htie
    linarith

/-- A number with a greater neighbour is greater. -/
theorem Nearest.mono (hx : Nearest x n) (hy : Nearest y k) (h : x ≤ y) : n ≤ k := by
  by_contra hless
  have hnext : (k : Rat) + 1 ≤ n := by exact_mod_cast Nat.not_le.mp hless
  have hlow := hx.low
  have hhigh := hy.high
  -- both neighbours are as far as can be, and two that follow each other are not both even
  have hn := hx.even_of_low (by linarith)
  have hk := hy.even_of_high (by linarith)
  have hsame : (n : Rat) = k + 1 := by linarith
  have hsucc : n = k + 1 := by exact_mod_cast hsame
  omega

/-- The nearest whole number to a fraction, told without division. -/
theorem nearest_div {a d : Nat} (hd : 0 < d) (hlow : 2 * (d * n) ≤ 2 * a + d)
    (hhigh : 2 * a ≤ 2 * (d * n) + d)
    (htie : 2 * (d * n) = 2 * a + d ∨ 2 * a = 2 * (d * n) + d → n % 2 = 0) :
    Nearest (a / d) n := by
  have hpos : (0 : Rat) < d := by exact_mod_cast hd
  have hlow' : 2 * ((d : Rat) * n) ≤ 2 * a + d := by exact_mod_cast hlow
  have hhigh' : 2 * (a : Rat) ≤ 2 * (d * n) + d := by exact_mod_cast hhigh
  refine ⟨?_, ?_, ?_, ?_⟩
  · rw [le_div_iff₀ hpos]
    linarith
  · rw [div_le_iff₀ hpos]
    linarith
  · intro hequal
    rw [eq_div_iff hpos.ne'] at hequal
    have hnat : 2 * ((d : Rat) * n) = 2 * a + d := by linarith
    exact htie (.inl (by exact_mod_cast hnat))
  · intro hequal
    rw [div_eq_iff hpos.ne'] at hequal
    have hnat : 2 * (a : Rat) = 2 * (d * n) + d := by linarith
    exact htie (.inr (by exact_mod_cast hnat))

/-- What is known of `m` after a shift: the digits that stay, whether those shifted out make a half, and
whether they are neither nothing nor exactly a half. -/
structure Shifted (m shift : Nat) (em : ExtendedMantissa) : Prop where
  mantissa : em.mantissa = m / 2 ^ shift
  round_iff : em.roundBit = true ↔ 2 ^ shift ≤ 2 * (m % 2 ^ shift)
  sticky_iff : em.stickyBit = true ↔ m % 2 ^ shift ≠ 0 ∧ 2 * (m % 2 ^ shift) ≠ 2 ^ shift

private theorem shifted_zero (m : Nat) : Shifted m 0 (.ofMantissaAndAccuracy m .exact) := by
  refine ⟨by simp [ExtendedMantissa.ofMantissaAndAccuracy], ?_, ?_⟩
  · simp [ExtendedMantissa.ofMantissaAndAccuracy, Nat.mod_one]
  · simp [ExtendedMantissa.ofMantissaAndAccuracy, Nat.mod_one]

theorem Shifted.shiftRightOne (h : Shifted m shift em) : Shifted m (shift + 1) em.shiftRightOne := by
  have hsplit : m % 2 ^ (shift + 1) = m % 2 ^ shift + 2 ^ shift * (m / 2 ^ shift % 2) :=
    Nat.mod_pow_succ
  have hrest : m % 2 ^ shift < 2 ^ shift := Nat.mod_lt _ (Nat.two_pow_pos shift)
  have hdouble : 2 ^ (shift + 1) = 2 * 2 ^ shift := by rw [pow_succ, Nat.mul_comm]
  have hround := h.round_iff
  have hsticky := h.sticky_iff
  refine ⟨?_, ?_, ?_⟩
  · simp only [ExtendedMantissa.shiftRightOne, h.mantissa, Nat.div_div_eq_div_mul, pow_succ]
  · simp only [ExtendedMantissa.shiftRightOne, h.mantissa, bne_iff_ne]
    rw [hsplit, hdouble]
    rcases Nat.mod_two_eq_zero_or_one (m / 2 ^ shift) with hdigit | hdigit
    · rw [hdigit]
      omega
    · rw [hdigit]
      omega
  · simp only [ExtendedMantissa.shiftRightOne, Bool.or_eq_true]
    rw [hround, hsticky, hsplit, hdouble]
    rcases Nat.mod_two_eq_zero_or_one (m / 2 ^ shift) with hdigit | hdigit
    · rw [hdigit]
      omega
    · rw [hdigit]
      omega

theorem shifted_shiftRight (m shift : Nat) :
    Shifted m shift (ExtendedMantissa.ofMantissaAndAccuracy m .exact >>> shift) := by
  change Shifted m shift (Nat.repeat ExtendedMantissa.shiftRightOne shift _)
  induction shift with
  | zero => exact shifted_zero m
  | succ shift ih => exact ih.shiftRightOne

/-- The digits that stay and the two facts on the others give the nearest whole number. -/
theorem Shifted.nearest (h : Shifted m shift em) :
    Nearest (m / (2 ^ shift : Nat)) em.roundedMantissa := by
  obtain ⟨whole, roundBit, stickyBit⟩ := em
  obtain ⟨hwhole, hround, hsticky⟩ := h
  simp only at hwhole hround hsticky
  have hpos : 0 < 2 ^ shift := Nat.two_pow_pos shift
  have hrest : m % 2 ^ shift < 2 ^ shift := Nat.mod_lt _ hpos
  have hsplit : 2 ^ shift * whole + m % 2 ^ shift = m := by
    rw [hwhole]
    exact Nat.div_add_mod m _
  have hnext : 2 ^ shift * (whole + 1) = 2 ^ shift * whole + 2 ^ shift := Nat.mul_succ _ _
  generalize m % 2 ^ shift = rest at *
  generalize 2 ^ shift = unit at *
  unfold ExtendedMantissa.roundedMantissa
  cases roundBit <;> cases stickyBit <;>
    simp only [ExtendedMantissa.accuracy, Accuracy.roundToNearestEven] <;>
    simp only [true_iff, Bool.false_eq_true, false_iff] at hround hsticky
  · exact nearest_div hpos (by omega) (by omega) (by omega)
  · exact nearest_div hpos (by omega) (by omega) (by omega)
  · rcases Nat.mod_two_eq_zero_or_one whole with heven | hodd
    · rw [heven, Nat.add_zero]
      exact nearest_div hpos (by omega) (by omega) fun _ => heven
    · rw [hodd]
      exact nearest_div hpos (by omega) (by omega) (by omega)
  · exact nearest_div hpos (by omega) (by omega) (by omega)

/-- The grid of the multiples of `2 ^ q` is the one on which a magnitude is rounded: it has fifty-three
digits there, or it is the finest of all. -/
structure OnGrid (q : Int) (x : Rat) : Prop where
  nonneg : 0 ≤ x
  least : -1074 ≤ q
  below : x < 2 ^ (q + 53)
  fills : q = -1074 ∨ 2 ^ (q + 52) ≤ x

/-- The magnitude `x` is rounded to `v`. -/
def RoundsTo (x v : Rat) : Prop :=
  ∃ (q : Int) (n : Nat), OnGrid q x ∧ Nearest (x / 2 ^ q) n ∧ v = n * 2 ^ q

private theorem div_zpow_lt_iff (x : Rat) (q i : Int) : x / 2 ^ q < 2 ^ i ↔ x < 2 ^ (q + i) := by
  rw [div_lt_iff₀ (zpow_pos (by norm_num) q), zpow_add₀ (by norm_num), mul_comm]

private theorem le_div_zpow_iff (x : Rat) (q i : Int) : 2 ^ i ≤ x / 2 ^ q ↔ 2 ^ (q + i) ≤ x := by
  rw [le_div_iff₀ (zpow_pos (by norm_num) q), zpow_add₀ (by norm_num), mul_comm]

/-- On its grid a magnitude is rounded to fifty-three digits, or up to the first number with one more. -/
theorem OnGrid.nearest_le (h : OnGrid q x) (hn : Nearest (x / 2 ^ q) n) : n ≤ 2 ^ 53 := by
  refine hn.mono (nearest_natCast (2 ^ 53)) (le_of_lt ?_)
  have hbelow := (div_zpow_lt_iff x q 53).mpr h.below
  exact_mod_cast hbelow

/-- A coarser grid than the finest is used only where its digits are needed. -/
theorem OnGrid.le_nearest (h : OnGrid q x) (hn : Nearest (x / 2 ^ q) n) :
    q = -1074 ∨ 2 ^ 52 ≤ n := by
  refine h.fills.imp_right fun hfills => ?_
  refine (nearest_natCast (2 ^ 52)).mono hn ?_
  have hfills' := (le_div_zpow_iff x q 52).mpr hfills
  exact_mod_cast hfills'

theorem OnGrid.mono {p : Int} (hx : OnGrid q x) (hy : OnGrid p y) (h : x ≤ y) : q ≤ p := by
  rcases hx.fills with hfinest | hfills
  · rw [hfinest]
    exact hy.least
  · have hpowers : (2 : Rat) ^ (q + 52) < 2 ^ (p + 53) := lt_of_le_of_lt (hfills.trans h) hy.below
    have hexponents := (zpow_lt_zpow_iff_right₀ (by norm_num)).mp hpowers
    omega

/-- Rounding keeps the order. On one grid that is the order of the nearest neighbours; from one grid to
a coarser one the first number of the coarser lies between. -/
theorem RoundsTo.mono (hx : RoundsTo x v) (hy : RoundsTo y w) (h : x ≤ y) : v ≤ w := by
  obtain ⟨q, n, hq, hn, rfl⟩ := hx
  obtain ⟨p, k, hp, hk, rfl⟩ := hy
  rcases (hq.mono hp h).lt_or_eq with hfiner | rfl
  · have hcoarser : 2 ^ 52 ≤ k := by
      refine (hp.le_nearest hk).resolve_left ?_
      have hleast := hq.least
      omega
    calc (n : Rat) * 2 ^ q
      _ ≤ 2 ^ (53 : Int) * 2 ^ q := by
        gcongr
        exact_mod_cast hq.nearest_le hn
      _ = 2 ^ (q + 53) := by rw [← zpow_add₀ (by norm_num), add_comm]
      _ ≤ 2 ^ (p + 52) := zpow_le_zpow_right₀ (by norm_num) (by omega)
      _ = 2 ^ (52 : Int) * 2 ^ p := by rw [← zpow_add₀ (by norm_num), add_comm]
      _ ≤ k * 2 ^ p := by
        gcongr
        exact_mod_cast hcoarser
  · have hnk : n ≤ k := hn.mono hk (by gcongr)
    gcongr

theorem RoundsTo.nonneg_of (h : RoundsTo x v) : 0 ≤ x := by
  obtain ⟨q, n, hq, -⟩ := h
  exact hq.nonneg

theorem RoundsTo.nonneg (h : RoundsTo x v) : 0 ≤ v := by
  obtain ⟨q, n, -, -, rfl⟩ := h
  positivity

theorem roundsTo_zero : RoundsTo 0 0 := by
  refine ⟨-1074, 0, ⟨le_rfl, le_rfl, by positivity, .inl rfl⟩, ?_, by simp⟩
  rw [zero_div]
  exact_mod_cast nearest_natCast 0

theorem RoundsTo.eq_zero (h : RoundsTo 0 v) : v = 0 :=
  le_antisymm (h.mono roundsTo_zero le_rfl) h.nonneg

/-- The exponent of the grid on which the magnitude `m * 2 ^ e` is rounded. -/
def gridOf (m : Nat) (e : Int) : Int := max (m.log2 + e - 52) (-1074)

theorem onGrid_gridOf (hm : m ≠ 0) (e : Int) : OnGrid (gridOf m e) (m * 2 ^ e) := by
  have hlow : (2 : Rat) ^ (m.log2 + e) ≤ m * 2 ^ e := by
    rw [zpow_add₀ (by norm_num), zpow_natCast]
    gcongr
    exact_mod_cast Nat.log2_self_le hm
  have hhigh : (m : Rat) * 2 ^ e < 2 ^ (m.log2 + 1 + e) := by
    rw [zpow_add₀ (by norm_num)]
    gcongr
    exact_mod_cast Nat.lt_log2_self (n := m)
  refine ⟨by positivity, le_max_right _ _, hhigh.trans_le ?_, ?_⟩
  · apply zpow_le_zpow_right₀ (by norm_num)
    unfold gridOf
    omega
  · by_cases hfinest : gridOf m e = -1074
    · exact .inl hfinest
    · have hexponent : gridOf m e + 52 = m.log2 + e := by
        unfold gridOf at *
        omega
      rw [hexponent]
      exact .inr hlow

theorem targetExponent_eq (m : Nat) (e : Int) :
    Format.binary64.targetExponent (totalExponent m e) = gridOf m e := by
  have hbits : (Format.binary64.mantissaBits : Int) = 53 := by decide
  have hleast : Format.binary64.minExponent = -1074 := by decide
  unfold Format.targetExponent totalExponent gridOf
  rw [hbits, hleast]
  omega

/-- Digits below the grid are shifted out. -/
theorem shiftToTargetExponent_of_le (h : e ≤ gridOf m e) :
    shiftToTargetExponent .binary64 m e .exact =
      (ExtendedMantissa.ofMantissaAndAccuracy m .exact >>> (gridOf m e - e).toNat, gridOf m e) := by
  unfold shiftToTargetExponent shiftToExponent
  simp only [targetExponent_eq, Prod.mk.injEq, true_and]
  omega

/-- On the grid or above it nothing is shifted. -/
theorem shiftToTargetExponent_of_ge (h : gridOf m e ≤ e) :
    shiftToTargetExponent .binary64 m e .exact = (.ofMantissaAndAccuracy m .exact, e) := by
  have hnone : (gridOf m e - e).toNat = 0 := by omega
  unfold shiftToTargetExponent shiftToExponent
  simp only [targetExponent_eq, hnone]
  simp only [Nat.cast_zero, add_zero]
  rfl

end Reckon.Binary64
