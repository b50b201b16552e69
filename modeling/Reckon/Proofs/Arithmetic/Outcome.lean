import Reckon.Proofs.Arithmetic.Division
import Reckon.Proofs.Arithmetic.Exactness

/-!
How an operator on exact numbers ends, told from its operands alone. All operators but the power look at
the sizes first, and those that divide look at the divisor next; what passes has a value. A power of zero
with a negative exponent is refused on every path. Any other is there if it is exact, and else if that of
the nearest floats is finite.
-/

namespace Reckon.Op

open Rational Binary64

variable {limits : Limits} {op : Op} {a b : Rat}

/-- The operators that divide by their right operand. -/
def Divides (op : Op) : Prop := op = .div ∨ op = .rem

/-- How an operator ends that looks at the sizes of its operands and then, if it divides, at its divisor.
Operands that are too large are told as a result that is not finite, even with a zero divisor. -/
structure EndsByChecks (limits : Limits) (op : Op) (a b : Rat) : Prop where
  notFinite : (∃ error, op.apply limits a b = .error error ∧ error.NotFinite) ↔
    2 * limits.maxBits < size a + size b
  divisionByZero : op.apply limits a b = .error .divisionByZero ↔
    size a + size b ≤ 2 * limits.maxBits ∧ op.Divides ∧ b = 0
  value : (∃ v, op.apply limits a b = .ok v) ↔
    size a + size b ≤ 2 * limits.maxBits ∧ ¬(op.Divides ∧ b = 0)

/-- How a power ends that is no division by zero: with a value if it is exact, and else with one if that of
the nearest floats is finite. -/
structure EndsByPower (limits : Limits) (a b : Rat) : Prop where
  notFinite : (∃ error, apply limits .pow a b = .error error ∧ error.NotFinite) ↔
    ¬(a = 0 ∧ b < 0) ∧ ¬ExactPower limits a b ∧
      toRat? (Binary64.power (nearest a) (nearest b)) = none
  value : (∃ v, apply limits .pow a b = .ok v) ↔
    ¬(a = 0 ∧ b < 0) ∧
      (ExactPower limits a b ∨ toRat? (Binary64.power (nearest a) (nearest b)) ≠ none)

/-- The three ends of an operator exclude one another. So where each follows from a condition, and one of
the conditions always holds, each is told by its own. -/
theorem ends_iff {x : Except OperatorError Rat} {beyond zero : Prop}
    (hbeyond : beyond → ∃ error, x = .error error ∧ error.NotFinite)
    (hzero : zero → x = .error .divisionByZero) (hvalue : ¬beyond → ¬zero → ∃ v, x = .ok v) :
    ((∃ error, x = .error error ∧ error.NotFinite) ↔ beyond) ∧
      (x = .error .divisionByZero ↔ zero) ∧ ((∃ v, x = .ok v) ↔ ¬beyond ∧ ¬zero) := by
  by_cases hb : beyond
  · obtain ⟨error, hx, hnotFinite⟩ := hbeyond hb
    have hne : error ≠ .divisionByZero := by
      rintro rfl
      exact hnotFinite
    have hz : ¬zero := fun hz => hne (Except.error.inj (hx.symm.trans (hzero hz)))
    simp [hx, hz, hb, hne, hnotFinite]
  · by_cases hz : zero
    · have hx := hzero hz
      simp [hx, hz, hb, OperatorError.NotFinite]
    · obtain ⟨v, hx⟩ := hvalue hb hz
      simp [hx, hz, hb]

private theorem apply_of_large (hlimits : limits.maxBits < 2 ^ 63) (hop : op ≠ .pow)
    (hlarge : 2 * limits.maxBits < size a + size b) :
    ∃ error, op.apply limits a b = .error error ∧ error.NotFinite := by
  have hsaturated : Word.saturate (2 * limits.maxBits) < Word.saturate (size a + size b) := by
    unfold Word.saturate Word.maxUnsigned
    omega
  have hcheck : (checkSize limits op a b).result = .error _ :=
    checkSize_eq_error_iff.mpr ⟨hsaturated, rfl⟩
  exact ⟨_, apply_of_checkSize_error hop hcheck, notFinite_of_checkSize hcheck⟩

private theorem apply_of_zero_divisor (hfits : size a + size b ≤ 2 * limits.maxBits)
    (hop : op.Divides)
    (hb : b = 0) : op.apply limits a b = .error .divisionByZero := by
  subst hb
  rcases hop with rfl | rfl
  all_goals
    rw [apply_eq]
    simp only [checkSize_of_le hfits]
    rfl

private theorem exists_apply_of_fits (hop : op ≠ .pow)
    (hfits : size a + size b ≤ 2 * limits.maxBits)
    (hdivisor : op.Divides → b ≠ 0) : ∃ v, op.apply limits a b = .ok v := by
  cases op with
  | add | sub | mul =>
    rw [apply_eq]
    simp only [checkSize_of_le hfits]
    exact ⟨_, rfl⟩
  | div => exact ⟨_, apply_div_of_le (hdivisor (.inl rfl)) hfits⟩
  | rem =>
    rw [apply_eq]
    simp only [checkSize_of_le hfits, checkDivisor_of_ne_zero (hdivisor (.inr rfl))]
    exact ⟨_, rfl⟩
  | pow => exact absurd rfl hop

theorem endsByChecks (hlimits : limits.maxBits < 2 ^ 63) (hop : op ≠ .pow) (a b : Rat) :
    EndsByChecks limits op a b := by
  have hzero (hzero : size a + size b ≤ 2 * limits.maxBits ∧ op.Divides ∧ b = 0) :
      op.apply limits a b = .error .divisionByZero :=
    apply_of_zero_divisor hzero.1 hzero.2.1 hzero.2.2
  have hvalue (hsmall : ¬2 * limits.maxBits < size a + size b)
      (hdivisor : ¬(size a + size b ≤ 2 * limits.maxBits ∧ op.Divides ∧ b = 0)) :
      ∃ v, op.apply limits a b = .ok v := by
    have hfits := Nat.not_lt.mp hsmall
    exact exists_apply_of_fits hop hfits fun hdivides hb => hdivisor ⟨hfits, hdivides, hb⟩
  obtain ⟨hnotFinite, hdivision, hok⟩ := ends_iff (apply_of_large hlimits hop) hzero hvalue
  refine ⟨hnotFinite, hdivision, hok.trans ?_⟩
  rw [Nat.not_lt, and_congr_right_iff]
  intro hfits
  simp [hfits]

theorem exactPower_iff (hlimits : limits.maxBits < 2 ^ 63) :
    ExactPower limits a b ↔ exactExponent? limits a b ≠ none := by
  rw [Option.ne_none_iff_exists']
  constructor
  · rintro ⟨n, rfl, hsigned, hbits⟩
    exact ⟨n, exactExponent?_of_exactPower hsigned hbits⟩
  · rintro ⟨n, hexact⟩
    exact ⟨n, exactExponent?_eq_some hlimits hexact⟩

/-- A power that is left to the floats, and of which they make no finite number. -/
def BeyondFloats (limits : Limits) (a b : Rat) (pow : Float → Float → Float) : Prop :=
  ¬(a = 0 ∧ b < 0) ∧ exactExponent? limits a b = none ∧
    toRat? (Binary64.power (nearest a) (nearest b) pow) = none

/-- A zero base is looked for on both ways to a power, so that this holds of every kind of exponent and
under any limits. -/
theorem raise_ends (limits : Limits) (a b : Rat) (pow : Float → Float → Float) :
    ((∃ error, raise limits a b pow = .error error ∧ error.NotFinite) ↔
        BeyondFloats limits a b pow) ∧
      (raise limits a b pow = .error .divisionByZero ↔ a = 0 ∧ b < 0) ∧
      ((∃ v, raise limits a b pow = .ok v) ↔
        ¬BeyondFloats limits a b pow ∧ ¬(a = 0 ∧ b < 0)) := by
  apply ends_iff
  · rintro ⟨hdefined, hnearby, hfloat⟩
    refine ⟨.nonFiniteResult, ?_, trivial⟩
    rw [raise_eq, if_neg hdefined, hnearby]
    simp only [nearbyPower, hfloat]
  · intro hzero
    rw [raise_eq, if_pos hzero]
  · intro hwithin hdefined
    rw [raise_eq, if_neg hdefined]
    cases hexact : exactExponent? limits a b with
    | some n => exact ⟨power a n, rfl⟩
    | none =>
      have hfloat : toRat? (Binary64.power (nearest a) (nearest b) pow) ≠ none :=
        fun hnone => hwithin ⟨hdefined, hexact, hnone⟩
      obtain ⟨v, hv⟩ := Option.ne_none_iff_exists'.mp hfloat
      exact ⟨v, by simp only [nearbyPower, hv]⟩

theorem endsByPower (hlimits : limits.maxBits < 2 ^ 63) (a b : Rat) : EndsByPower limits a b := by
  obtain ⟨hnotFinite, -, hvalue⟩ := raise_ends limits a b Float.pow
  refine ⟨?_, ?_⟩
  · rw [exactPower_iff hlimits, not_not]
    exact hnotFinite
  · rw [exactPower_iff hlimits]
    refine hvalue.trans ?_
    unfold BeyondFloats
    tauto

/-- How an operator ends can be foreseen. A power is refused as a division by zero exactly if it is one of
zero with a negative exponent, whatever the kind of the exponent and the limits are. No operator comes to a
division by zero itself. And with limits that two operands together cannot overrun, each end of each
operator is told by a condition on its operands. -/
theorem apply_ends_as_foreseen (limits : Limits) (a b : Rat) :
    (apply limits .pow a b = .error .divisionByZero ↔ a = 0 ∧ b < 0) ∧
    (∀ op : Op, (op.applyOrStop limits a b).run = some (op.apply limits a b)) ∧
    (limits.maxBits < 2 ^ 63 →
      (∀ op : Op, op ≠ .pow → EndsByChecks limits op a b) ∧ EndsByPower limits a b) := by
  refine ⟨(raise_ends limits a b Float.pow).2.1, fun op => applyOrStop_run limits op a b, ?_⟩
  intro hlimits
  exact ⟨fun op hop => endsByChecks hlimits hop a b, endsByPower hlimits a b⟩

/-- Under limits of 64 bits a quotient by zero is refused for the size of its dividend first, and for its
divisor only where that is small. Zero has no power of `-1/2`, and `-4` none of `1/2`. -/
theorem apply_ends_as_foreseen_overlaps :
    (Limits.mk 4096 64).maxBits < 2 ^ 63 ∧
      (∃ error, apply ⟨4096, 64⟩ .div (2 ^ 200) 0 = .error error ∧ error.NotFinite) ∧
      apply ⟨4096, 64⟩ .div 1 0 = .error .divisionByZero ∧
      (∃ v, apply ⟨4096, 64⟩ .rem 7 2 = .ok v) ∧
      apply ⟨4096, 64⟩ .pow 0 (-1 / 2) = .error .divisionByZero ∧
      (∃ error, apply ⟨4096, 64⟩ .pow (-4) (1 / 2) = .error error ∧ error.NotFinite) := by
  have hlimits : (Limits.mk 4096 64).maxBits < 2 ^ 63 := by decide
  have hchecks (op : Op) (hop : op ≠ .pow) (a b : Rat) : EndsByChecks ⟨4096, 64⟩ op a b :=
    ((apply_ends_as_foreseen ⟨4096, 64⟩ a b).2.2 hlimits).1 op hop
  have hpower := (apply_ends_as_foreseen ⟨4096, 64⟩ (-4) (1 / 2)).2.2 hlimits
  have hwhole : ¬ExactPower ⟨4096, 64⟩ (-4) (1 / 2) := by
    rw [exactPower_iff hlimits, not_not]
    decide +kernel
  refine ⟨hlimits, ?_, ?_, ?_, ?_, ?_⟩
  · exact (hchecks .div nofun (2 ^ 200) 0).notFinite.mpr (by decide +kernel)
  · exact (hchecks .div nofun 1 0).divisionByZero.mpr ⟨by decide +kernel, .inl rfl, rfl⟩
  · refine (hchecks .rem nofun 7 2).value.mpr ⟨by decide +kernel, fun hzero => ?_⟩
    exact absurd hzero.2 (by norm_num)
  · exact (apply_ends_as_foreseen ⟨4096, 64⟩ 0 (-1 / 2)).1.mpr ⟨rfl, by norm_num⟩
  · exact hpower.2.notFinite.mpr ⟨fun hzero => absurd hzero.1 (by norm_num), hwhole,
      by decide +kernel⟩

end Reckon.Op
