import Mathlib.Tactic
import Reckon.Arithmetic.Exact
import Reckon.Proofs.Arithmetic.Growth
import Reckon.Proofs.Rational.Power
import Reckon.Proofs.Rational.Truncation

/-!
What the operators mean, apart from how they are computed. The meaning of an operator is a relation
between its operands and its value over the rationals. Where an operator has a value at all, and a
power is not left to the floats, the value is the one that is meant.
-/

namespace Reckon.Op

open Rational Run

variable {limits : Limits} {op : Op} {a b v w : Rat}

/-- What an operator yields over the rationals. A remainder belongs to the quotient cut off toward
zero; a power has a whole exponent, and only a base other than zero has negative ones. -/
def Yields : Op → Rat → Rat → Rat → Prop
  | add, a, b, v => v = a + b
  | sub, a, b, v => v = a - b
  | mul, a, b, v => v = a * b
  | div, a, b, v => b ≠ 0 ∧ v = a / b
  | rem, a, b, v => b ≠ 0 ∧ v = a - b * towardZero (a / b) ∧ 0 ≤ a * v ∧ |v| < |b|
  | pow, a, b, v => ∃ n : Int, b = n ∧ (a ≠ 0 ∨ 0 ≤ n) ∧ v = a ^ n

/-- A power that is not left to the floats: its exponent is a whole number of one signed word, and the
size foreseen for it keeps to the limits. -/
def ExactPower (limits : Limits) (a b : Rat) : Prop :=
  ∃ n : Int, b = n ∧ Word.Signed n ∧ size a * n.natAbs ≤ limits.maxBits

theorem Yields.unique (hv : op.Yields a b v) (hw : op.Yields a b w) : v = w := by
  cases op with
  | add => exact hv.trans hw.symm
  | sub => exact hv.trans hw.symm
  | mul => exact hv.trans hw.symm
  | div => exact hv.2.trans hw.2.symm
  | rem => exact hv.2.1.trans hw.2.1.symm
  | pow =>
    obtain ⟨n, hn, -, rfl⟩ := hv
    obtain ⟨m, hm, -, rfl⟩ := hw
    have hnm : n = m := by exact_mod_cast hn.symm.trans hm
    rw [hnm]

private theorem yields_remainder (a : Rat) (hb : b ≠ 0) : Yields .rem a b (remainder a b) := by
  refine ⟨hb, ?_, remainder_bounds a hb⟩
  unfold remainder
  rw [truncate_eq_towardZero]

theorem exactExponent?_of_exactPower {n : Int} (hsigned : Word.Signed n)
    (hbits : size a * n.natAbs ≤ limits.maxBits) : exactExponent? limits a n = some n := by
  have hsaturated : Word.saturate (size a * n.natAbs) ≤ limits.maxBits :=
    le_trans (Nat.min_le_left _ _) hbits
  exact exactExponent?_eq_some_iff.mpr ⟨rfl, hsigned, hsaturated⟩

private theorem yields_of_raise (hexact : ExactPower limits a b) (h : raise limits a b = .ok v) :
    Yields .pow a b v := by
  obtain ⟨n, rfl, hsigned, hbits⟩ := hexact
  rw [raise_eq, exactExponent?_of_exactPower hsigned hbits] at h
  split at h
  case isTrue => cases h
  case isFalse hzero =>
    cases h
    exact ⟨n, rfl, defined_iff.mp hzero, power_eq_zpow a n⟩

/-- A value that an operator gives is the one it yields over the rationals. -/
theorem yields_of_apply (h : op.apply limits a b = .ok v)
    (hpow : op = .pow → ExactPower limits a b) : op.Yields a b v := by
  rw [apply_eq] at h
  cases op with
  | add =>
    obtain ⟨_, -, hv⟩ := bind_eq_ok h
    exact (Except.ok.inj hv).symm
  | sub =>
    obtain ⟨_, -, hv⟩ := bind_eq_ok h
    exact (Except.ok.inj hv).symm
  | mul =>
    obtain ⟨_, -, hv⟩ := bind_eq_ok h
    exact (Except.ok.inj hv).symm
  | div =>
    obtain ⟨_, -, hrest⟩ := bind_eq_ok h
    obtain ⟨_, hdivisor, hv⟩ := bind_eq_ok hrest
    exact ⟨ne_zero_of_checkDivisor hdivisor, (Except.ok.inj hv).symm⟩
  | rem =>
    obtain ⟨_, -, hrest⟩ := bind_eq_ok h
    obtain ⟨_, hdivisor, hv⟩ := bind_eq_ok hrest
    cases hv
    exact yields_remainder a (ne_zero_of_checkDivisor hdivisor)
  | pow => exact yields_of_raise (hpow rfl) h

end Reckon.Op
