import Mathlib.Tactic
import Reckon.Proofs.Decimal.Numeral
import Reckon.Proofs.Rational.Truncation

/-!
The shapes of an exact text. A number whose expansion ends early enough is written in units of some
place, the whole numbers among them without a point, and any other number as a fraction. Nothing is cut
off in the first case, since the printer is asked for as many places as there are.
-/

namespace Reckon.Decimal

open Rational

variable {places : Nat} {r : Rat}

/-- A reading cuts off what is less than a unit of the last place. -/
theorem reading_eq (r : Rat) (places : Nat) :
    reading r places =
      scaled (truncate (r * 10 ^ min places maxPlaces)) (min places maxPlaces) := by
  have hquotient : r * 10 ^ min places maxPlaces =
      (r.num * (10 ^ min places maxPlaces : Nat) : Int) / r.den := by
    nth_rewrite 1 [← Rat.num_div_den r]
    push_cast
    ring
  rw [hquotient, truncate_div]
  rfl

/-- A reading at a place where the expansion has ended cuts nothing off. -/
theorem reading_of_ends {m : Int} (hm : r * 10 ^ places = m) (h : places ≤ maxPlaces) :
    reading r places = scaled m places := by
  have hwhole : truncate (m : Rat) = m := by
    simpa using truncate_div m 1
  rw [reading_eq, Nat.min_eq_left h, hm, hwhole]

theorem exact_of_endsWithin (h : EndsWithin maxPlaces r) :
    ∃ (m : Int) (places : Nat), places ≤ maxPlaces ∧ r * 10 ^ places = m ∧
      exact r = scaled m places := by
  unfold exact
  split
  case isTrue hden =>
    have hnum : r * 10 ^ 0 = r.num := by
      rw [pow_zero, mul_one]
      exact (Rat.den_eq_one_iff r).mp hden |>.symm
    exact ⟨r.num, 0, Nat.zero_le _, hnum, (scaled_zero r.num).symm⟩
  case isFalse =>
    obtain ⟨first, hplaces, hfirst⟩ := places?_of_endsWithin h
    obtain ⟨m, hm⟩ := endsWithin_of_places? hplaces
    refine ⟨m, first, hfirst, hm, ?_⟩
    rw [hplaces]
    simp only [if_pos hfirst]
    exact reading_of_ends hm hfirst

theorem exact_of_not_endsWithin (h : ¬EndsWithin maxPlaces r) :
    exact r = toString r.num ++ "/" ++ toString r.den := by
  have hden : r.den ≠ 1 := by
    intro hone
    apply h
    rw [endsWithin_iff_den_dvd, hone]
    exact Nat.one_dvd _
  have hfraction : Rational.fraction r = toString r.num ++ "/" ++ toString r.den := by
    rw [Rational.fraction, if_neg hden]
  unfold exact
  rw [if_neg hden]
  cases hplaces : places? r with
  | none => exact hfraction
  | some places =>
    have hlong : ¬places ≤ maxPlaces := by
      intro hle
      exact h ((endsWithin_of_places? hplaces).mono hle)
    simp only [if_neg hlong]
    exact hfraction

/-- A number that has no sign and whose expansion ends early enough to be written. -/
def Plain (r : Rat) : Prop := 0 ≤ r ∧ EndsWithin maxPlaces r

/-- A plain number is written as one literal. -/
theorem numeral_exact (h : Plain r) : Token.Numeral (exact r).toList r := by
  obtain ⟨hr, hends⟩ := h
  obtain ⟨m, places, hplaces, hm, hexact⟩ := exact_of_endsWithin hends
  have hnonneg : 0 ≤ m := by
    have hscaled : (0 : Rat) ≤ m := by
      rw [← hm]
      positivity
    exact_mod_cast hscaled
  obtain ⟨n, rfl⟩ := Int.eq_ofNat_of_zero_le hnonneg
  have hvalue : (n : Rat) / 10 ^ places = r := by
    rw [div_eq_iff (by positivity), hm]
    rfl
  rw [hexact, ← hvalue]
  exact numeral_scaled n hplaces

end Reckon.Decimal
