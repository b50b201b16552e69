import Reckon.Proofs.Decimal.Reading

/-!
The scale of a whole number of units. Up to `maxPlaces` a text shows every unit, and no two numbers of
units share one. A request for more places is cut, and the number is not: its units are then taken for
larger ones than they are, so that the text denotes too large a number, unless that is zero.
-/

namespace Reckon.Decimal

open Rational

variable {m n : Int} {digits : Nat}

/-- More places than `maxPlaces` are as good as that many, for the size of a unit too. -/
theorem scaled_min (n : Int) (digits : Nat) : scaled n (min digits maxPlaces) = scaled n digits := by
  unfold scaled
  simp only [Nat.min_assoc, Nat.min_self]

private theorem text_figures_min (n : Int) (digits : Nat) :
    (figures n (min digits maxPlaces)).text = scaled n digits := by
  rw [text_figures n (Nat.min_le_right _ _), scaled_min]

theorem figures_injective {places : Nat} (h : figures m places = figures n places) : m = n := by
  have hvalue := congrArg Figures.value h
  rw [value_figures, value_figures, div_left_inj' (by positivity)] at hvalue
  exact_mod_cast hvalue

/-- What figures of `n` units are to say when `10 ^ digits` units make one: the number, cut off toward
zero behind as many places as may be written. -/
structure Figures.AtScale (n : Int) (digits : Nat) (f : Figures) : Prop where
  length_places : f.places.length = min digits maxPlaces
  value_eq : f.value =
    towardZero ((n / 10 ^ digits : Rat) * 10 ^ min digits maxPlaces) / 10 ^ min digits maxPlaces
  negative_of : f.negative = true → n < 0

/-- The units that are left when the places to be written are fewer than announced. -/
theorem towardZero_units (n : Int) (digits : Nat) :
    towardZero ((n / 10 ^ digits : Rat) * 10 ^ min digits maxPlaces) =
      n.tdiv (10 ^ (digits - maxPlaces) : Nat) := by
  have hsplit : digits - maxPlaces + min digits maxPlaces = digits := by omega
  have hquotient : (n / 10 ^ digits : Rat) * 10 ^ min digits maxPlaces =
      n / (10 ^ (digits - maxPlaces) : Nat) := by
    have hpower : (10 : Rat) ^ digits =
        10 ^ (digits - maxPlaces) * 10 ^ min digits maxPlaces := by rw [← pow_add, hsplit]
    rw [hpower]
    push_cast
    field_simp
  rw [hquotient, ← truncate_eq_towardZero, truncate_div]

/-- A division by ten or more changes every number but zero. -/
theorem tdiv_pow_eq_self_iff (n : Int) (count : Nat) :
    n.tdiv (10 ^ count : Nat) = n ↔ count = 0 ∨ n = 0 := by
  constructor
  · intro h
    by_contra hcontra
    push Not at hcontra
    have hlarge : 1 < 10 ^ count := Nat.one_lt_pow hcontra.1 (by decide)
    have habs : n.natAbs / 10 ^ count = n.natAbs := by
      have hnatAbs := congrArg Int.natAbs h
      rw [Int.natAbs_tdiv] at hnatAbs
      exact hnatAbs
    exact absurd habs (Nat.div_lt_self (Int.natAbs_pos.mpr hcontra.2) hlarge).ne
  · rintro (rfl | rfl)
    · simp
    · exact Int.zero_tdiv _

/-- The figures that are written say what they are to say as long as no place is cut, and otherwise of
zero only. -/
theorem atScale_figures_iff (n : Int) (digits : Nat) :
    (figures n (min digits maxPlaces)).AtScale n digits ↔ digits ≤ maxPlaces ∨ n = 0 := by
  have hvalue := value_figures n (min digits maxPlaces)
  have hunits : (figures n (min digits maxPlaces)).AtScale n digits ↔
      n.tdiv (10 ^ (digits - maxPlaces) : Nat) = n := by
    constructor
    · intro h
      have hsame := hvalue.symm.trans h.value_eq
      rw [towardZero_units, div_left_inj' (by positivity)] at hsame
      exact_mod_cast hsame.symm
    · intro h
      refine ⟨length_places_figures _ _, ?_, of_decide_eq_true⟩
      rw [hvalue, towardZero_units, h]
  rw [hunits, tdiv_pow_eq_self_iff, Nat.sub_eq_zero_iff_le]

/-- A number of units is one text in figures, with as many places as may be written and a minus sign
only if it is negative; they denote the number at the scale of these places, which is the one announced
unless places are cut, and no other number has them. -/
theorem scaled_denotes (n : Int) (digits : Nat) :
    ∃ f : Figures, (∀ g : Figures, scaled n digits = g.text ↔ g = f) ∧
      f.places.length = min digits maxPlaces ∧ f.value = n / 10 ^ min digits maxPlaces ∧
      (f.negative = true ↔ n < 0) ∧ (f.AtScale n digits ↔ digits ≤ maxPlaces ∨ n = 0) ∧
      ∀ m : Int, scaled m digits = scaled n digits → m = n := by
  have htext := text_figures_min n digits
  refine ⟨figures n (min digits maxPlaces), ?_, length_places_figures _ _, value_figures _ _,
    decide_eq_true_iff, atScale_figures_iff n digits, ?_⟩
  · intro g
    constructor
    · intro hg
      exact Figures.text_injective (hg.symm.trans htext.symm)
    · rintro rfl
      exact htext.symm
  · intro m hm
    rw [← text_figures_min, ← text_figures_min] at hm
    exact figures_injective (Figures.text_injective hm)

/-- One unit of which `10 ^ 10001` make one is written as ten of them. -/
theorem scaled_enlarges_unit :
    ¬∃ f : Figures, scaled 1 10001 = f.text ∧ f.AtScale 1 10001 := by
  rintro ⟨f, htext, hscale⟩
  rw [← text_figures_min] at htext
  rw [← Figures.text_injective htext, atScale_figures_iff] at hscale
  revert hscale
  decide

end Reckon.Decimal
