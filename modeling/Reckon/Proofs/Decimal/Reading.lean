import Reckon.Proofs.Decimal.Figures
import Reckon.Proofs.Decimal.Shape

/-!
A reading is the number cut off, and nothing else: it has as many places as were asked for, up to the
most there are, misses less than a unit of the last one, always toward zero, and shows a minus sign only
before figures that are not all zero.
-/

namespace Reckon.Decimal

open Rational

/-- The figures of `r`, cut off toward zero behind so many places. -/
structure Figures.CutOff (r : Rat) (places : Nat) (f : Figures) : Prop where
  length_places : f.places.length = places
  value_eq : f.value = towardZero (r * 10 ^ places) / 10 ^ places
  near : |r - f.value| < 1 / 10 ^ places
  abs_le : |f.value| ≤ |r|
  negative_iff : f.negative = true ↔ r < 0 ∧ f.value ≠ 0

theorem cutOff_figures (r : Rat) (places : Nat) :
    (figures (truncate (r * 10 ^ places)) places).CutOff r places := by
  have hpower : (0 : Rat) < 10 ^ places := by positivity
  have hvalue := value_figures (truncate (r * 10 ^ places)) places
  have hwhole := truncate_eq_towardZero (r * 10 ^ places)
  refine ⟨length_places_figures _ _, ?_, ?_, ?_, ?_⟩
  · rw [hvalue, hwhole]
  · have hmissing : r - towardZero (r * 10 ^ places) / 10 ^ places =
        (r * 10 ^ places - towardZero (r * 10 ^ places)) / 10 ^ places := by
      field_simp
    rw [hvalue, hwhole, hmissing, abs_div, abs_of_pos hpower]
    exact div_lt_div_of_pos_right (fraction_bounds _).2 hpower
  · rw [hvalue, hwhole, abs_div, abs_of_pos hpower, div_le_iff₀ hpower]
    calc |(towardZero (r * 10 ^ places) : Rat)|
      _ ≤ |r * 10 ^ places| := abs_towardZero_le _
      _ = |r| * 10 ^ places := by rw [abs_mul, abs_of_pos hpower]
  · have hnegative : (figures (truncate (r * 10 ^ places)) places).negative = true ↔
        truncate (r * 10 ^ places) < 0 := decide_eq_true_iff
    have hsign : r * 10 ^ places < 0 ↔ r < 0 := by
      rw [mul_neg_iff]
      simp [hpower, hpower.le]
    have hzero : (figures (truncate (r * 10 ^ places)) places).value ≠ 0 ↔
        truncate (r * 10 ^ places) ≠ 0 := by
      rw [hvalue, div_ne_zero_iff]
      simp [hpower.ne']
    rw [hnegative, truncate_neg_iff, hsign, hzero]

/-- A reading is one text in figures, and they are those of the number, cut off toward zero behind the
places asked for, of which there are at most `maxPlaces`. -/
theorem reading_truncates (r : Rat) (digits : Nat) :
    ∃ f : Figures, (∀ g : Figures, reading r digits = g.text ↔ g = f) ∧
      f.CutOff r (min digits maxPlaces) := by
  have hcut := cutOff_figures r (min digits maxPlaces)
  have htext := text_figures (truncate (r * 10 ^ min digits maxPlaces))
    (Nat.min_le_right digits maxPlaces)
  rw [← reading_eq] at htext
  refine ⟨_, ?_, hcut⟩
  intro g
  constructor
  · intro hg
    exact Figures.text_injective (hg.symm.trans htext.symm)
  · rintro rfl
    exact htext.symm

end Reckon.Decimal
