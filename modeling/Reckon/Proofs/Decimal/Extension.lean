import Reckon.Proofs.Decimal.Figures
import Reckon.Proofs.Decimal.Shape

/-!
A reading at more places goes on where the reading at fewer stops. Each reading comes from a division of
its own, but the number of units of one place is a tenth of that of the next, cut off, and so the two
agree in all figures that both have. A minus sign may appear late, with the first figure that is not
zero, and then it stays.
-/

namespace Reckon.Decimal

open Rational

variable {few many places width : Nat}

/-- A wider number has its last digit behind the others. -/
theorem filled_succ (hwidth : 0 < width) (n : Nat) :
    filled (width + 1) n = filled width (n / 10) ++ [Nat.digitChar (n % 10)] := by
  unfold filled List.leftpad
  rcases Nat.lt_or_ge n 10 with hdigit | hlong
  · -- the digit zero in front of a single one counts as filling
    obtain ⟨w, rfl⟩ := Nat.exists_eq_succ_of_ne_zero hwidth.ne'
    have hzeros : List.replicate (w + 1) '0' = List.replicate w '0' ++ ['0'] := List.replicate_succ'
    rw [Nat.toDigits_of_lt_base hdigit, Nat.div_eq_of_lt hdigit, Nat.mod_eq_of_lt hdigit,
      Nat.toDigits_of_lt_base (by decide)]
    simp [hzeros, Nat.digitChar]
  · rw [Nat.toDigits_of_base_le (by decide) hlong, List.length_append, List.length_singleton,
      Nat.add_sub_add_right, List.append_assoc]

namespace Figures

variable {f g h : Figures}

/-- The figures `g` go on where those of `f` stop. -/
structure ContinuedBy (f g : Figures) : Prop where
  whole_eq : f.whole = g.whole
  places_prefix : f.places <+: g.places
  negative_of : f.negative = true → g.negative = true

theorem ContinuedBy.refl (f : Figures) : f.ContinuedBy f := ⟨rfl, List.prefix_refl _, id⟩

theorem ContinuedBy.trans (hfg : f.ContinuedBy g) (hgh : g.ContinuedBy h) : f.ContinuedBy h :=
  ⟨hfg.whole_eq.trans hgh.whole_eq, hfg.places_prefix.trans hgh.places_prefix,
    hgh.negative_of ∘ hfg.negative_of⟩

theorem ContinuedBy.unsigned_prefix (h : f.ContinuedBy g) : f.unsigned <+: g.unsigned := by
  unfold unsigned fraction
  rw [h.whole_eq, List.prefix_append_right_inj]
  split
  case isTrue => exact List.nil_prefix
  case isFalse hsome =>
    have hlonger : g.places ≠ [] := by
      intro hnone
      exact hsome (List.prefix_nil.mp (hnone ▸ h.places_prefix))
    rw [if_neg hlonger]
    exact (List.prefix_cons_inj '.').mpr h.places_prefix

end Figures

private theorem places_figures (m : Int) (h : places ≠ 0) :
    (figures m places).places = filled places (m.natAbs % 10 ^ places) := if_neg h

/-- The figures of ten times finer units go on where those of the coarser ones stop. -/
theorem continued_figures_tdiv (m : Int) (places : Nat) :
    (figures (m.tdiv 10) places).ContinuedBy (figures m (places + 1)) := by
  have habs : (m.tdiv 10).natAbs = m.natAbs / 10 := Int.natAbs_tdiv m 10
  refine ⟨?_, ?_, ?_⟩
  · change Nat.toDigits 10 _ = Nat.toDigits 10 _
    rw [habs, Nat.div_div_eq_div_mul, pow_succ, Nat.mul_comm]
  · have hrest : m.natAbs / 10 % 10 ^ places = m.natAbs % 10 ^ (places + 1) / 10 := by
      rw [pow_succ, Nat.mul_comm, Nat.mod_mul_right_div_self]
    by_cases hzero : places = 0
    · have hnone : (figures (m.tdiv 10) places).places = [] := if_pos hzero
      rw [hnone]
      exact List.nil_prefix
    · rw [places_figures _ hzero, places_figures _ (Nat.succ_ne_zero places), habs, hrest,
        filled_succ (Nat.pos_of_ne_zero hzero)]
      exact List.prefix_append _ _
  · intro hnegative
    have hfew : m.tdiv 10 < 0 := of_decide_eq_true hnegative
    have hmany : m < 0 := by
      by_contra hnonneg
      exact absurd (Int.tdiv_nonneg (Int.not_lt.mp hnonneg) (by decide)) (Int.not_le.mpr hfew)
    exact decide_eq_true hmany

/-- The figures of a number, cut off at some place, go on where those cut off earlier stop. -/
theorem continued_figures_truncate (r : Rat) (h : few ≤ many) :
    (figures (truncate (r * 10 ^ few)) few).ContinuedBy
      (figures (truncate (r * 10 ^ many)) many) := by
  induction many, h using Nat.le_induction with
  | base => exact .refl _
  | succ many hmany ih =>
    have htenth : r * 10 ^ many = r * 10 ^ (many + 1) / (10 : Nat) := by
      rw [pow_succ]
      push_cast
      ring
    rw [htenth, truncate_div_natCast] at ih
    exact ih.trans (continued_figures_tdiv _ many)

/-- A text without its sign. -/
def signless (text : String) : List Char :=
  if text.toList.head? = some '-' then text.toList.tail else text.toList

private theorem head_text_iff (f : Figures) :
    f.text.toList.head? = some '-' ↔ f.negative = true := by
  rw [Figures.toList_text]
  cases f.negative with
  | true => simp
  | false =>
    obtain ⟨c, rest, hunsigned⟩ := List.exists_cons_of_ne_nil
      (List.append_ne_nil_of_left_ne_nil f.whole_ne_nil f.fraction)
    have hfirst : f.unsigned = c :: rest := hunsigned
    have hminus : c ≠ '-' := by
      rintro rfl
      exact f.unsigned_ne_minus rest hfirst
    simp [hfirst, hminus]

private theorem signless_text (f : Figures) : signless f.text = f.unsigned := by
  unfold signless
  simp only [head_text_iff]
  rw [Figures.toList_text]
  cases f.negative with
  | true => rfl
  | false => rfl

/-- The text `long` goes on where `short` stops, their signs apart, and has a minus sign if `short` has. -/
structure ExtendedBy (short long : String) : Prop where
  signless_prefix : signless short <+: signless long
  minus_of : short.toList.head? = some '-' → long.toList.head? = some '-'

theorem Figures.ContinuedBy.extendedBy_text {f g : Figures} (h : f.ContinuedBy g) :
    ExtendedBy f.text g.text := by
  refine ⟨?_, ?_⟩
  · rw [signless_text, signless_text]
    exact h.unsigned_prefix
  · rw [head_text_iff, head_text_iff]
    exact h.negative_of

private theorem text_figures_truncate (r : Rat) (places : Nat) :
    (figures (truncate (r * 10 ^ min places maxPlaces)) (min places maxPlaces)).text =
      reading r places := by
  rw [reading_eq, text_figures _ (Nat.min_le_right _ _)]

/-- Asking for more places only extends a reading, and from `maxPlaces` on changes nothing. -/
theorem readings_extend (r : Rat) :
    (∀ few many, few ≤ many → ExtendedBy (reading r few) (reading r many)) ∧
      ∀ many more, maxPlaces ≤ many → maxPlaces ≤ more → reading r many = reading r more := by
  constructor
  · intro few many h
    rw [← text_figures_truncate, ← text_figures_truncate]
    exact (continued_figures_truncate r (min_le_min_right maxPlaces h)).extendedBy_text
  · intro many more hmany hmore
    rw [reading_eq, reading_eq, Nat.min_eq_right hmany, Nat.min_eq_right hmore]

/-- The figures of `-1/30` are all zero at one place, and there is a minus sign only behind that. -/
theorem readings_extend_late_sign : reading (-1 / 30) 1 = "0.0" ∧ reading (-1 / 30) 3 = "-0.033" ∧
    1 ≤ 3 ∧ ExtendedBy "0.0" "-0.033" := by
  have hfew : reading (-1 / 30) 1 = "0.0" := by decide +kernel
  have hmany : reading (-1 / 30) 3 = "-0.033" := by decide +kernel
  have hextends := (readings_extend (-1 / 30)).1 1 3 (by decide)
  rw [hfew, hmany] at hextends
  exact ⟨hfew, hmany, by decide, hextends⟩

end Reckon.Decimal
