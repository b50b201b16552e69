import Reckon.Proofs.Decimal.Numeral

/-!
Decimal numbers as they are written. A text of this form is read in one way only: its sign, the digits up
to the point and those behind it are told apart by what is no digit. What the printer makes of a whole
number of units of the last place has this form, and stands for just so many units.
-/

namespace Reckon.Decimal

variable {n places : Nat}

/-- The leading digit of a positive number is not zero. -/
theorem toDigits_of_leading_zero (h : (Nat.toDigits 10 n).head? = some '0') :
    Nat.toDigits 10 n = ['0'] := by
  induction n using Nat.strong_induction_on with
  | _ n ih =>
    rcases Nat.lt_or_ge n 10 with hdigit | hlong
    · rw [Nat.toDigits_of_lt_base hdigit] at h ⊢
      rw [Option.some.inj h]
    · rw [Nat.toDigits_of_base_le (by decide) hlong,
        List.head?_append_of_ne_nil _ Nat.toDigits_ne_nil] at h
      -- the leading digits would be those of zero, but there is a number before the last one
      have hfirst := ih (n / 10) (Nat.div_lt_self (by omega) (by decide)) h
      have hzero : n / 10 = 0 := by
        rw [← Nat.ofDigitChars_ten_toDigits (n := n / 10), hfirst]
        rfl
      omega

/-- A decimal number as it is written: a minus sign or none, the digits before the point, with no zero in
front that could be left out, and the digits behind it. -/
@[ext] structure Figures where
  negative : Bool
  whole : List Char
  places : List Char
  whole_ne_nil : whole ≠ []
  digit_of_whole : ∀ c ∈ whole, c.isDigit = true
  digit_of_places : ∀ c ∈ places, c.isDigit = true
  leading : whole.head? = some '0' → whole = ['0']

namespace Figures

variable {f g : Figures}

/-- What stands behind the whole part: a point and the places, or nothing. -/
def fraction (f : Figures) : List Char := if f.places = [] then [] else '.' :: f.places

/-- The text without its sign. -/
def unsigned (f : Figures) : List Char := f.whole ++ f.fraction

/-- The text of a decimal number. -/
def text (f : Figures) : String :=
  (if f.negative then "-" else "") ++ String.ofList f.unsigned

/-- The number that the figures denote, each place worth a tenth of the one before. -/
def value (f : Figures) : Rat :=
  (if f.negative then -1 else 1) *
    (Nat.ofDigitChars 10 f.whole 0 + Nat.ofDigitChars 10 f.places 0 / 10 ^ f.places.length)

theorem toList_text (f : Figures) :
    f.text.toList = (if f.negative then ['-'] else []) ++ f.unsigned := by
  unfold text
  cases f.negative with
  | true => simp
  | false => simp

/-- A text without a sign does not begin with one. -/
theorem unsigned_ne_minus (f : Figures) (rest : List Char) : f.unsigned ≠ '-' :: rest := by
  obtain ⟨c, tail, hwhole⟩ := List.exists_cons_of_ne_nil f.whole_ne_nil
  have hdigit : c.isDigit = true := by
    apply f.digit_of_whole
    rw [hwhole]
    exact List.mem_cons_self
  intro hminus
  rw [unsigned, hwhole, List.cons_append, List.cons.injEq] at hminus
  rw [hminus.1] at hdigit
  revert hdigit
  decide

/-- The whole part ends at the first character that is no digit. -/
theorem takeWhile_unsigned (f : Figures) : f.unsigned.takeWhile Char.isDigit = f.whole := by
  have hpoint : f.fraction.takeWhile Char.isDigit = [] := by
    unfold fraction
    split
    · rfl
    · rfl
  rw [unsigned, List.takeWhile_append_of_pos f.digit_of_whole, hpoint, List.append_nil]

private theorem fraction_injective (h : f.fraction = g.fraction) : f.places = g.places := by
  unfold fraction at h
  split at h
  case isTrue hnone =>
    split at h
    case isTrue hnone' => rw [hnone, hnone']
    case isFalse => cases h
  case isFalse =>
    split at h
    case isTrue => cases h
    case isFalse => exact List.tail_eq_of_cons_eq h

private theorem sign_of_text (h : f.text = g.text) :
    f.negative = g.negative ∧ f.unsigned = g.unsigned := by
  rw [← String.toList_inj, toList_text, toList_text] at h
  cases hf : f.negative with
  | true =>
    cases hg : g.negative with
    | true =>
      rw [hf, hg] at h
      exact ⟨rfl, List.tail_eq_of_cons_eq h⟩
    | false =>
      rw [hf, hg] at h
      exact absurd h.symm (g.unsigned_ne_minus _)
  | false =>
    cases hg : g.negative with
    | true =>
      rw [hf, hg] at h
      exact absurd h (f.unsigned_ne_minus _)
    | false =>
      rw [hf, hg] at h
      exact ⟨rfl, h⟩

/-- Figures are read off their text in one way. -/
theorem text_injective (h : f.text = g.text) : f = g := by
  obtain ⟨hsign, hunsigned⟩ := sign_of_text h
  have hwhole : f.whole = g.whole := by
    rw [← takeWhile_unsigned, hunsigned, takeWhile_unsigned]
  rw [unsigned, unsigned, hwhole, List.append_cancel_left_eq] at hunsigned
  exact Figures.ext hsign hwhole (fraction_injective hunsigned)

end Figures

/-- The figures of a whole number of units of the last place. -/
def figures (n : Int) (places : Nat) : Figures where
  negative := n < 0
  whole := Nat.toDigits 10 (n.natAbs / 10 ^ places)
  places := if places = 0 then [] else filled places (n.natAbs % 10 ^ places)
  whole_ne_nil := Nat.toDigits_ne_nil
  digit_of_whole := fun _ hc => digit_of_mem_toDigits hc
  digit_of_places := by
    intro c hc
    split at hc
    case isTrue => cases hc
    case isFalse => exact digit_of_mem_filled hc
  leading := toDigits_of_leading_zero

theorem length_places_figures (n : Int) (places : Nat) : (figures n places).places.length = places := by
  unfold figures
  simp only
  split
  case isTrue hzero => exact hzero.symm
  case isFalse hsome => exact length_filled (Nat.pos_of_ne_zero hsome) (Nat.mod_lt _ (by positivity))

/-- The printer writes these figures. -/
theorem text_figures (n : Int) (h : places ≤ maxPlaces) : (figures n places).text = scaled n places := by
  have hfraction : (figures n places).fraction =
      if places = 0 then [] else '.' :: filled places (n.natAbs % 10 ^ places) := by
    have hnone : (figures n places).places = [] ↔ places = 0 := by
      rw [← List.length_eq_zero_iff, length_places_figures]
    simp only [Figures.fraction, hnone]
    split
    case isTrue => rfl
    case isFalse hsome => simp only [figures, if_neg hsome]
  rw [scaled_eq_sign, ← String.toList_inj, String.toList_append, toList_scaled _ h, Figures.toList_text,
    Figures.unsigned, hfraction]
  by_cases hneg : n < 0
  · simp [figures, hneg]
  · simp [figures, hneg]

/-- They denote so many units. -/
theorem value_figures (n : Int) (places : Nat) : (figures n places).value = n / 10 ^ places := by
  have hwhole : Nat.ofDigitChars 10 (figures n places).whole 0 = n.natAbs / 10 ^ places :=
    Nat.ofDigitChars_ten_toDigits
  have hplaces : Nat.ofDigitChars 10 (figures n places).places 0 = n.natAbs % 10 ^ places := by
    unfold figures
    simp only
    split
    case isTrue hzero =>
      rw [hzero, pow_zero, Nat.mod_one]
      rfl
    case isFalse => exact ofDigitChars_filled _ _
  have hunits : ((n.natAbs / 10 ^ places : Nat) : Rat) +
      ((n.natAbs % 10 ^ places : Nat) : Rat) / 10 ^ places = n.natAbs / 10 ^ places := by
    have hsplit : ((10 ^ places * (n.natAbs / 10 ^ places) + n.natAbs % 10 ^ places : Nat) : Rat) =
        n.natAbs := by rw [Nat.div_add_mod]
    rw [← hsplit]
    push_cast
    field_simp
  have hsign : (if (figures n places).negative then (-1 : Rat) else 1) * n.natAbs = n := by
    rw [Nat.cast_natAbs, Int.cast_abs]
    by_cases hneg : n < 0
    · have hneg' : (n : Rat) < 0 := by exact_mod_cast hneg
      simp [figures, hneg, abs_of_neg hneg']
    · have hnonneg : (0 : Rat) ≤ n := by exact_mod_cast Int.not_lt.mp hneg
      simp [figures, hneg, abs_of_nonneg hnonneg]
  rw [Figures.value, hwhole, hplaces, length_places_figures, hunits, ← mul_div_assoc, hsign]

end Reckon.Decimal
