import Mathlib.Data.List.TakeWhile
import Mathlib.Tactic
import Reckon.Proofs.Decimal.Places
import Reckon.Proofs.Expr.Literal
import Reckon.Proofs.Expr.Scanning

/-!
The decimal text of a number is one literal, and reading it gives the number back. The printer cuts a
whole number of units of the last place in two by a power of ten and fills the second part up with
zeros; the reader puts the digits around the point together again, and because the filled part has
as many digits as there are places, nothing moves.
-/

namespace Reckon

variable {n places : Nat} {digits whole run rest : List Char} {tokens : List Token} {r value : Rat}

/-- A run of numerals that is one number. -/
structure Token.Numeral (run : List Char) (value : Rat) : Prop where
  ne_nil : run ≠ []
  numeral : ∀ c ∈ run, Token.isNumeral c = true
  literal : Token.literal? run = some value

namespace Token

theorem Numeral.spells (h : Numeral run value) (hbreaks : Breaks rest) (hrest : Spells rest tokens) :
    Spells (run ++ rest) (.num value :: tokens) :=
  .number h.ne_nil h.numeral h.literal hbreaks hrest

/-- What a run writes is one number, if its places fit. -/
theorem Writes.toNumeral (h : Writes run value) (hfit : PlacesFit run) : Numeral run value :=
  ⟨h.ne_nil, h.numeral, h.literal hfit⟩

/-- The digits around the point of a literal are digits, and no more than it has characters. -/
theorem literal_digits (hrun : ∀ c ∈ run, isNumeral c = true)
    (h : literal? run = some value) :
    ∃ digits places, value = mkRat (Nat.ofDigitChars 10 digits 0) (10 ^ places) ∧
      (∀ c ∈ digits, c.isDigit = true) ∧ places ≤ digits.length ∧ 0 < digits.length ∧
      digits.length ≤ run.length := by
  cases writes_of_literal? hrun h with
  | whole hne hdigits =>
    refine ⟨run, 0, ?_, hdigits, Nat.zero_le _, List.length_pos_iff.mpr hne, le_rfl⟩
    rw [pow_zero, Rat.mkRat_one]
    rfl
  | @point whole places hne hdigits =>
    refine ⟨whole ++ places, places.length, ?_, hdigits, by simp, List.length_pos_iff.mpr hne,
      by simp⟩
    rw [Rat.mkRat_eq_div]
    push_cast
    rfl

/-- A literal is not negative, and its expansion ends before the literal does. -/
theorem literal_ends (hrun : ∀ c ∈ run, isNumeral c = true) (h : literal? run = some value) :
    0 ≤ value ∧ Decimal.EndsWithin run.length value := by
  obtain ⟨digits, places, rfl, -, hplaces, -, hlength⟩ := literal_digits hrun h
  rw [Rat.mkRat_eq_div]
  refine ⟨by positivity, ?_⟩
  have hends : Decimal.EndsWithin places
      ((Nat.ofDigitChars 10 digits 0 : Int) / (10 ^ places : Nat) : Rat) := by
    refine ⟨Nat.ofDigitChars 10 digits 0, ?_⟩
    push_cast
    exact div_mul_cancel₀ _ (by positivity)
  exact hends.mono (le_trans hplaces hlength)

end Token

namespace Decimal

theorem digit_of_mem_toDigits {c : Char} (h : c ∈ Nat.toDigits 10 n) : c.isDigit = true :=
  Nat.isDigit_of_mem_toDigits (by decide) (by decide) h

/-- The digits of `n` behind as many zeros as fill the width. -/
def filled (width n : Nat) : List Char := (Nat.toDigits 10 n).leftpad width '0'

theorem digit_of_mem_filled {width : Nat} {c : Char} (h : c ∈ filled width n) :
    c.isDigit = true := by
  rcases List.mem_append.mp h with hzero | hdigit
  · rw [List.eq_of_mem_replicate hzero]
    decide
  · exact digit_of_mem_toDigits hdigit

theorem length_filled {width : Nat} (hwidth : 0 < width) (hn : n < 10 ^ width) :
    (filled width n).length = width := by
  have hlength : (Nat.toDigits 10 n).length ≤ width :=
    (Nat.length_toDigits_le_iff (by decide) hwidth).mpr hn
  unfold filled
  rw [List.length_leftpad]
  exact max_eq_left hlength

theorem ofDigitChars_filled (width n : Nat) : Nat.ofDigitChars 10 (filled width n) 0 = n := by
  unfold filled List.leftpad
  rw [Nat.ofDigitChars_append, Nat.ofDigitChars_replicate_zero, Nat.mul_zero,
    Nat.ofDigitChars_ten_toDigits]

theorem scaled_eq_sign (m : Int) (places : Nat) :
    scaled m places = (if m < 0 then "-" else "") ++ scaled m.natAbs places := by
  have hnonneg : ¬(m.natAbs : Int) < 0 := by omega
  unfold scaled
  simp only [Int.natAbs_natCast, if_neg hnonneg, String.empty_append, String.append_assoc]

/-- The characters of a number of units of the last place. -/
theorem toList_scaled (n : Nat) (h : places ≤ maxPlaces) :
    (scaled n places).toList = Nat.toDigits 10 (n / 10 ^ places) ++
      if places = 0 then [] else '.' :: filled places (n % 10 ^ places) := by
  have hnonneg : ¬(n : Int) < 0 := by omega
  unfold scaled
  simp only [Nat.min_eq_left h, Int.natAbs_natCast, if_neg hnonneg]
  by_cases hzero : places = 0
  · simp [hzero, scale]
  · simp [hzero, scale, padded, filled]

/-- The text of a number of units of the last place writes that number. -/
theorem writes_scaled (n : Nat) (h : places ≤ maxPlaces) :
    Token.Writes (scaled n places).toList (n / 10 ^ places) := by
  have hwhole : ∀ c ∈ Nat.toDigits 10 (n / 10 ^ places), c.isDigit = true := by
    intro c hc
    exact digit_of_mem_toDigits hc
  rw [toList_scaled n h]
  split
  case isTrue hzero =>
    have hwrites := Token.Writes.whole Nat.toDigits_ne_nil hwhole
    rw [Nat.ofDigitChars_ten_toDigits] at hwrites
    simpa [hzero] using hwrites
  case isFalse hzero =>
    let filling := filled places (n % 10 ^ places)
    have hlength : filling.length = places :=
      length_filled (Nat.pos_of_ne_zero hzero) (Nat.mod_lt _ (by positivity))
    have hdigits : ∀ c ∈ Nat.toDigits 10 (n / 10 ^ places) ++ filling, c.isDigit = true := by
      intro c hc
      exact (List.mem_append.mp hc).elim (hwhole c) digit_of_mem_filled
    -- the filled part shifts the whole part by exactly the places
    have hvalue : Nat.ofDigitChars 10 (Nat.toDigits 10 (n / 10 ^ places) ++ filling) 0 = n := by
      rw [Nat.ofDigitChars_append, Nat.ofDigitChars_eq_ofDigitChars_zero, hlength,
        ofDigitChars_filled, Nat.ofDigitChars_ten_toDigits, Nat.div_add_mod]
    have hwrites := Token.Writes.point (by simp [Nat.toDigits_ne_nil]) hdigits
    rw [hvalue, hlength] at hwrites
    exact hwrites

/-- No more places are ever written than can be read. -/
theorem placesFit_scaled (n : Nat) (h : places ≤ maxPlaces) :
    Token.PlacesFit (scaled n places).toList := by
  have hwhole : '.' ∉ Nat.toDigits 10 (n / 10 ^ places) :=
    Token.not_mem_of_digits fun c hc => digit_of_mem_toDigits hc
  rw [toList_scaled n h]
  split
  case isTrue hzero =>
    rw [List.append_nil]
    exact Token.placesFit_of_not_mem hwhole
  case isFalse hzero =>
    have hlength : (filled places (n % 10 ^ places)).length = places :=
      length_filled (Nat.pos_of_ne_zero hzero) (Nat.mod_lt _ (by positivity))
    rw [Token.PlacesFit, Token.places_point hwhole, hlength]
    unfold maxPlaces at h
    omega

/-- It is one literal. -/
theorem numeral_scaled (n : Nat) (h : places ≤ maxPlaces) :
    Token.Numeral (scaled n places).toList (n / 10 ^ places) :=
  (writes_scaled n h).toNumeral (placesFit_scaled n h)

/-- A whole number is written without a point. -/
theorem scaled_zero (m : Int) : scaled m 0 = toString m := by
  have hunsigned : scaled (m.natAbs : Int) 0 = m.natAbs.repr := by
    rw [← String.toList_inj, toList_scaled _ (Nat.zero_le _), Nat.toList_repr]
    simp
  rw [scaled_eq_sign, hunsigned, Int.toString_eq_repr, Int.repr_eq_if]
  by_cases hneg : m < 0
  · have habs : m.natAbs = (-m).toNat := by omega
    rw [if_pos hneg, if_neg (by omega), habs]
  · have habs : m.natAbs = m.toNat := by omega
    rw [if_neg hneg, if_pos (by omega), habs, String.empty_append]

theorem numeral_natCast (n : Nat) : Token.Numeral (toString n).toList n := by
  have hnumeral := numeral_scaled n (Nat.zero_le maxPlaces)
  rw [scaled_zero, pow_zero, div_one] at hnumeral
  exact hnumeral

end Decimal
end Reckon
