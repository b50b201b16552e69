import Mathlib.Data.List.TakeWhile
import Mathlib.Tactic
import Reckon.Expr.Lexer

/-!
What a run of digits and points writes. It is a number unless it has two points or no digit; the number
is the digits on both sides of the point read as one whole number, scaled down by the places behind the
point. A number is read if a word of 32 bits holds how many places there are.
-/

namespace Reckon.Token

variable {c : Char} {run whole digits : List Char} {value : Rat}

/-- The number that a run of characters writes. -/
inductive Writes : List Char → Rat → Prop where
  /-- Digits alone write a whole number. -/
  | whole {digits : List Char} : digits ≠ [] → (∀ c ∈ digits, c.isDigit = true) →
      Writes digits (Nat.ofDigitChars 10 digits 0)
  /-- On one side of a point at least there is a digit. -/
  | point {whole places : List Char} : whole ++ places ≠ [] →
      (∀ c ∈ whole ++ places, c.isDigit = true) →
      Writes (whole ++ '.' :: places)
        (Nat.ofDigitChars 10 (whole ++ places) 0 / 10 ^ places.length)

/-- A run that is no number: it has two points or no digit. -/
def Malformed (run : List Char) : Prop := 2 ≤ run.count '.' ∨ ∀ c ∈ run, c.isDigit = false

/-- A run with no more places than a word of 32 bits counts. -/
def PlacesFit (run : List Char) : Prop := (places run).length < 2 ^ 32

private theorem ne_point_of_digit (h : c.isDigit = true) : c ≠ '.' := by
  rintro rfl
  cases h

private theorem isNumeral_of_digit (h : c.isDigit = true) : isNumeral c = true := by
  simp [isNumeral, h]

private theorem digit_of_ne_point (h : isNumeral c = true) (hc : c ≠ '.') : c.isDigit = true := by
  simpa [isNumeral, hc] using h

theorem not_mem_of_digits (h : ∀ c ∈ digits, c.isDigit = true) : '.' ∉ digits := by
  intro hmem
  exact ne_point_of_digit (h '.' hmem) rfl

private theorem half?_places (h : PlacesFit run) :
    Word.half? (places run).length = some (places run).length := by
  unfold PlacesFit at h
  unfold Word.half? Word.maxHalf
  exact if_pos (by omega)

private theorem half?_places_eq_none (h : ¬PlacesFit run) :
    Word.half? (places run).length = none := by
  unfold PlacesFit at h
  unfold Word.half? Word.maxHalf
  exact if_neg (by omega)

/-- A run that is read has places that fit. -/
theorem placesFit_of_literal? (h : literal? run = some value) : PlacesFit run := by
  by_contra hlong
  unfold literal? at h
  rw [half?_places_eq_none hlong] at h
  dsimp only at h
  split at h
  case isTrue => cases h
  case isFalse => cases h

theorem literal?_of_not_placesFit (h : ¬PlacesFit run) : literal? run = none := by
  cases hvalue : literal? run with
  | none => rfl
  | some value => exact absurd (placesFit_of_literal? hvalue) h

private theorem before_point (h : '.' ∉ run) : ∀ c ∈ run, decide (c ≠ '.') = true := by
  intro c hc
  exact decide_eq_true (ne_of_mem_of_not_mem hc h)

theorem places_of_not_mem (h : '.' ∉ run) : places run = [] := by
  rw [places, List.dropWhile_eq_nil_iff.mpr (before_point h), List.drop_nil]

theorem places_point (h : '.' ∉ whole) (digits : List Char) :
    places (whole ++ '.' :: digits) = digits := by
  rw [places, List.dropWhile_append_of_pos (before_point h)]
  simp

theorem placesFit_of_not_mem (h : '.' ∉ run) : PlacesFit run := by
  rw [PlacesFit, places_of_not_mem h]
  decide

/-- Without a point the run is read as it is. -/
theorem literal?_of_not_mem (h : '.' ∉ run) :
    literal? run = if run = [] then none else some (Nat.ofDigitChars 10 run 0 : Rat) := by
  have htake : run.takeWhile (· ≠ '.') = run := List.takeWhile_eq_self_iff.mpr (before_point h)
  unfold literal?
  rw [half?_places (placesFit_of_not_mem h), htake, places_of_not_mem h]
  simp [Decimal.scale, Rat.mkRat_one]

/-- The first point parts the run in two. -/
theorem literal?_point_eq (h : '.' ∉ whole) (hfit : PlacesFit (whole ++ '.' :: digits)) :
    literal? (whole ++ '.' :: digits) =
      if '.' ∈ digits ∨ whole ++ digits = [] then none
      else some (Nat.ofDigitChars 10 (whole ++ digits) 0 / 10 ^ digits.length : Rat) := by
  have htake : (whole ++ '.' :: digits).takeWhile (· ≠ '.') = whole := by
    rw [List.takeWhile_append_of_pos (before_point h)]
    simp
  unfold literal?
  rw [half?_places hfit, htake, places_point h]
  simp [Decimal.scale, Rat.mkRat_eq_div]

theorem Writes.ne_nil (h : Writes run value) : run ≠ [] := by
  cases h with
  | whole hne _ => exact hne
  | point _ _ => simp

theorem Writes.numeral (h : Writes run value) : ∀ c ∈ run, isNumeral c = true := by
  intro c hc
  cases h with
  | whole _ hdigits => exact isNumeral_of_digit (hdigits c hc)
  | point _ hdigits =>
    rw [List.mem_append, List.mem_cons] at hc
    rcases hc with hc | rfl | hc
    · exact isNumeral_of_digit (hdigits c (List.mem_append_left _ hc))
    · rfl
    · exact isNumeral_of_digit (hdigits c (List.mem_append_right _ hc))

theorem Writes.literal (h : Writes run value) (hfit : PlacesFit run) : literal? run = some value := by
  cases h with
  | whole hne hdigits => rw [literal?_of_not_mem (not_mem_of_digits hdigits), if_neg hne]
  | point hne hdigits =>
    have hpoint := not_mem_of_digits hdigits
    rw [List.mem_append, not_or] at hpoint
    rw [literal?_point_eq hpoint.1 hfit, if_neg (not_or.mpr ⟨hpoint.2, hne⟩)]

private theorem digit_around_point (hrun : ∀ c ∈ whole ++ '.' :: digits, isNumeral c = true)
    (hwhole : '.' ∉ whole) (hdigits : '.' ∉ digits) : ∀ c ∈ whole ++ digits, c.isDigit = true := by
  intro c hc
  rw [List.mem_append] at hc
  have hother : c ≠ '.' := by
    rintro rfl
    exact hc.elim hwhole hdigits
  refine digit_of_ne_point (hrun c ?_) hother
  rw [List.mem_append, List.mem_cons]
  exact hc.imp_right .inr

theorem writes_of_literal? (hrun : ∀ c ∈ run, isNumeral c = true) (h : literal? run = some value) :
    Writes run value := by
  by_cases hpoint : '.' ∈ run
  · obtain ⟨whole, places, rfl, hwhole⟩ := List.eq_append_cons_of_mem hpoint
    rw [literal?_point_eq hwhole (placesFit_of_literal? h)] at h
    split at h
    case isTrue => cases h
    case isFalse hvalid =>
      obtain ⟨hplaces, hne⟩ := not_or.mp hvalid
      cases h
      exact .point hne (digit_around_point hrun hwhole hplaces)
  · rw [literal?_of_not_mem hpoint] at h
    split at h
    case isTrue => cases h
    case isFalse hne =>
      cases h
      exact .whole hne fun c hc => digit_of_ne_point (hrun c hc) (ne_of_mem_of_not_mem hc hpoint)

/-- A run of digits and points reads as the number that it writes, if its places fit. -/
theorem literal?_eq_some_iff (hrun : ∀ c ∈ run, isNumeral c = true) :
    literal? run = some value ↔ Writes run value ∧ PlacesFit run :=
  ⟨fun h => ⟨writes_of_literal? hrun h, placesFit_of_literal? h⟩, fun h => h.1.literal h.2⟩

private theorem malformed_point_iff (hrun : ∀ c ∈ whole ++ '.' :: digits, isNumeral c = true)
    (hwhole : '.' ∉ whole) :
    Malformed (whole ++ '.' :: digits) ↔ '.' ∈ digits ∨ whole ++ digits = [] := by
  have hcount : (whole ++ '.' :: digits).count '.' = digits.count '.' + 1 := by
    simp [List.count_eq_zero.mpr hwhole]
  unfold Malformed
  rw [hcount]
  constructor
  · rintro (htwo | hnone)
    · exact .inl (List.count_pos_iff.mp (by omega))
    · by_cases hpoint : '.' ∈ digits
      · exact .inl hpoint
      · refine .inr (List.eq_nil_iff_forall_not_mem.mpr ?_)
        intro c hc
        have hdigit := digit_around_point hrun hwhole hpoint c hc
        rw [hnone c (by simp at hc ⊢; tauto)] at hdigit
        cases hdigit
  · rintro (hpoint | hempty)
    · have htwo := List.count_pos_iff.mpr hpoint
      exact .inl (by omega)
    · obtain ⟨rfl, rfl⟩ := List.append_eq_nil_iff.mp hempty
      exact .inr (by simp)

/-- A run of digits and points whose places fit writes no number when it has two points or no digit. -/
theorem literal?_eq_none_iff_malformed (hne : run ≠ []) (hrun : ∀ c ∈ run, isNumeral c = true)
    (hfit : PlacesFit run) : literal? run = none ↔ Malformed run := by
  by_cases hpoint : '.' ∈ run
  · obtain ⟨whole, digits, rfl, hwhole⟩ := List.eq_append_cons_of_mem hpoint
    rw [literal?_point_eq hwhole hfit, malformed_point_iff hrun hwhole]
    simp only [ite_eq_left_iff, reduceCtorEq, imp_false, not_not]
  · obtain ⟨c, hc⟩ := List.exists_mem_of_ne_nil run hne
    have hdigit : c.isDigit = true :=
      digit_of_ne_point (hrun c hc) (ne_of_mem_of_not_mem hc hpoint)
    rw [literal?_of_not_mem hpoint, if_neg hne]
    constructor
    · intro h
      cases h
    · rintro (htwo | hnone)
      · rw [List.count_eq_zero.mpr hpoint] at htwo
        cases htwo
      · rw [hnone c hc] at hdigit
        cases hdigit

/-- A run that is not read is malformed, or has too many places. -/
theorem literal?_eq_none_iff (hne : run ≠ []) (hrun : ∀ c ∈ run, isNumeral c = true) :
    literal? run = none ↔ Malformed run ∨ ¬PlacesFit run := by
  by_cases hfit : PlacesFit run
  · simpa [hfit] using literal?_eq_none_iff_malformed hne hrun hfit
  · simpa [hfit] using literal?_of_not_placesFit hfit

end Reckon.Token
