import Reckon.Proofs.Decimal.Figures
import Reckon.Proofs.Decimal.Shape

/-!
The exact text is as short as it can be. The places it has are found without a division of the number
itself, from the twos and fives of the denominator, and there are no fewer that would do; so the last
figure is not a zero, since a zero at the end could be left out.
-/

namespace Reckon.Decimal

variable {digits : List Char} {places : Nat} {r : Rat}

/-- Where an expansion ends: after `places` places, and not before. -/
def EndsAt (r : Rat) (places : Nat) : Prop := IsLeast {count | EndsWithin count r} places

/-- The two counts find where an expansion ends. -/
theorem places?_eq_some_iff : places? r = some places ↔ EndsAt r places := by
  constructor
  · intro h
    refine ⟨endsWithin_of_places? h, ?_⟩
    intro count hcount
    obtain ⟨first, hfirst, hle⟩ := places?_of_endsWithin hcount
    cases hfirst.symm.trans h
    exact hle
  · rintro ⟨hends, hleast⟩
    obtain ⟨first, hfirst, hle⟩ := places?_of_endsWithin hends
    have hge : places ≤ first := hleast (endsWithin_of_places? hfirst)
    rw [hfirst, Nat.le_antisymm hle hge]

theorem places?_eq_none_iff : places? r = none ↔ ∀ count, ¬EndsWithin count r := by
  constructor
  · intro h count hcount
    obtain ⟨first, hfirst, -⟩ := places?_of_endsWithin hcount
    cases hfirst.symm.trans h
  · intro h
    cases hplaces : places? r with
    | none => rfl
    | some places => exact absurd (endsWithin_of_places? hplaces) (h places)

/-- Both divisions end because nothing more divides, and not because they are stopped. -/
theorem factorOut_exhausts (r : Rat) :
    ¬2 ∣ (factorOut 2 r.den 0).2 ∧ ¬5 ∣ (factorOut 5 (factorOut 2 r.den 0).2 0).2 := by
  obtain ⟨twos, fives, left, htwos, hfives, -, hodd, hleft⟩ := factorOut_den r
  rw [htwos]
  simp only
  rw [hfives]
  exact ⟨hodd, hleft⟩

/-- A zero at the end could be left out. -/
theorem Figures.endsWithin_of_zero {f : Figures} (h : f.places = digits ++ ['0']) :
    EndsWithin digits.length f.value := by
  have hdigits : Nat.ofDigitChars 10 f.places 0 = 10 * Nat.ofDigitChars 10 digits 0 := by
    rw [h, Nat.ofDigitChars_append]
    rfl
  have hlength : f.places.length = digits.length + 1 := by rw [h, List.length_append]; rfl
  have hfraction : ((10 * Nat.ofDigitChars 10 digits 0 : Nat) : Rat) / 10 ^ (digits.length + 1) *
      10 ^ digits.length = Nat.ofDigitChars 10 digits 0 := by
    rw [pow_succ]
    push_cast
    field_simp
  refine ⟨(if f.negative then -1 else 1) *
    (Nat.ofDigitChars 10 f.whole 0 * 10 ^ digits.length + Nat.ofDigitChars 10 digits 0), ?_⟩
  rw [Figures.value, hdigits, hlength, mul_assoc, add_mul, hfraction]
  push_cast
  rfl

/-- The shortest figures of a number: they denote it, and there are no fewer places that would do. -/
structure Figures.Shortest (r : Rat) (f : Figures) : Prop where
  value_eq : f.value = r
  endsAt : EndsAt r f.places.length
  last_ne_zero : f.places.getLast? ≠ some '0'

/-- Figures with no more places than are needed have no zero at the end. -/
theorem Figures.shortest_of_endsAt {f : Figures} (hvalue : f.value = r)
    (hends : EndsAt r f.places.length) : f.Shortest r := by
  refine ⟨hvalue, hends, ?_⟩
  intro hzero
  obtain ⟨digits, hdigits⟩ := List.getLast?_eq_some_iff.mp hzero
  have hfewer := endsWithin_of_zero hdigits
  rw [hvalue] at hfewer
  have hleast : f.places.length ≤ digits.length := hends.2 hfewer
  rw [hdigits, List.length_append, List.length_singleton] at hleast
  omega

/-- How an exact text looks: an integer, the shortest decimal if that is not too long to be written, or
else a fraction in lowest terms. -/
inductive ExactText (r : Rat) : String → Prop
  | integer : r.den = 1 → ExactText r (toString r.num)
  | decimal (f : Figures) : r.den ≠ 1 → f.places.length ≤ maxPlaces → f.Shortest r → ExactText r f.text
  | fraction : (∀ count ≤ maxPlaces, ¬EndsWithin count r) →
      ExactText r (toString r.num ++ "/" ++ toString r.den)

private theorem exactText_of_endsAt (hden : r.den ≠ 1) (hends : EndsAt r places)
    (h : places ≤ maxPlaces) :
    ExactText r (exact r) := by
  obtain ⟨m, hm⟩ := hends.1
  have htext : exact r = (figures m places).text := by
    rw [text_figures m h, ← reading_of_ends hm h, exact, if_neg hden, places?_eq_some_iff.mpr hends]
    exact if_pos h
  have hvalue : (figures m places).value = r := by
    rw [value_figures, ← hm]
    field_simp
  have hlength := length_places_figures m places
  rw [htext]
  refine .decimal _ hden (hlength.le.trans h) (Figures.shortest_of_endsAt hvalue ?_)
  rw [hlength]
  exact hends

/-- The places of an exact text are counted by two divisions that come to an end of their own, and the
counts tell where the expansion ends, if it does. The text is the integer, or the decimal of just
so many places, or the fraction where there are too many of them or no end. -/
theorem exact_is_shortest (r : Rat) :
    (¬2 ∣ (factorOut 2 r.den 0).2 ∧ ¬5 ∣ (factorOut 5 (factorOut 2 r.den 0).2 0).2) ∧
      (∀ places, places? r = some places ↔ EndsAt r places) ∧
      (places? r = none ↔ ∀ count, ¬EndsWithin count r) ∧ ExactText r (exact r) := by
  refine ⟨factorOut_exhausts r, fun _ => places?_eq_some_iff, places?_eq_none_iff, ?_⟩
  by_cases hden : r.den = 1
  · have htext : exact r = toString r.num := if_pos hden
    rw [htext]
    exact .integer hden
  · by_cases hends : EndsWithin maxPlaces r
    · obtain ⟨first, hfirst, hle⟩ := places?_of_endsWithin hends
      exact exactText_of_endsAt hden (places?_eq_some_iff.mp hfirst) hle
    · rw [exact_of_not_endsWithin hends]
      refine .fraction ?_
      intro count hcount hends'
      exact hends (hends'.mono hcount)

end Reckon.Decimal
