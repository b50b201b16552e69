import Mathlib.Tactic
import Reckon.Decimal

/-!
How long a decimal expansion is. It ends where a power of ten takes the denominator away, and that is
found by dividing all twos and then all fives out of the denominator: what is left is one exactly when
the expansion ends, and the larger of the two counts is the place at which it does.
-/

namespace Reckon.Decimal

variable {p n places : Nat} {r : Rat}

/-- The decimal expansion of `r` ends after so many places at most. -/
def EndsWithin (places : Nat) (r : Rat) : Prop := ∃ n : Int, r * 10 ^ places = n

theorem endsWithin_iff_den_dvd : EndsWithin places r ↔ r.den ∣ 10 ^ places := by
  constructor
  · rintro ⟨n, hn⟩
    have hr : r = Rat.divInt n (10 ^ places : Nat) := by
      rw [Rat.divInt_eq_div, eq_div_iff (by positivity)]
      exact_mod_cast hn
    have hdvd := Rat.den_dvd n (10 ^ places : Nat)
    rw [← hr] at hdvd
    exact_mod_cast hdvd
  · rintro ⟨c, hc⟩
    refine ⟨r.num * c, ?_⟩
    have hpower : (10 ^ places : Rat) = r.den * c := by exact_mod_cast hc
    rw [hpower, ← mul_assoc, Rat.mul_den_eq_num]
    push_cast
    rfl

theorem EndsWithin.mono {more : Nat} (h : EndsWithin places r) (hle : places ≤ more) :
    EndsWithin more r := by
  rw [endsWithin_iff_den_dvd] at h ⊢
  exact h.trans (Nat.pow_dvd_pow 10 hle)

/-- All factors `p` are counted, and none is left. -/
theorem factorOut_spec (hp : 2 ≤ p) (hn : 0 < n) (count : Nat) :
    ∃ k left, factorOut p n count = (count + k, left) ∧ n = p ^ k * left ∧ ¬p ∣ left := by
  fun_induction factorOut p n count with
  | case1 n count hdivides ih =>
    obtain ⟨-, -, hrest⟩ := hdivides
    have hdvd : p ∣ n := Nat.dvd_of_mod_eq_zero hrest
    have hquotient : 0 < n / p := Nat.div_pos (Nat.le_of_dvd hn hdvd) (by omega)
    obtain ⟨k, left, hcount, hsplit, hleft⟩ := ih hquotient
    refine ⟨k + 1, left, ?_, ?_, hleft⟩
    · rw [hcount, Nat.add_right_comm, Nat.add_assoc]
    · rw [pow_succ, mul_right_comm, ← hsplit, Nat.div_mul_cancel hdvd]
  | case2 n count hstops =>
    refine ⟨0, n, rfl, by simp, ?_⟩
    intro hdvd
    exact hstops ⟨hp, hn, Nat.mod_eq_zero_of_dvd hdvd⟩

/-- What the two divisions find in the denominator. -/
theorem factorOut_den (r : Rat) : ∃ twos fives left,
    factorOut 2 r.den 0 = (twos, 5 ^ fives * left) ∧
      factorOut 5 (5 ^ fives * left) 0 = (fives, left) ∧
      r.den = 2 ^ twos * (5 ^ fives * left) ∧ ¬2 ∣ 5 ^ fives * left ∧ ¬5 ∣ left := by
  obtain ⟨twos, odd, htwos, hden, hodd⟩ := factorOut_spec (p := 2) (Nat.le_refl 2) r.den_pos 0
  have hpos : 0 < odd := by
    rcases Nat.eq_zero_or_pos odd with rfl | hpos
    · exact absurd (Nat.dvd_zero 2) hodd
    · exact hpos
  obtain ⟨fives, left, hfives, rfl, hleft⟩ := factorOut_spec (p := 5) (by decide) hpos 0
  rw [Nat.zero_add] at htwos hfives
  exact ⟨twos, fives, left, htwos, hfives, hden, hodd, hleft⟩

/-- The denominator as the two counts see it. -/
theorem places?_spec (r : Rat) : ∃ twos fives left,
    r.den = 2 ^ twos * (5 ^ fives * left) ∧ ¬2 ∣ 5 ^ fives * left ∧ ¬5 ∣ left ∧
      places? r = if left = 1 then some (max twos fives) else none := by
  obtain ⟨twos, fives, left, htwos, hfives, hden, hodd, hleft⟩ := factorOut_den r
  refine ⟨twos, fives, left, hden, hodd, hleft, ?_⟩
  unfold places?
  simp only [htwos, hfives]

theorem endsWithin_of_places? (h : places? r = some places) : EndsWithin places r := by
  obtain ⟨twos, fives, left, hden, -, -, hplaces⟩ := places?_spec r
  rw [hplaces] at h
  split at h
  case isFalse => cases h
  case isTrue hleft =>
    cases h
    have hten : 10 ^ max twos fives = 2 ^ max twos fives * 5 ^ max twos fives := by
      rw [← Nat.mul_pow]
    rw [endsWithin_iff_den_dvd, hden, hleft, mul_one, hten]
    exact Nat.mul_dvd_mul (Nat.pow_dvd_pow 2 (le_max_left _ _)) (Nat.pow_dvd_pow 5 (le_max_right _ _))

/-- Where the expansion ends, the place is found, and it is the first one. -/
theorem places?_of_endsWithin (h : EndsWithin places r) :
    ∃ first, places? r = some first ∧ first ≤ places := by
  obtain ⟨twos, fives, left, hden, hodd, hleft, hplaces⟩ := places?_spec r
  rw [endsWithin_iff_den_dvd, hden] at h
  have hten : 10 ^ places = 2 ^ places * 5 ^ places := by rw [← Nat.mul_pow]
  have htwos : 2 ^ twos ∣ 2 ^ places := by
    have hdvd : 2 ^ twos ∣ 2 ^ places * 5 ^ places := hten ▸ (Nat.dvd_mul_right _ _).trans h
    exact (Nat.Coprime.pow _ _ (by decide)).dvd_of_dvd_mul_right hdvd
  have hrest : 5 ^ fives * left ∣ 5 ^ places := by
    have hdvd : 5 ^ fives * left ∣ 2 ^ places * 5 ^ places := hten ▸ (Nat.dvd_mul_left _ _).trans h
    have hcoprime : Nat.Coprime (5 ^ fives * left) (2 ^ places) :=
      (((Nat.prime_two.coprime_iff_not_dvd).mpr hodd).pow_left places).symm
    exact hcoprime.dvd_of_dvd_mul_left hdvd
  have hfives : 5 ^ fives ∣ 5 ^ places := (Nat.dvd_mul_right _ _).trans hrest
  have hone : left = 1 := by
    have hcoprime : Nat.Coprime left (5 ^ places) :=
      (((Nat.prime_five.coprime_iff_not_dvd).mpr hleft).pow_left places).symm
    exact Nat.Coprime.eq_one_of_dvd hcoprime ((Nat.dvd_mul_left _ _).trans hrest)
  refine ⟨max twos fives, by rw [hplaces, if_pos hone], max_le ?_ ?_⟩
  · exact (Nat.pow_dvd_pow_iff_le_right (by decide)).mp htwos
  · exact (Nat.pow_dvd_pow_iff_le_right (by decide)).mp hfives

end Reckon.Decimal
