import Reckon.Proofs.Binary64.Rounding
import Reckon.Proofs.Binary64.Sign

/-!
The product of two binary64 numbers is the exact product, rounded once, and an infinity where that is too
large. The product of the mantissas has digits enough for the grid of its size, so what is packed in the
end is the nearer neighbour, shifted once more where it carried. A product by a positive factor thus keeps
the order, and is finite between two finite ones.
-/

namespace Reckon.Binary64

open Float.Model Float.Model.UnpackedFloat

variable {a b v w : Rat} {x y : Float} {n m : Nat} {q e f : Int} {s t : Sign}

/-- A magnitude with a sign. -/
def signedValue (s : Sign) (v : Rat) : Rat := if isMinus s then -v else v

@[simp] theorem signedValue_positive (v : Rat) : signedValue .positive v = v := rfl

@[simp] theorem signedValue_negative (v : Rat) : signedValue .negative v = -v := rfl

@[simp] theorem signedValue_zero (s : Sign) : signedValue s 0 = 0 := by cases s <;> simp

private theorem signedValue_mul (s t : Sign) (v w : Rat) :
    signedValue s v * signedValue t w = signedValue (s * t) (v * w) := by
  cases s with
  | positive => cases t with
    | positive => exact rfl
    | negative => exact mul_neg v w
  | negative => cases t with
    | positive => exact neg_mul v w
    | negative => exact neg_mul_neg v w

theorem abs_signedValue (s : Sign) (v : Rat) : |signedValue s v| = |v| := by
  cases s with
  | positive => rfl
  | negative => exact abs_neg v

/-- The least magnitude that is too large for a finite number. -/
def tooLarge : Rat := 2 ^ (1024 : Int)

/-- A number, if it is not too large for a finite one. -/
def finite? (v : Rat) : Option Rat := if |v| < tooLarge then some v else none

theorem finite?_eq_some_iff : finite? v = some w ↔ |v| < tooLarge ∧ v = w := by
  unfold finite?
  split
  · simp [*]
  · simp [*]

/-- Between two finite numbers all are finite. -/
theorem finite?_of_between (hv : |v| < tooLarge) (hw : |w| < tooLarge) (h₁ : v ≤ a) (h₂ : a ≤ w) :
    finite? a = some a := by
  have hlow := (abs_lt.mp hv).1
  have hhigh := (abs_lt.mp hw).2
  exact if_pos (abs_lt.mpr ⟨by linarith, by linarith⟩)

/-- A mantissa and an exponent that a finite word has: all fifty-three digits, or fewer at the least
exponent. -/
structure Canonical (m : Nat) (e : Int) : Prop where
  below : m < 2 ^ 53
  least : -1074 ≤ e
  fills : e = -1074 ∨ 2 ^ 52 ≤ m

theorem Canonical.lt_tooLarge_iff (h : Canonical m e) : (m : Rat) * 2 ^ e < tooLarge ↔ e < 972 := by
  have hpower : (0 : Rat) < 2 ^ e := zpow_pos (by norm_num) e
  have hbelow : (m : Rat) < 2 ^ (53 : Int) := by exact_mod_cast h.below
  constructor
  · intro hfinite
    by_contra hlarge
    have hfull : (2 : Rat) ^ (52 : Int) ≤ m := by
      have hfills := h.fills.resolve_left (by omega)
      exact_mod_cast hfills
    refine absurd hfinite (not_lt.mpr ?_)
    calc tooLarge
      _ ≤ 2 ^ (52 + e) := zpow_le_zpow_right₀ (by norm_num) (by omega)
      _ = 2 ^ (52 : Int) * 2 ^ e := zpow_add₀ (by norm_num) _ _
      _ ≤ m * 2 ^ e := mul_le_mul_of_nonneg_right hfull hpower.le
  · intro hsmall
    calc (m : Rat) * 2 ^ e
      _ < 2 ^ (53 : Int) * 2 ^ e := mul_lt_mul_of_pos_right hbelow hpower
      _ = 2 ^ (53 + e) := (zpow_add₀ (by norm_num) _ _).symm
      _ ≤ tooLarge := zpow_le_zpow_right₀ (by norm_num) (by omega)

/-- How a mantissa and its exponent are packed: an exponent field that overflows is an infinity, a full
mantissa leaves its leading one out, and one that is not full has no exponent field. -/
theorem pack_canonical (hm : 0 < m) (h : Canonical m e) :
    UnpackedFloat.pack .binary64 (.finite s m e hm) =
      if 972 ≤ e then packedInfinity .binary64 s
      else if 2 ^ 52 ≤ m then
        packComponents .binary64 s (BitVec.ofNat 11 (e + 1075).toNat) (BitVec.ofNat 52 m)
      else packComponents .binary64 s 0#11 (BitVec.ofNat 52 m) := by
  have hlog : m.log2 + 1 = Format.binary64.mantissaBits ↔ 2 ^ 52 ≤ m := by
    have hbits : Format.binary64.mantissaBits = 52 + 1 := by decide
    rw [hbits, Nat.add_right_cancel_iff, Nat.log2_eq_iff hm.ne']
    exact ⟨fun h => h.1, fun hfull => ⟨hfull, h.below⟩⟩
  have hbias : e + Format.binary64.exponentBias + Format.binary64.mantissaBitsWithoutImplicit =
      e + 1075 := by
    have hvalue : Format.binary64.exponentBias = 1023 := by decide
    rw [hvalue]
    push_cast
    omega
  have hoverflow : 2 ^ Format.binary64.exponentBits ≤ (e + 1075).toNat + 1 ↔ 972 ≤ e := by
    simp only
    omega
  unfold UnpackedFloat.pack
  simp only [hlog, hbias, hoverflow]

/-- A mantissa and an exponent of this form stand for what they say, unless that is too large. -/
theorem toRat?_pack_finite (hm : 0 < m) (h : Canonical m e) :
    toRat? ⟨Float.Model.pack (.finite s m e hm)⟩ = finite? (signedValue s (m * 2 ^ e)) := by
  have hbits : (⟨Float.Model.pack (.finite s m e hm)⟩ : Float).toBits.toBitVec =
      UnpackedFloat.pack .binary64 (.finite s m e hm) := rfl
  rw [pack_canonical hm h] at hbits
  have hfinite := h.lt_tooLarge_iff
  have hmagnitude : |(m : Rat) * 2 ^ e| = m * 2 ^ e := abs_of_nonneg (by positivity)
  unfold toRat? finite?
  rw [abs_signedValue, hmagnitude]
  split at hbits
  case isTrue hlarge =>
    rw [if_neg (hfinite.not.mpr (Int.not_lt.mpr hlarge)), decode_of_parts hbits]
    rfl
  case isFalse hsmall =>
    rw [if_pos (hfinite.mpr (Int.not_le.mp hsmall))]
    have hbelow := h.below
    have hleast := h.least
    split at hbits
    case isTrue hfull =>
      have hfield : (BitVec.ofNat 11 (e + 1075).toNat).toNat = (e + 1075).toNat := by
        rw [BitVec.toNat_ofNat]
        omega
      have hfraction : leadingBit + (BitVec.ofNat 52 m).toNat = m := by
        rw [BitVec.toNat_ofNat]
        unfold leadingBit
        omega
      have hexponent : (((e + 1075).toNat : Nat) : Int) - 1075 = e := by omega
      rw [decode_of_parts hbits, hfield, hfraction, if_neg (by omega), if_neg (by omega), hexponent]
      rfl
    case isFalse hshort =>
      have hfinest : e = -1074 := h.fills.resolve_right hshort
      have hfraction : (BitVec.ofNat 52 m).toNat = m := by
        rw [BitVec.toNat_ofNat]
        omega
      rw [decode_of_parts hbits, hfraction, hfinest]
      rfl

/-- A mantissa that carried into a further digit is a full one of the next exponent. -/
theorem canonical_carry (hq : -1074 ≤ q) : Canonical (2 ^ 52) (q + 1) :=
  ⟨by norm_num, by omega, .inr le_rfl⟩

theorem carry_value (q : Int) :
    ((2 ^ 52 : Nat) : Rat) * 2 ^ (q + 1) = ((2 ^ 53 : Nat) : Rat) * 2 ^ q := by
  rw [zpow_add₀ (by norm_num)]
  norm_num
  ring

/-- A rounded mantissa stays as it is, or loses a digit where it carried into a further one. -/
theorem canonical_carried (hn : n ≤ 2 ^ 53) (hq : -1074 ≤ q) (hfills : q = -1074 ∨ 2 ^ 52 ≤ n) :
    let shifted := shiftToTargetExponent .binary64 n q .exact
    Canonical shifted.1.mantissa shifted.2 ∧
      (shifted.1.mantissa : Rat) * 2 ^ shifted.2 = n * 2 ^ q := by
  rcases hn.lt_or_eq with hbelow | rfl
  · have hgrid : gridOf n q ≤ q := by
      have hlog : n.log2 ≤ 52 := by
        by_cases hzero : n = 0
        · rw [hzero, Nat.log2_zero]
          exact Nat.zero_le _
        · exact Nat.le_of_lt_succ ((Nat.log2_lt hzero).mpr hbelow)
      unfold gridOf
      omega
    rw [shiftToTargetExponent_of_ge hgrid]
    exact ⟨⟨hbelow, hq, hfills⟩, rfl⟩
  · have hgrid : gridOf (2 ^ 53) q = q + 1 := by
      unfold gridOf
      rw [Nat.log2_two_pow]
      omega
    have hshift : (q + 1 - q).toNat = 1 := by omega
    rw [shiftToTargetExponent_of_le (by omega), hgrid, hshift]
    simp only
    have hhalf : 2 ^ 53 / 2 ^ 1 = 2 ^ 52 := by norm_num
    rw [(shifted_shiftRight _ 1).mantissa, hhalf]
    exact ⟨canonical_carry hq, carry_value q⟩

private theorem toRat?_pack_zero (s : Sign) : toRat? ⟨Float.Model.pack (.zero s)⟩ = finite? 0 := by
  cases s <;> decide +kernel

/-- A rounding that only shifts digits out packs the rounded magnitude, unless that is too large. -/
theorem toRat?_round (hm : m ≠ 0) (hgrid : e ≤ gridOf m e) :
    ∃ v, RoundsTo (m * 2 ^ e) v ∧
      toRat? ⟨Float.Model.pack (roundWithAccuracy .binary64 s m e .exact)⟩ =
        finite? (signedValue s v) := by
  obtain ⟨shift, hshift⟩ := Int.eq_ofNat_of_zero_le (Int.sub_nonneg.mpr hgrid)
  have hq := onGrid_gridOf hm e
  have hn : Nearest ((m : Rat) * 2 ^ e / 2 ^ gridOf m e)
      (ExtendedMantissa.ofMantissaAndAccuracy m .exact >>> shift).roundedMantissa := by
    have hexponent : gridOf m e = e + shift := by omega
    have hquotient : (m : Rat) * 2 ^ e / 2 ^ gridOf m e = m / (2 ^ shift : Nat) := by
      rw [hexponent, zpow_add₀ (by norm_num), zpow_natCast, mul_comm (m : Rat),
        mul_div_mul_left _ _ (zpow_ne_zero e (by norm_num))]
      push_cast
      rfl
    rw [hquotient]
    exact (shifted_shiftRight m shift).nearest
  have hfirst := shiftToTargetExponent_of_le hgrid
  rw [hshift, Int.toNat_natCast] at hfirst
  obtain ⟨hcanonical, hvalue⟩ :=
    canonical_carried (hq.nearest_le hn) hq.least (hq.le_nearest hn)
  refine ⟨_, ⟨_, _, hq, hn, rfl⟩, ?_⟩
  rw [← hvalue]
  unfold roundWithAccuracy
  simp only [hfirst]
  split
  case isTrue hzero =>
    rw [hzero, Nat.cast_zero, zero_mul, signedValue_zero]
    exact toRat?_pack_zero s
  case isFalse => exact toRat?_pack_finite _ hcanonical

/-- The shape of a finite number that is not zero. -/
theorem canonical_of_unpack {word : BitVec Format.binary64.numBits} {hm : 0 < m}
    (h : UnpackedFloat.unpack .binary64 word = .finite s m e hm) : Canonical m e := by
  have hbias : Format.binary64.exponentBias = 1023 := by decide
  unfold UnpackedFloat.unpack at h
  simp only at h
  split at h
  case isTrue =>
    split at h
    case isTrue => cases h
    case isFalse => cases h
  case isFalse =>
    split at h
    case isTrue hfield =>
      split at h
      case isTrue => cases h
      case isFalse =>
        injection h with _ hmantissa hexponent
        rw [hfield, hbias] at hexponent
        subst hmantissa hexponent
        have hfraction : (unpackMantissa word).toNat < 2 ^ 52 := (unpackMantissa word).isLt
        exact ⟨by omega, by decide, .inl (by decide)⟩
    case isFalse hfield =>
      injection h with _ hmantissa hexponent
      rw [hbias] at hexponent
      subst hmantissa hexponent
      have hfraction : (unpackMantissa word).toNat < 2 ^ 52 := (unpackMantissa word).isLt
      have hnormal : (unpackExponent word).toNat ≠ 0 := fun hzero =>
        hfield (BitVec.eq_of_toNat_eq hzero)
      have hleading : (1#1 ++ unpackMantissa word).toNat = 2 ^ 52 + (unpackMantissa word).toNat := by
        rw [BitVec.toNat_append, ← Nat.shiftLeft_add_eq_or_of_lt hfraction]
        rfl
      rw [hleading]
      refine ⟨by omega, ?_, .inr (by omega)⟩
      push_cast
      omega

/-- A finite number, taken apart. -/
theorem unpack_of_toRat? (h : toRat? x = some a) :
    (∃ s, x.toModel.unpack = .zero s ∧ a = 0) ∨
      ∃ s m e hm, x.toModel.unpack = .finite s m e hm ∧ Canonical m e ∧
        a = signedValue s (m * 2 ^ e) := by
  have hpacked : toRat? ⟨Float.Model.pack x.toModel.unpack⟩ = some a := by
    rw [pack_unpack]
    exact h
  cases hunpack : x.toModel.unpack with
  | notANumber =>
    rw [hunpack] at hpacked
    have hnone : toRat? ⟨Float.Model.pack .notANumber⟩ = none := by decide +kernel
    rw [hnone] at hpacked
    cases hpacked
  | infinity s =>
    rw [hunpack] at hpacked
    have hnone : toRat? ⟨Float.Model.pack (.infinity s)⟩ = none := by cases s <;> decide +kernel
    rw [hnone] at hpacked
    cases hpacked
  | zero s =>
    rw [hunpack, toRat?_pack_zero, finite?_eq_some_iff] at hpacked
    exact .inl ⟨s, rfl, hpacked.2.symm⟩
  | finite s m e hm =>
    rw [hunpack] at hpacked
    have hcanonical := canonical_of_unpack hunpack
    rw [toRat?_pack_finite hm hcanonical, finite?_eq_some_iff] at hpacked
    exact .inr ⟨s, m, e, hm, rfl, hcanonical, hpacked.2.symm⟩

/-- The number `a` is rounded to `v`, its sign apart. -/
def Rounded (a v : Rat) : Prop :=
  ∃ s x w, RoundsTo x w ∧ a = signedValue s x ∧ v = signedValue s w

theorem rounded_zero : Rounded 0 0 := ⟨.positive, 0, 0, roundsTo_zero, rfl, rfl⟩

/-- Rounding keeps the order on both sides of zero. -/
theorem Rounded.mono (ha : Rounded a v) (hb : Rounded b w) (h : a ≤ b) : v ≤ w := by
  obtain ⟨s, x, x', hx, rfl, rfl⟩ := ha
  obtain ⟨t, y, y', hy, rfl, rfl⟩ := hb
  have hx₀ := hx.nonneg_of
  have hy₀ := hy.nonneg_of
  cases s with
  | positive =>
    cases t with
    | positive => exact hx.mono hy h
    | negative =>
      simp only [signedValue_positive, signedValue_negative] at h ⊢
      have hxzero : x = 0 := by linarith
      have hyzero : y = 0 := by linarith
      subst hxzero hyzero
      rw [hx.eq_zero, hy.eq_zero, neg_zero]
  | negative =>
    cases t with
    | positive =>
      simp only [signedValue_positive, signedValue_negative]
      exact (neg_nonpos.mpr hx.nonneg).trans hy.nonneg
    | negative =>
      simp only [signedValue_negative] at h ⊢
      exact neg_le_neg (hy.mono hx (neg_le_neg_iff.mp h))

/-- The product of two mantissas has digits enough for its grid. -/
theorem Canonical.mul_grid (hm : Canonical m e) (hn : Canonical n f) (hpos : 0 < m) (hpos' : 0 < n) :
    e + f ≤ gridOf (m * n) (e + f) := by
  have hlong {i : Nat} (hfull : 2 ^ 52 ≤ i) (hle : i ≤ m * n) : 52 ≤ (m * n).log2 :=
    (Nat.le_log2 (by omega)).mpr (hfull.trans hle)
  unfold gridOf
  rcases hm.fills with he | hfull
  · rcases hn.fills with hf | hfull
    · omega
    · have hlog := hlong hfull (Nat.le_mul_of_pos_left n hpos)
      omega
  · have hlog := hlong hfull (Nat.le_mul_of_pos_right m hpos')
    omega

/-- A product of finite numbers is the exact product, rounded, unless that is too large. -/
theorem toRat?_mul (hx : toRat? x = some a) (hy : toRat? y = some b) :
    ∃ v, Rounded (a * b) v ∧ toRat? (x * y) = finite? v := by
  have hproduct : x * y =
      ⟨Float.Model.pack (UnpackedFloat.mul .binary64 x.toModel.unpack y.toModel.unpack)⟩ := rfl
  rcases unpack_of_toRat? hx with ⟨s, hunpack, rfl⟩ | ⟨s, m, e, hm, hunpack, hcanonical, rfl⟩
  · refine ⟨0, by simpa using rounded_zero, ?_⟩
    rcases unpack_of_toRat? hy with ⟨t, hunpack', -⟩ | ⟨t, n, f, hn, hunpack', -⟩
    · rw [hproduct, hunpack, hunpack']
      exact toRat?_pack_zero _
    · rw [hproduct, hunpack, hunpack']
      exact toRat?_pack_zero _
  · rcases unpack_of_toRat? hy with ⟨t, hunpack', rfl⟩ | ⟨t, n, f, hn, hunpack', hcanonical', rfl⟩
    · refine ⟨0, by simpa using rounded_zero, ?_⟩
      rw [hproduct, hunpack, hunpack']
      exact toRat?_pack_zero _
    · obtain ⟨v, hv, hround⟩ := toRat?_round (s := s * t) (Nat.mul_pos hm hn).ne'
        (hcanonical.mul_grid hcanonical' hm hn)
      refine ⟨signedValue (s * t) v, ⟨s * t, _, v, hv, ?_, rfl⟩, ?_⟩
      · rw [signedValue_mul, zpow_add₀ (by norm_num)]
        push_cast
        ring_nf
      · rw [hproduct, hunpack, hunpack']
        exact hround

/-- A product by a positive factor keeps the order, and is finite between two finite ones. -/
theorem toRat?_mul_between {x₁ x₂ x₃ : Float} {a₁ a₂ a₃ v₁ v₃ : Rat} (hy : toRat? y = some b)
    (hb : 0 < b) (h₁ : toRat? x₁ = some a₁) (h₂ : toRat? x₂ = some a₂) (h₃ : toRat? x₃ = some a₃)
    (h₁₂ : a₁ ≤ a₂) (h₂₃ : a₂ ≤ a₃) (hv₁ : toRat? (x₁ * y) = some v₁)
    (hv₃ : toRat? (x₃ * y) = some v₃) :
    ∃ v₂, toRat? (x₂ * y) = some v₂ ∧ v₁ ≤ v₂ ∧ v₂ ≤ v₃ := by
  obtain ⟨w₁, hw₁, hproduct₁⟩ := toRat?_mul h₁ hy
  obtain ⟨w₂, hw₂, hproduct₂⟩ := toRat?_mul h₂ hy
  obtain ⟨w₃, hw₃, hproduct₃⟩ := toRat?_mul h₃ hy
  rw [hproduct₁, finite?_eq_some_iff] at hv₁
  rw [hproduct₃, finite?_eq_some_iff] at hv₃
  obtain ⟨hfinite₁, rfl⟩ := hv₁
  obtain ⟨hfinite₃, rfl⟩ := hv₃
  have hlow : w₁ ≤ w₂ := hw₁.mono hw₂ (mul_le_mul_of_nonneg_right h₁₂ hb.le)
  have hhigh : w₂ ≤ w₃ := hw₂.mono hw₃ (mul_le_mul_of_nonneg_right h₂₃ hb.le)
  refine ⟨w₂, ?_, hlow, hhigh⟩
  rw [hproduct₂]
  exact finite?_of_between hfinite₁ hfinite₃ hlow hhigh

end Reckon.Binary64
