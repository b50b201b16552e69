import Mathlib
import Reckon.Binary64.Basic

/-!
The sign of a binary64 number stands apart from all the rest of it. A float with the other sign is the
opposite rational, and a product of which one factor changes its sign changes its sign and nothing
else, since rounding never looks at the sign.
-/

namespace Reckon.Binary64

open Float.Model Float.Model.UnpackedFloat

variable {x y : Float} {s : Sign} {e : BitVec 11} {m : BitVec 52}

/-- What a word with the other sign stands for. -/
def Datum.opposite : Datum → Datum
  | .notANumber => .notANumber
  | .infinite negative => .infinite !negative
  | .finite negative mantissa exponent => .finite (!negative) mantissa exponent

theorem Datum.toRat?_opposite (d : Datum) : d.opposite.toRat? = d.toRat?.map (- ·) := by
  cases d with
  | notANumber => rfl
  | infinite negative => rfl
  | finite negative mantissa exponent =>
    cases negative with
    | false => rfl
    | true =>
      simp only [opposite, toRat?, Option.map_some, Option.some.injEq]
      exact (neg_neg _).symm

/-- A word is its sign, its exponent field and its fraction in a row. -/
theorem toNat_packComponents (s : Sign) (e : BitVec 11) (m : BitVec 52) :
    (packComponents .binary64 s e m).toNat =
      s.toBitVec.toNat * signBit + e.toNat * leadingBit + m.toNat := by
  have hm : m.toNat < 2 ^ 52 := m.isLt
  have he : e.toNat < 2 ^ 11 := e.isLt
  change (s.toBitVec ++ e ++ m).toNat = _
  rw [BitVec.toNat_append, BitVec.toNat_append, ← Nat.shiftLeft_add_eq_or_of_lt hm,
    ← Nat.shiftLeft_add_eq_or_of_lt he, Nat.shiftLeft_eq, Nat.shiftLeft_eq]
  unfold signBit leadingBit
  ring

/-- Whether a sign is a minus. -/
def isMinus : Sign → Bool
  | .negative => true
  | .positive => false

theorem decode_of_parts (hx : x.toBits.toBitVec = packComponents .binary64 s e m) :
    decode x =
      if e.toNat = 2047 then if m.toNat = 0 then .infinite (isMinus s) else .notANumber
      else if e.toNat = 0 then .finite (isMinus s) m.toNat (-1074)
      else .finite (isMinus s) (leadingBit + m.toNat) ((e.toNat : Int) - 1075) := by
  have hm : m.toNat < leadingBit := m.isLt
  have he : e.toNat < 2048 := e.isLt
  have hword : x.toBits.toNat =
      s.toBitVec.toNat * signBit + e.toNat * leadingBit + m.toNat := by
    rw [← toNat_packComponents, ← hx]
    rfl
  have hfield : x.toBits.toNat / leadingBit % 2048 = e.toNat := by
    unfold signBit leadingBit at *
    omega
  have hfraction : x.toBits.toNat % leadingBit = m.toNat := by
    unfold signBit leadingBit at *
    omega
  have hsign : decide (signBit ≤ x.toBits.toNat) = isMinus s := by
    cases s with
    | negative =>
      have hbit : Sign.negative.toBitVec.toNat = 1 := rfl
      rw [hbit, Nat.one_mul] at hword
      simp only [isMinus, decide_eq_true_eq]
      omega
    | positive =>
      have hbit : Sign.positive.toBitVec.toNat = 0 := rfl
      simp only [isMinus, decide_eq_false_iff_not]
      unfold signBit leadingBit at *
      omega
  unfold decode
  simp only [hfield, hfraction, hsign]

private theorem decode_opposite (hx : x.toBits.toBitVec = packComponents .binary64 s e m)
    (hy : y.toBits.toBitVec = packComponents .binary64 (-s) e m) :
    decode y = (decode x).opposite := by
  have hminus : isMinus (-s) = !isMinus s := by
    cases s <;> rfl
  rw [decode_of_parts hx, decode_of_parts hy, hminus]
  split
  · split
    · rfl
    · rfl
  · split
    · rfl
    · rfl

/-- Packing a number with the other sign changes the sign of its word. What is not a number has one
word only. -/
theorem pack_neg (u : UnpackedFloat) : u = .notANumber ∨ ∃ s e m,
    UnpackedFloat.pack .binary64 u = packComponents .binary64 s e m ∧
      UnpackedFloat.pack .binary64 u.neg = packComponents .binary64 (-s) e m := by
  cases u with
  | notANumber => exact .inl rfl
  | infinity s => exact .inr ⟨s, _, _, rfl, rfl⟩
  | zero s => exact .inr ⟨s, _, _, rfl, rfl⟩
  | finite s m e hm =>
    right
    unfold UnpackedFloat.neg UnpackedFloat.pack
    simp only
    split
    · exact ⟨s, _, _, rfl, rfl⟩
    · split
      · exact ⟨s, _, _, rfl, rfl⟩
      · exact ⟨s, _, _, rfl, rfl⟩

private theorem decode_pack_neg (u : UnpackedFloat) :
    decode ⟨Float.Model.pack u.neg⟩ = (decode ⟨Float.Model.pack u⟩).opposite := by
  rcases pack_neg u with rfl | ⟨s, e, m, hu, hneg⟩
  · decide +kernel
  · exact decode_opposite hu hneg

theorem pack_unpack (x : Float) : Float.Model.pack x.toModel.unpack = x.toModel := by
  have hbits := pack_unpack_of_valid x.toModel.valid
  unfold Float.Model.pack Float.Model.unpack
  simp only [hbits]

private theorem decode_neg (x : Float) : decode (-x) = (decode x).opposite := by
  have hneg := decode_pack_neg x.toModel.unpack
  rw [pack_unpack] at hneg
  exact hneg

theorem sign_neg_mul (s t : Sign) : -s * t = -(s * t) := by
  cases s <;> cases t <;> rfl

/-- Rounding does not look at the sign. -/
theorem roundWithAccuracy_neg (spec : Format) (s : Sign) (mantissa : Nat) (exponent : Int)
    (accuracy : Accuracy) :
    roundWithAccuracy spec (-s) mantissa exponent accuracy =
      (roundWithAccuracy spec s mantissa exponent accuracy).neg := by
  unfold roundWithAccuracy
  simp only
  split
  · rfl
  · rfl

private theorem neg_mul_unpacked (spec : Format) (u v : UnpackedFloat) :
    UnpackedFloat.mul spec u.neg v = (UnpackedFloat.mul spec u v).neg := by
  cases u with
  | notANumber => cases v <;> rfl
  | infinity s => cases v <;> simp only [UnpackedFloat.mul, UnpackedFloat.neg, sign_neg_mul]
  | zero s => cases v <;> simp only [UnpackedFloat.mul, UnpackedFloat.neg, sign_neg_mul]
  | finite s m e hm =>
    cases v with
    | finite t n f hn =>
      change roundWithAccuracy spec (-s * t) (m * n) (e + f) .exact = _
      rw [sign_neg_mul]
      exact roundWithAccuracy_neg spec (s * t) (m * n) (e + f) .exact
    | notANumber | infinity | zero =>
      simp only [UnpackedFloat.mul, UnpackedFloat.neg, sign_neg_mul]

/-- A word with the other sign is read with the other sign. -/
theorem unpack_packComponents_neg (s : Sign) (e : BitVec 11) (m : BitVec 52) :
    UnpackedFloat.unpack .binary64 (packComponents .binary64 (-s) e m) =
      (UnpackedFloat.unpack .binary64 (packComponents .binary64 s e m)).neg := by
  unfold UnpackedFloat.unpack
  simp only [unpackSign_packComponents, unpackExponent_packComponents,
    unpackMantissa_packComponents, Sign.ofBitVec_toBitVec]
  split
  · split
    · rfl
    · rfl
  · split
    · split
      · rfl
      · rfl
    · rfl

private theorem unpack_neg (x : Float) : (-x).toModel.unpack = x.toModel.unpack.neg := by
  have hx : UnpackedFloat.pack .binary64 x.toModel.unpack = x.toModel.toBits.toBitVec :=
    pack_unpack_of_valid x.toModel.valid
  change UnpackedFloat.unpack .binary64 (UnpackedFloat.pack .binary64 x.toModel.unpack.neg) = _
  rcases pack_neg x.toModel.unpack with hnan | ⟨s, e, m, hu, hneg⟩
  · rw [hnan]
    exact unpack_packedNaN
  · rw [hneg, unpack_packComponents_neg, ← hu, hx]
    rfl

private theorem decode_neg_mul (x y : Float) : decode (-x * y) = (decode (x * y)).opposite := by
  have hneg := decode_pack_neg (UnpackedFloat.mul .binary64 x.toModel.unpack y.toModel.unpack)
  rw [← neg_mul_unpacked, ← unpack_neg] at hneg
  exact hneg

theorem toRat?_neg (x : Float) : toRat? (-x) = (toRat? x).map (- ·) := by
  unfold toRat?
  rw [decode_neg, Datum.toRat?_opposite]

theorem toRat?_neg_mul (x y : Float) : toRat? (-x * y) = (toRat? (x * y)).map (- ·) := by
  unfold toRat?
  rw [decode_neg_mul, Datum.toRat?_opposite]

end Reckon.Binary64
