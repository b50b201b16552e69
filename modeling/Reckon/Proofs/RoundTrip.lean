import Reckon.Proofs.Arithmetic.Refusal
import Reckon.Proofs.Decimal.Shape
import Reckon.Proofs.Expr.Arrangement
import Reckon.Proofs.Expr.Reduction
import Reckon.Proofs.Rational.Size

/-!
The exact text of a number is an expression for it. A decimal is one literal, and a fraction is the
division of its numerator by its denominator, which the limits must allow. There is no sign in front of
a value, so that a negative number is refused by itself and is read after a zero, as what is taken away
from it.
-/

namespace Reckon

open Decimal Rational Run Token

variable {limits : Limits} {r v w : Rat} {text : String} {tokens : List Token} {tree : Expr}

/-- A text that the three stages, one after another, take to a value. -/
def ReadsAs (limits : Limits) (text : String) (value : Rat) : Prop :=
  ∃ tokens arranged, Token.scan text = .ok tokens ∧ Postfix.ofTokens tokens = .ok arranged ∧
    Postfix.reduce limits arranged = .ok value

theorem ReadsAs.unique (hv : ReadsAs limits text v) (hw : ReadsAs limits text w) : v = w := by
  obtain ⟨tokens, arranged, hscan, harranged, hreduce⟩ := hv
  obtain ⟨tokens', arranged', hscan', harranged', hreduce'⟩ := hw
  obtain rfl := Except.ok.inj (hscan.symm.trans hscan')
  obtain rfl := Except.ok.inj (harranged.symm.trans harranged')
  exact Except.ok.inj (hreduce.symm.trans hreduce')

private theorem readsAs_of_spells (hspells : Spells text.toList tokens)
    (hderives : Derives .sum tokens tree)
    (hvalue : tree.value limits = .ok v) : ReadsAs limits text v := by
  have hscan : Token.scan text = .ok tokens := by
    rw [scan_eq_ok_iff]
    refine ⟨hspells, ?_⟩
    rintro rfl
    exact hderives.tokens_ne_nil rfl
  refine ⟨tokens, tree.postorder, hscan, Postfix.ofTokens_of_derives hderives, ?_⟩
  rw [Postfix.reduce_postorder, hvalue]
  rfl

theorem Postfix.ofTokens_op_cons (op : Op) (tokens : List Token) :
    ofTokens (.op op :: tokens) = .error .missingOperand := by
  have hstep : State.start.step (.op op) = .error .missingOperand := rfl
  unfold ofTokens
  rw [cons_of_error hstep]
  rfl

/-- A quotient of two whole numbers within the limits, as a tree. -/
theorem value_quotient {n d : Nat} (hd : d ≠ 0)
    (hlimits : bitLength n + bitLength d + 2 ≤ 2 * limits.maxBits) :
    (Expr.node .div (.num n) (.num d)).value limits = .ok (n / d) := by
  rw [Expr.value_node .div rfl rfl]
  apply Op.apply_div_of_le
  · exact_mod_cast hd
  · rw [size_natCast, size_natCast]
    omega

/-- The sign of a number is that of the numerator of any fraction for it, and so is the magnitude. -/
theorem magnitude_of_fraction {m : Int} {d : Rat} (hd : 0 < d) (hr : r * d = m) :
    (m < 0 ↔ r < 0) ∧ (m.natAbs : Rat) / d = |r| := by
  constructor
  · rw [← not_le, ← not_le, not_iff_not, ← Int.cast_nonneg_iff (R := Rat), ← hr]
    exact mul_nonneg_iff_of_pos_right hd
  · rw [Nat.cast_natAbs, Int.cast_abs, ← hr, abs_mul, abs_of_pos hd, mul_div_cancel_right₀ _ hd.ne']

/-- The text is a sign and a text without one, which spells a product for the magnitude. -/
def SpellsMagnitude (limits : Limits) (r : Rat) (text : String) : Prop :=
  ∃ (unsigned : String) (tokens : List Token) (tree : Expr),
    text = (if r < 0 then "-" else "") ++ unsigned ∧ Spells unsigned.toList tokens ∧
      Derives .product tokens tree ∧ tree.value limits = .ok |r|

private theorem spellsMagnitude_decimal (limits : Limits) (h : EndsWithin maxPlaces r) :
    SpellsMagnitude limits r (Decimal.exact r) := by
  obtain ⟨m, places, hplaces, hm, hexact⟩ := exact_of_endsWithin h
  obtain ⟨hsign, hmagnitude⟩ := magnitude_of_fraction (by positivity) hm
  have hnumeral := numeral_scaled m.natAbs hplaces
  rw [hmagnitude] at hnumeral
  refine ⟨scaled m.natAbs places, [.num |r|], .num |r|, ?_, ?_, ?_, rfl⟩
  · rw [hexact, scaled_eq_sign]
    simp only [hsign]
  · simpa using hnumeral.spells .nil .nil
  · exact (Derives.num |r|).loosen (by decide)

private theorem spellsMagnitude_fraction (hlimits : size r + 2 ≤ 2 * limits.maxBits)
    (h : ¬EndsWithin maxPlaces r) : SpellsMagnitude limits r (Decimal.exact r) := by
  have hden : (0 : Rat) < r.den := by exact_mod_cast r.den_pos
  obtain ⟨hsign, hmagnitude⟩ := magnitude_of_fraction hden (Rat.mul_den_eq_num r)
  have hdivisor : Spells ('/' :: (toString r.den).toList) [.op .div, .num r.den] := by
    have hnumber := (numeral_natCast r.den).spells .nil .nil
    rw [List.append_nil] at hnumber
    exact .symbol (by decide) hnumber
  refine ⟨toString r.num.natAbs ++ "/" ++ toString r.den,
    [.num r.num.natAbs] ++ .op .div :: [.num r.den], .node .div (.num r.num.natAbs) (.num r.den),
    ?_, ?_, ?_, ?_⟩
  · rw [exact_of_not_endsWithin h, ← scaled_zero, scaled_eq_sign, scaled_zero]
    simp only [hsign, String.append_assoc]
    rfl
  · have hbreaks : Breaks ('/' :: (toString r.den).toList) := .cons (by decide) _
    simpa [String.toList_append] using (numeral_natCast r.num.natAbs).spells hbreaks hdivisor
  · exact .mul .div (by decide) ((Derives.num _).loosen (by decide)) ((Derives.num _).loosen (by decide))
  · rw [value_quotient r.den_nz hlimits, hmagnitude]

theorem spellsMagnitude_exact (hlimits : size r + 2 ≤ 2 * limits.maxBits) :
    SpellsMagnitude limits r (Decimal.exact r) := by
  by_cases h : EndsWithin maxPlaces r
  · exact spellsMagnitude_decimal limits h
  · exact spellsMagnitude_fraction hlimits h

theorem readsAs_exact_of_nonneg (hlimits : size r + 2 ≤ 2 * limits.maxBits) (hr : 0 ≤ r) :
    ReadsAs limits (Decimal.exact r) r := by
  obtain ⟨unsigned, tokens, tree, htext, hspells, hderives, hvalue⟩ := spellsMagnitude_exact hlimits
  rw [if_neg (not_lt.mpr hr), String.empty_append] at htext
  rw [abs_of_nonneg hr] at hvalue
  rw [htext]
  exact readsAs_of_spells hspells (hderives.loosen (by decide)) hvalue

private theorem ofTokens_exact_of_neg (hr : r < 0) :
    ∃ tokens, Token.scan (Decimal.exact r) = .ok tokens ∧
      Postfix.ofTokens tokens = .error .missingOperand := by
  -- how the text is spelled hangs on no limits, so that any wide enough ones do
  have hwide : size r + 2 ≤ 2 * (Limits.mk 0 (size r + 2)).maxBits := by
    dsimp only
    omega
  obtain ⟨unsigned, tokens, -, htext, hspells, -⟩ := spellsMagnitude_exact hwide
  refine ⟨.op .sub :: tokens, ?_, Postfix.ofTokens_op_cons .sub tokens⟩
  rw [scan_eq_ok_iff, htext, if_pos hr, String.toList_append]
  exact ⟨.symbol (by decide) hspells, by simp⟩

theorem not_readsAs_exact_of_neg (hr : r < 0) : ¬ReadsAs limits (Decimal.exact r) v := by
  rintro ⟨tokens, arranged, hscan, harranged, -⟩
  obtain ⟨tokens', hscan', hrefused⟩ := ofTokens_exact_of_neg hr
  obtain rfl := Except.ok.inj (hscan.symm.trans hscan')
  cases harranged.symm.trans hrefused

theorem readsAs_zero_exact_of_neg (hlimits : size r + 2 ≤ 2 * limits.maxBits) (hr : r < 0) :
    ReadsAs limits ("0" ++ Decimal.exact r) r := by
  obtain ⟨unsigned, tokens, tree, htext, hspells, hderives, hvalue⟩ := spellsMagnitude_exact hlimits
  rw [if_pos hr] at htext
  have hdifference : Spells ("0" ++ Decimal.exact r).toList ([.num 0] ++ .op .sub :: tokens) := by
    have hminus : Spells ('-' :: unsigned.toList) (.op .sub :: tokens) := .symbol (by decide) hspells
    have hspelled := (numeral_natCast 0).spells (.cons (by decide) _) hminus
    rw [htext, String.toList_append, String.toList_append]
    simpa using hspelled
  have htree : Derives .sum ([.num 0] ++ .op .sub :: tokens) (.node .sub (.num 0) tree) :=
    .add .sub (by decide) ((Derives.num 0).loosen (by decide)) hderives
  apply readsAs_of_spells hdifference htree
  have hsize : size 0 + size |r| ≤ 2 * limits.maxBits := by
    have hzero : size 0 = 1 := rfl
    rw [hzero, abs_of_neg hr, size_neg]
    omega
  rw [Expr.value_node .sub rfl hvalue, Op.apply_sub_of_le hsize, abs_of_neg hr]
  simp

/-- Read under limits that are wide enough for both, one text has one value. -/
theorem exact_injective : Function.Injective Decimal.exact := by
  intro r s htext
  let limits : Limits := ⟨0, size r + size s + 2⟩
  have hr : size r + 2 ≤ 2 * limits.maxBits := by
    simp only [limits]
    omega
  have hs : size s + 2 ≤ 2 * limits.maxBits := by
    simp only [limits]
    omega
  rcases lt_or_ge r 0 with hrneg | hrnonneg <;> rcases lt_or_ge s 0 with hsneg | hsnonneg
  · have hread := readsAs_zero_exact_of_neg hr hrneg
    rw [htext] at hread
    exact hread.unique (readsAs_zero_exact_of_neg hs hsneg)
  · exact absurd (htext ▸ readsAs_exact_of_nonneg hs hsnonneg) (not_readsAs_exact_of_neg hrneg)
  · exact absurd (htext ▸ readsAs_exact_of_nonneg hr hrnonneg) (not_readsAs_exact_of_neg hsneg)
  · have hread := readsAs_exact_of_nonneg hr hrnonneg
    rw [htext] at hread
    exact hread.unique (readsAs_exact_of_nonneg hs hsnonneg)

/-- The exact text of a number reads back as that number, a negative one behind a zero. So no two
numbers have the same exact text. -/
theorem exact_reads_back :
    (∀ (limits : Limits) (r : Rat), size r + 2 ≤ 2 * limits.maxBits →
      (0 ≤ r → ReadsAs limits (Decimal.exact r) r) ∧
      (r < 0 → (∃ tokens, Token.scan (Decimal.exact r) = .ok tokens ∧
          Postfix.ofTokens tokens = .error .missingOperand) ∧
        ReadsAs limits ("0" ++ Decimal.exact r) r)) ∧
    Function.Injective Decimal.exact := by
  refine ⟨?_, exact_injective⟩
  intro limits r hlimits
  refine ⟨readsAs_exact_of_nonneg hlimits, ?_⟩
  intro hr
  exact ⟨ofTokens_exact_of_neg hr, readsAs_zero_exact_of_neg hlimits hr⟩

/-- A fraction whose numerator and denominator use up the limits, on both sides of zero. -/
theorem exact_reads_back_sixths :
    size (1 / 6) + 2 ≤ 2 * (Limits.mk 0 3).maxBits ∧ ReadsAs ⟨0, 3⟩ "1/6" (1 / 6) ∧
      size (-1 / 6) + 2 ≤ 2 * (Limits.mk 0 3).maxBits ∧ ReadsAs ⟨0, 3⟩ "0-1/6" (-1 / 6) := by
  have hpos : size (1 / 6) + 2 ≤ 2 * (Limits.mk 0 3).maxBits := by decide +kernel
  have hneg : size (-1 / 6) + 2 ≤ 2 * (Limits.mk 0 3).maxBits := by decide +kernel
  have htext : Decimal.exact (1 / 6) = "1/6" := by decide +kernel
  have htext' : "0" ++ Decimal.exact (-1 / 6) = "0-1/6" := by decide +kernel
  refine ⟨hpos, ?_, hneg, ?_⟩
  · rw [← htext]
    exact (exact_reads_back.1 ⟨0, 3⟩ (1 / 6) hpos).1 (by decide +kernel)
  · rw [← htext']
    exact ((exact_reads_back.1 ⟨0, 3⟩ (-1 / 6) hneg).2 (by decide +kernel)).2

end Reckon
