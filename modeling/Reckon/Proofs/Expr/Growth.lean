import Mathlib.Tactic
import Reckon.Proofs.Arithmetic.Growth
import Reckon.Proofs.Decimal.Numeral
import Reckon.Proofs.Evaluation

/-!
No number on the stack of values is large. A literal is bounded by its own length, and a result by the
limits under which its operands were accepted, so that at every point of an evaluation the limits
alone bound all that stands on the stack.
-/

namespace Reckon

open Rational Run

variable {limits : Limits} {text run : List Char} {tokens arranged read rest : List Token}
  {token : Token} {stack next : List Rat} {value : Rat}

private theorem ofDigitChars_lt (digits : List Char) (h : ∀ c ∈ digits, c.isDigit = true) :
    Nat.ofDigitChars 10 digits 0 < 10 ^ digits.length := by
  induction digits with
  | nil => decide
  | cons c rest ih =>
    have hc : 48 ≤ c.toNat ∧ c.toNat ≤ 57 := Char.isDigit_iff_toNat.mp (h c (by simp))
    have hrest := ih fun d hd => h d (by simp [hd])
    have hdigit : c.toNat - '0'.toNat ≤ 9 := by
      change c.toNat - 48 ≤ 9
      omega
    have hscaled := Nat.mul_le_mul_left (10 ^ rest.length) hdigit
    rw [Nat.ofDigitChars_cons, Nat.ofDigitChars_eq_ofDigitChars_zero, List.length_cons,
      Nat.pow_succ, Nat.mul_zero, Nat.zero_add]
    omega

/-- A literal has at most eight bits for each of its characters. -/
theorem size_literal_le (hrun : ∀ c ∈ run, Token.isNumeral c = true)
    (h : Token.literal? run = some value) : size value ≤ 8 * run.length := by
  obtain ⟨digits, places, rfl, hdigits, hplaces, hpos, hlength⟩ := Token.literal_digits hrun h
  have hbelow : 10 ^ digits.length < 2 ^ (4 * digits.length) := by
    rw [Nat.pow_mul]
    exact Nat.pow_lt_pow_left (by decide) hpos.ne'
  have hnum : (Nat.ofDigitChars 10 digits 0 : Int).natAbs < 2 ^ (4 * digits.length) :=
    lt_trans (ofDigitChars_lt digits hdigits) hbelow
  have hden : 10 ^ places < 2 ^ (4 * digits.length) :=
    lt_of_le_of_lt (Nat.pow_le_pow_right (by decide) hplaces) hbelow
  have hne : 10 ^ places ≠ 0 := (Nat.pow_pos (by decide)).ne'
  have hr : mkRat (Nat.ofDigitChars 10 digits 0) (10 ^ places) * (10 ^ places : Nat) =
      (Nat.ofDigitChars 10 digits 0 : Int) := by
    rw [Rat.mkRat_eq_div, div_mul_cancel₀]
    exact_mod_cast hne
  have hsize := size_le_of_fraction hne hr hnum hden
  omega

private theorem size_spelled_le (h : Token.Spells text tokens) (hvalue : .num value ∈ tokens) :
    size value ≤ 8 * text.length := by
  obtain ⟨literal, hnumerals, hliteral, hlength⟩ := h.literal hvalue
  exact le_trans (size_literal_le hnumerals hliteral) (Nat.mul_le_mul_left 8 hlength)

/-- The most bits that a number may have which a token puts on the stack. -/
def Token.bound (limits : Limits) : Token → Nat
  | .num _ => 8 * limits.maxLength
  | .op .pow => max limits.maxBits 1128
  | .op _ => 4 * limits.maxBits
  | .lparen | .rparen => 0

/-- The most bits that any number on the stack may have. -/
def Limits.stackBound (limits : Limits) : Nat :=
  max (4 * limits.maxBits) (max 1128 (8 * limits.maxLength))

private theorem bound_le_stackBound (limits : Limits) (token : Token) :
    token.bound limits ≤ limits.stackBound := by
  unfold Limits.stackBound
  cases token with
  | num _ =>
    simp only [Token.bound]
    omega
  | op op =>
    cases op <;> simp only [Token.bound] <;> omega
  | lparen => exact Nat.zero_le _
  | rparen => exact Nat.zero_le _

/-- One accepted token puts one number on the stack, and takes others away at most. -/
theorem push_bounded (hlimits : limits.maxBits < 2 ^ 63)
    (hliteral : ∀ v, token = .num v → size v ≤ 8 * limits.maxLength)
    (hpush : Postfix.push limits stack token = .ok next) :
    ∃ value below, next = value :: below ∧ size value ≤ token.bound limits ∧
      ∀ v ∈ below, v ∈ stack := by
  cases token with
  | num v =>
    cases hpush
    exact ⟨v, stack, rfl, hliteral v rfl, fun v hv => hv⟩
  | op op =>
    rcases stack with _ | ⟨b, _ | ⟨a, below⟩⟩
    · cases hpush
    · cases hpush
    · obtain ⟨value, happly, rfl⟩ := Postfix.push_op_eq_ok hpush
      refine ⟨value, below, rfl, ?_, fun v hv => by simp [hv]⟩
      by_cases hop : op = .pow
      · subst hop
        exact Op.size_raise_le hlimits happly
      · have hsize := Op.size_apply_le hlimits hop happly
        cases op with
        | pow => exact absurd rfl hop
        | _ => exact hsize
  | lparen => cases hpush
  | rparen => cases hpush

/-- A run whose literals are bounded keeps its whole stack bounded. -/
theorem run_bounded (hlimits : limits.maxBits < 2 ^ 63)
    (hliterals : ∀ v, .num v ∈ tokens → size v ≤ 8 * limits.maxLength)
    (hrun : tokens.foldlM (Postfix.push limits) [] = .ok stack) :
    ∀ value ∈ stack, size value ≤ limits.stackBound := by
  -- the literals of what was read, not of the whole list, so that a step extends it
  let Inv (read : List Token) (stack : List Rat) : Prop :=
    (∀ v, .num v ∈ read → size v ≤ 8 * limits.maxLength) →
      ∀ value ∈ stack, size value ≤ limits.stackBound
  have hstart : Inv [] [] := by
    intro _ value hvalue
    cases hvalue
  have hstep : ∀ read stack token next, Inv read stack →
      Postfix.push limits stack token = .ok next → Inv (read ++ [token]) next := by
    intro read stack token next hinv hpush hread value hvalue
    have hliteral : ∀ v, token = .num v → size v ≤ 8 * limits.maxLength := by
      rintro v rfl
      exact hread v (by simp)
    obtain ⟨top, below, rfl, htop, hbelow⟩ := push_bounded hlimits hliteral hpush
    rcases List.mem_cons.mp hvalue with rfl | hvalue
    · exact le_trans htop (bound_le_stackBound limits token)
    · exact hinv (fun v hv => hread v (by simp [hv])) value (hbelow value hvalue)
  have hinv : Inv tokens stack := invariant hstep [] tokens hstart hrun
  exact hinv hliterals

/-- How far the evaluation of a text has come: the tokens `read` of the arranged ones have built
`stack`, and the tokens `rest` are still to be read. -/
def Reaches (limits : Limits) (text : String) (read rest : List Token) (stack : List Rat) : Prop :=
  checkLength limits text = .ok () ∧
    ∃ tokens, Token.scan text = .ok tokens ∧ Postfix.ofTokens tokens = .ok (read ++ rest) ∧
      read.foldlM (Postfix.push limits) [] = .ok stack

private theorem size_arranged_le {text : String} (h : Reaches limits text read rest stack)
    (hvalue : .num value ∈ read ++ rest) : size value ≤ 8 * limits.maxLength := by
  obtain ⟨hlength, tokens, hscan, harranged, -⟩ := h
  -- arranging adds no number, so that this one is a literal of the text
  have hmem : .num value ∈ tokens := Postfix.mem_of_mem_arranged harranged hvalue
  have hsize := size_spelled_le ((Token.scan_eq_ok_iff text).mp hscan).1 hmem
  have hle := length_le_of_checkLength hlength
  rw [String.length_toList] at hsize
  omega

/-- At every point of every evaluation all numbers on the stack are bounded by the limits, and the
next token, if it is accepted, puts one number on top that is bounded by its kind. -/
theorem stack_bounded (limits : Limits) (text : String) (read rest : List Token)
    (stack : List Rat) (hlimits : limits.maxBits < 2 ^ 63)
    (h : Reaches limits text read rest stack) :
    (∀ value ∈ stack, size value ≤ limits.stackBound) ∧
    (∀ token more next, rest = token :: more → Postfix.push limits stack token = .ok next →
      ∃ value below, next = value :: below ∧ size value ≤ token.bound limits) := by
  refine ⟨?_, ?_⟩
  · obtain ⟨-, -, -, -, hrun⟩ := id h
    refine run_bounded hlimits ?_ hrun
    intro v hv
    exact size_arranged_le h (by simp [hv])
  · rintro token more next rfl hpush
    have hliteral : ∀ v, token = .num v → size v ≤ 8 * limits.maxLength := by
      rintro v rfl
      exact size_arranged_le h (by simp)
    obtain ⟨value, below, hnext, hsize, -⟩ := push_bounded hlimits hliteral hpush
    exact ⟨value, below, hnext, hsize⟩

/-- The division of one third, just before it is done. -/
theorem stack_bounded_third :
    Limits.standard.maxBits < 2 ^ 63 ∧
      Reaches .standard "1/3" [.num 1, .num 3] [.op .div] [3, 1] ∧
      (∀ value ∈ [(3 : Rat), 1], size value ≤ Limits.standard.stackBound) ∧
      Postfix.push .standard [3, 1] (.op .div) = .ok [1 / 3] ∧
      size (1 / 3 : Rat) ≤ 4 * 65536 := by
  have hreaches : Reaches .standard "1/3" [.num 1, .num 3] [.op .div] [3, 1] :=
    ⟨by decide, [.num 1, .op .div, .num 3], by decide +kernel, by decide +kernel, rfl⟩
  have hpush : Postfix.push .standard [3, 1] (.op .div) = .ok [1 / 3] := by decide +kernel
  have h := stack_bounded .standard "1/3" _ _ _ (by decide) hreaches
  obtain ⟨value, below, hnext, hsize⟩ := h.2 (.op .div) [] _ rfl hpush
  cases hnext
  exact ⟨by decide, hreaches, h.1, hpush, hsize⟩

end Reckon
