import Reckon.Proofs.Decimal.Shape
import Reckon.Proofs.Evaluation

/-!
The workings of an evaluation can be read again. Tokens written in a row with spaces between them are
scanned as the same tokens, also where no expression would have them side by side, because a space ends
every number. The numbers of a text are literals, whose expansions end within its length, and so none
of them is written as a fraction.
-/

namespace Reckon

open Decimal Run Token

variable {rest : List Char} {token : Token} {tokens arranged more : List Token} {text : String}
  {value : Rat}

private theorem spells_text (hplain : ∀ value, token = .num value → Plain value)
    (hbreaks : Breaks rest)
    (hrest : Spells rest more) : Spells (token.text.toList ++ rest) (token :: more) := by
  cases token with
  | num value =>
    have hnumeral := Decimal.numeral_exact (hplain value rfl)
    exact hnumeral.spells hbreaks hrest
  | op op =>
    have hop : Token.ofChar? op.symbol = some (.op op) := by
      cases op <;> decide
    simpa [Token.text, Op.text] using Spells.symbol hop hrest
  | lparen => exact .symbol (by decide) hrest
  | rparen => exact .symbol (by decide) hrest

private theorem spells_join (hplain : ∀ value, .num value ∈ tokens → Plain value) :
    Spells (Token.join tokens).toList tokens := by
  induction tokens with
  | nil => exact .nil
  | cons token others ih =>
    have htoken : ∀ value, token = .num value → Plain value := by
      rintro value rfl
      exact hplain value (by simp)
    have hothers := ih fun value hvalue => hplain value (by simp [hvalue])
    cases others with
    | nil => simpa [Token.join] using spells_text htoken .nil .nil
    | cons next more =>
      have hspace : Spells (' ' :: (Token.join (next :: more)).toList) (next :: more) :=
        .blank (by decide) hothers
      have hbreaks : Breaks (' ' :: (Token.join (next :: more)).toList) := .cons (by decide) _
      have hjoin : Token.join (token :: next :: more) =
          token.text ++ " " ++ Token.join (next :: more) := by
        simp only [Token.join, List.map_cons, String.intercalate_cons_cons]
      rw [hjoin, String.toList_append, String.toList_append, List.append_assoc]
      exact spells_text htoken hbreaks hspace

theorem scan_join (hne : tokens ≠ []) (hplain : ∀ value, .num value ∈ tokens → Plain value) :
    Token.scan (Token.join tokens) = .ok tokens := by
  rw [scan_eq_ok_iff]
  exact ⟨spells_join hplain, hne⟩

/-- The numbers of a text that is not too long are plain. -/
theorem plain_of_scan (hscan : Token.scan text = .ok tokens)
    (hlength : text.length ≤ Decimal.maxPlaces) (hvalue : .num value ∈ tokens) : Plain value := by
  obtain ⟨hspells, -⟩ := (scan_eq_ok_iff text).mp hscan
  obtain ⟨run, hrun, hliteral, hrunlength⟩ := hspells.literal hvalue
  obtain ⟨hnonneg, hends⟩ := literal_ends hrun hliteral
  rw [String.length_toList] at hrunlength
  exact ⟨hnonneg, hends.mono (Nat.le_trans hrunlength hlength)⟩

private theorem arranged_ne_nil {limits : Limits} (h : Postfix.reduce limits arranged = .ok value) :
    arranged ≠ [] := by
  rintro rfl
  cases h

/-- The workings replay the evaluation. Plain tokens in a row are scanned as they are; and where a text
has a value, its written tokens are arranged as its written arrangement says, and that arrangement
computes the value. -/
theorem workings_replay :
    (∀ tokens : List Token, tokens ≠ [] → (∀ value, .num value ∈ tokens → Plain value) →
      Token.scan (Token.join tokens) = .ok tokens) ∧
    (∀ (text : String) (e : Evaluation), (computeDetailed .standard text).result = .ok e →
      ∃ tokens arranged, Token.scan e.tokens = .ok tokens ∧
        Postfix.ofTokens tokens = .ok arranged ∧ Token.scan e.arranged = .ok arranged ∧
        Postfix.reduce .standard arranged = .ok e.exact) := by
  refine ⟨fun tokens => scan_join, ?_⟩
  intro text e hresult
  rw [computeDetailed_result] at hresult
  obtain ⟨workings, hworkings, hrest⟩ := bind_eq_ok (of_mapError_eq_ok hresult)
  obtain ⟨x, -, he⟩ := bind_eq_ok hrest
  cases he
  obtain ⟨hlength, hscan, harranged, hreduce⟩ := stages_of_evaluate hworkings
  have hshort : text.length ≤ Decimal.maxPlaces := Nat.le_trans hlength (by decide)
  have hwritten : ∀ value, .num value ∈ workings.tokens → Plain value := by
    intro value hvalue
    exact plain_of_scan hscan hshort hvalue
  have hrewritten : ∀ value, .num value ∈ workings.arranged → Plain value := by
    intro value hvalue
    exact hwritten value (Postfix.mem_of_mem_arranged harranged hvalue)
  have hne : workings.tokens ≠ [] := ((scan_eq_ok_iff text).mp hscan).2
  exact ⟨workings.tokens, workings.arranged, scan_join hne hwritten, harranged,
    scan_join (arranged_ne_nil hreduce) hrewritten, hreduce⟩

/-- Two numbers and an operator in no order of an expression, and an expression whose literals are
written in other ways than they are printed. -/
theorem workings_replay_decimals :
    Token.scan (Token.join [.num (1 / 8), .num 12, .rparen, .op .pow]) =
        .ok [.num (1 / 8), .num 12, .rparen, .op .pow] ∧
      Token.join [.num (1 / 8), .num 12, .rparen, .op .pow] = "0.125 12 ) ^" ∧
      (computeDetailed .standard "007.50*(.5-2.)").result =
        .ok ⟨-45 / 4, -11.25, "7.5 * ( 0.5 - 2 )", "7.5 0.5 2 - *"⟩ ∧
      ∃ tokens arranged, Token.scan "7.5 * ( 0.5 - 2 )" = .ok tokens ∧
        Postfix.ofTokens tokens = .ok arranged ∧ Token.scan "7.5 0.5 2 - *" = .ok arranged ∧
        Postfix.reduce .standard arranged = .ok (-45 / 4) := by
  have hplain : ∀ value, .num value ∈ [Token.num (1 / 8), .num 12, .rparen, .op .pow] →
      Plain value := by
    intro value hvalue
    have hcases : value = 1 / 8 ∨ value = 12 := by simpa using hvalue
    rcases hcases with rfl | rfl
    · have hends : EndsWithin 3 (1 / 8) := ⟨125, by norm_num⟩
      exact ⟨by norm_num, hends.mono (by decide)⟩
    · have hends : EndsWithin 0 12 := ⟨12, by norm_num⟩
      exact ⟨by norm_num, hends.mono (by decide)⟩
  have hresult : (computeDetailed .standard "007.50*(.5-2.)").result =
      .ok ⟨-45 / 4, -11.25, "7.5 * ( 0.5 - 2 )", "7.5 0.5 2 - *"⟩ := by decide +kernel
  refine ⟨workings_replay.1 _ (by simp) hplain, by decide +kernel, hresult, ?_⟩
  exact workings_replay.2 _ _ hresult

end Reckon
