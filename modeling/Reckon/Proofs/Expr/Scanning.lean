import Reckon.Expr.Lexer

/-!
What a text spells, said without an order of reading: blanks, symbols and numbers in a row, where no
number stands directly before another numeral. The lexer finds exactly the tokens that a text spells,
and two texts spell in a row what they spell apart unless a number could run on.
-/

namespace Reckon.Token

variable {c : Char} {text first rest run blanks : List Char} {token : Token}
  {tokens more : List Token} {position : Nat}

/-- A text that does not go on a number. -/
def Breaks (text : List Char) : Prop := ∀ c ∈ text.head?, isNumeral c = false

/-- The tokens that a text spells. A run of numerals is one number and is as long as it can be. -/
inductive Spells : List Char → List Token → Prop where
  | nil : Spells [] []
  | blank {c : Char} {rest : List Char} {tokens : List Token} :
      Text.isBlank c = true → Spells rest tokens → Spells (c :: rest) tokens
  | symbol {c : Char} {token : Token} {rest : List Char} {tokens : List Token} :
      ofChar? c = some token → Spells rest tokens → Spells (c :: rest) (token :: tokens)
  | number {run rest : List Char} {value : Rat} {tokens : List Token} :
      run ≠ [] → (∀ c ∈ run, isNumeral c = true) → literal? run = some value → Breaks rest →
        Spells rest tokens → Spells (run ++ rest) (.num value :: tokens)

/-- The characters that are tokens by themselves. -/
def symbols : List Char := ['(', ')', '+', '-', '*', '/', '^', '%']

private theorem mem_symbols (h : ofChar? c = some token) : c ∈ symbols := by
  unfold ofChar? at h
  split at h
  case isTrue hopen => simp [symbols, hopen]
  case isFalse =>
    split at h
    case isTrue hclose => simp [symbols, hclose]
    case isFalse =>
      obtain ⟨op, hop, -⟩ := Option.map_eq_some_iff.mp h
      rw [← Op.ofChar?_eq_some.mp hop]
      cases op <;> simp [symbols, Op.symbol]

private theorem ofChar?_ne_num (c : Char) (value : Rat) : ofChar? c ≠ some (.num value) := by
  unfold ofChar?
  split
  · simp
  · split <;> simp

theorem not_blank_of_symbol (h : ofChar? c = some token) : Text.isBlank c = false := by
  have hall : symbols.all (!Text.isBlank ·) = true := by decide
  simpa using List.all_eq_true.mp hall c (mem_symbols h)

theorem not_numeral_of_symbol (h : ofChar? c = some token) : isNumeral c = false := by
  have hall : symbols.all (!isNumeral ·) = true := by decide
  simpa using List.all_eq_true.mp hall c (mem_symbols h)

private theorem not_symbol_of_numeral (h : isNumeral c = true) : ofChar? c = none := by
  cases hsymbol : ofChar? c with
  | none => rfl
  | some token =>
    rw [not_numeral_of_symbol hsymbol] at h
    cases h

private theorem toNat_of_numeral (h : isNumeral c = true) : 46 ≤ c.toNat ∧ c.toNat ≤ 57 := by
  simp only [isNumeral, Bool.or_eq_true, decide_eq_true_eq] at h
  rcases h with hdigit | rfl
  · have hbounds : 48 ≤ c.toNat ∧ c.toNat ≤ 57 := Char.isDigit_iff_toNat.mp hdigit
    omega
  · decide

theorem not_blank_of_numeral (h : isNumeral c = true) : Text.isBlank c = false := by
  have hbounds := toNat_of_numeral h
  rw [Bool.eq_false_iff, ne_eq, Text.isBlank, Text.Ranges.contains_iff]
  rintro ⟨range, hrange, hlow, hhigh⟩
  have hapart : ∀ range ∈ Text.blankRanges, range.2 < 46 ∨ 57 < range.1 := by
    decide
  rcases hapart range hrange with h | h
  · omega
  · omega

theorem not_numeral_of_blank (h : Text.isBlank c = true) : isNumeral c = false := by
  cases hnumeral : isNumeral c with
  | false => rfl
  | true =>
    rw [not_blank_of_numeral hnumeral] at h
    cases h

theorem scanFrom_blank (h : Text.isBlank c = true) (position : Nat) (rest : List Char) :
    scanFrom position (c :: rest) = scanFrom (position + 1) rest := by
  rw [scanFrom]
  simp only [h, if_true]

theorem scanFrom_symbol (h : ofChar? c = some token) (position : Nat) (rest : List Char) :
    scanFrom position (c :: rest) = (scanFrom (position + 1) rest).map (token :: ·) := by
  rw [scanFrom]
  simp only [not_blank_of_symbol h, h]
  rfl

/-- A run of numerals is read as far as it goes, as one number or as a fault. -/
theorem scanFrom_run (hne : run ≠ []) (hrun : ∀ c ∈ run, isNumeral c = true)
    (hbreaks : Breaks rest) (position : Nat) :
    scanFrom position (run ++ rest) =
      match literal? run with
      | some value => (scanFrom (position + run.length) rest).map (num value :: ·)
      | none => .error (.badNumber (String.ofList run)) := by
  have htake : (run ++ rest).takeWhile isNumeral = run := by
    rw [List.takeWhile_append_of_pos hrun]
    cases rest with
    | nil => simp
    | cons d more => simp [hbreaks d rfl]
  have hdrop : (run ++ rest).dropWhile isNumeral = rest := by
    rw [List.dropWhile_append_of_pos hrun]
    cases rest with
    | nil => rfl
    | cons d more => simp [hbreaks d rfl]
  match run with
  | c :: digits =>
    have hc : isNumeral c = true := hrun c (by simp)
    rw [List.cons_append, List.takeWhile_cons_of_pos hc, List.cons.injEq] at htake
    rw [List.cons_append, List.dropWhile_cons_of_pos hc] at hdrop
    rw [List.cons_append, scanFrom]
    simp only [not_blank_of_numeral hc, not_symbol_of_numeral hc, hc, htake.2, hdrop]
    rfl

theorem scanFrom_number {value : Rat} (hne : run ≠ []) (hrun : ∀ c ∈ run, isNumeral c = true)
    (hvalue : literal? run = some value) (hbreaks : Breaks rest) (position : Nat) :
    scanFrom position (run ++ rest) =
      (scanFrom (position + run.length) rest).map (num value :: ·) := by
  rw [scanFrom_run hne hrun hbreaks, hvalue]

/-- The lexer gives the tokens that a text spells, wherever the text stands. -/
theorem scanFrom_of_spells (h : Spells text tokens) (position : Nat) :
    scanFrom position text = .ok tokens := by
  induction h generalizing position with
  | nil => rw [scanFrom]
  | blank hblank _ ih => rw [scanFrom_blank hblank, ih]
  | symbol hsymbol _ ih =>
    rw [scanFrom_symbol hsymbol, ih]
    rfl
  | number hne hrun hvalue hbreaks _ ih =>
    rw [scanFrom_number hne hrun hvalue hbreaks, ih]
    rfl

/-- A number that a text spells stands there as a literal. -/
theorem Spells.literal {value : Rat} (h : Spells text tokens) (hvalue : .num value ∈ tokens) :
    ∃ run, (∀ c ∈ run, isNumeral c = true) ∧ literal? run = some value ∧
      run.length ≤ text.length := by
  induction h with
  | nil => cases hvalue
  | blank _ _ ih =>
    obtain ⟨run, hrun, hliteral, hlength⟩ := ih hvalue
    exact ⟨run, hrun, hliteral, Nat.le_succ_of_le hlength⟩
  | symbol hsymbol _ ih =>
    rcases List.mem_cons.mp hvalue with rfl | hvalue
    · exact absurd hsymbol (ofChar?_ne_num _ value)
    · obtain ⟨run, hrun, hliteral, hlength⟩ := ih hvalue
      exact ⟨run, hrun, hliteral, Nat.le_succ_of_le hlength⟩
  | @number first rest' _ _ _ hrun hliteral _ _ ih =>
    rw [List.length_append]
    rcases List.mem_cons.mp hvalue with heq | hvalue
    · cases heq
      exact ⟨first, hrun, hliteral, Nat.le_add_right _ _⟩
    · obtain ⟨run, hrun, hliteral, hlength⟩ := ih hvalue
      exact ⟨run, hrun, hliteral, Nat.le_trans hlength (Nat.le_add_left _ _)⟩

theorem symbol_of_ofChar? {op : Op} (h : ofChar? c = some (.op op)) : op.symbol = c := by
  unfold ofChar? at h
  split at h
  case isTrue => cases h
  case isFalse =>
    split at h
    case isTrue => cases h
    case isFalse =>
      obtain ⟨found, hfound, hop⟩ := Option.map_eq_some_iff.mp h
      cases hop
      exact Op.ofChar?_eq_some.mp hfound

/-- An operator that a text spells stands there by its symbol. -/
theorem Spells.symbol_mem {op : Op} (h : Spells text tokens) (hop : .op op ∈ tokens) :
    op.symbol ∈ text := by
  induction h with
  | nil => cases hop
  | blank _ _ ih => exact List.mem_cons_of_mem _ (ih hop)
  | symbol hsymbol _ ih =>
    rcases List.mem_cons.mp hop with rfl | hop
    · rw [symbol_of_ofChar? hsymbol]
      exact List.mem_cons_self
    · exact List.mem_cons_of_mem _ (ih hop)
  | number _ _ _ _ _ ih =>
    rcases List.mem_cons.mp hop with heq | hop
    · cases heq
    · exact List.mem_append_right _ (ih hop)

theorem breaks_dropWhile (text : List Char) : Breaks (text.dropWhile isNumeral) := by
  intro c hc
  have hnot := List.head?_dropWhile_not isNumeral text
  rw [Option.mem_def.mp hc] at hnot
  simpa using hnot

theorem spells_of_scanFrom (h : scanFrom position text = .ok tokens) : Spells text tokens := by
  fun_induction scanFrom position text generalizing tokens with
  | case1 =>
    cases h
    exact .nil
  | case2 position c rest hblank ih => exact .blank hblank (ih h)
  | case3 position c rest hblank token hsymbol ih =>
    cases hrest : scanFrom (position + 1) rest with
    | error fault =>
      rw [hrest] at h
      cases h
    | ok more =>
      rw [hrest] at h
      cases h
      exact .symbol hsymbol (ih hrest)
  | case4 position c rest hblank hsymbol hnumeral run value hvalue =>
    rename_i ih
    cases hrest : scanFrom (position + run.length) (rest.dropWhile isNumeral) with
    | error fault =>
      rw [hrest] at h
      cases h
    | ok more =>
      rw [hrest] at h
      cases h
      have hrun : ∀ d ∈ run, isNumeral d = true := by
        intro d hd
        rcases List.mem_cons.mp hd with rfl | hd
        · exact hnumeral
        · exact List.all_eq_true.mp List.all_takeWhile d hd
      have hspells := Spells.number (by simp [run]) hrun hvalue (breaks_dropWhile rest) (ih hrest)
      rwa [List.cons_append, List.takeWhile_append_dropWhile] at hspells
  | case5 => cases h
  | case6 => cases h

/-- A text has tokens when it spells some. -/
theorem scan_eq_ok_iff (text : String) :
    scan text = .ok tokens ↔ Spells text.toList tokens ∧ tokens ≠ [] := by
  unfold scan
  constructor
  · intro h
    cases hscan : scanFrom 0 text.toList with
    | error fault =>
      rw [hscan] at h
      cases h
    | ok found =>
      rw [hscan] at h
      cases found with
      | nil => cases h
      | cons token more =>
        cases h
        exact ⟨spells_of_scanFrom hscan, by simp⟩
  · rintro ⟨hspells, hne⟩
    rw [scanFrom_of_spells hspells 0]
    cases tokens with
    | nil => exact absurd rfl hne
    | cons token more => rfl

theorem Breaks.nil : Breaks [] := by
  intro c hc
  cases hc

theorem Breaks.cons (h : isNumeral c = false) (rest : List Char) : Breaks (c :: rest) := by
  intro d hd
  rw [← Option.some.inj hd]
  exact h

theorem Breaks.append (h : Breaks text) (hrest : Breaks rest) : Breaks (text ++ rest) := by
  cases text with
  | nil => exact hrest
  | cons c more => exact .cons (h c rfl) _

/-- Texts one after another spell what they spell apart, unless the first could go on. -/
theorem Spells.append (h : Spells first tokens) (hrest : Spells rest more) (hbreaks : Breaks rest) :
    Spells (first ++ rest) (tokens ++ more) := by
  induction h with
  | nil => exact hrest
  | blank hblank _ ih => exact .blank hblank ih
  | symbol hsymbol _ ih => exact .symbol hsymbol ih
  | number hne hrun hvalue hbreaks' _ ih =>
    rw [List.append_assoc]
    exact .number hne hrun hvalue (hbreaks'.append hbreaks) ih

/-- Blanks may stand before any text. -/
theorem Spells.blanks_append (hblanks : ∀ c ∈ blanks, Text.isBlank c = true)
    (h : Spells text tokens) : Spells (blanks ++ text) tokens := by
  induction blanks with
  | nil => exact h
  | cons c more ih =>
    have hmore : ∀ d ∈ more, Text.isBlank d = true := by
      intro d hd
      exact hblanks d (by simp [hd])
    exact .blank (hblanks c (by simp)) (ih hmore)

theorem Breaks.of_blanks (hblanks : ∀ c ∈ blanks, Text.isBlank c = true) : Breaks blanks := by
  intro c hc
  exact not_numeral_of_blank (hblanks c (List.mem_of_mem_head? hc))

end Reckon.Token
