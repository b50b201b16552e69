import Reckon.Proofs.Expr.Literal
import Reckon.Proofs.Expr.Scanning
import Reckon.Proofs.Run

/-!
The lexical grammar. A text that can be read is a row of pieces, blanks between them or not: the symbols,
one character each, and numbers as long as there are digits and points. A text that cannot be read has a
first place where no piece begins, and the lexer tells what stands there. A number with more places than
a word of 32 bits counts is no piece either.
-/

namespace Reckon.Token

variable {c : Char} {token : Token} {text run before rest : List Char} {tokens : List Token}
  {fault : Fault} {position : Nat}

/-- The pieces of one character. -/
inductive Symbol : Char → Token → Prop where
  | lparen : Symbol '(' .lparen
  | rparen : Symbol ')' .rparen
  | op (op : Op) : Symbol op.symbol (.op op)

/-- The tokens of a text, piece by piece. -/
inductive Lexes : List Char → List Token → Prop where
  | nil : Lexes [] []
  | blank {c : Char} {rest : List Char} {tokens : List Token} :
      Text.isBlank c = true → Lexes rest tokens → Lexes (c :: rest) tokens
  | symbol {c : Char} {token : Token} {rest : List Char} {tokens : List Token} :
      Symbol c token → Lexes rest tokens → Lexes (c :: rest) (token :: tokens)
  /-- A number goes on as far as there are digits and points. -/
  | number {run rest : List Char} {value : Rat} {tokens : List Token} :
      Writes run value → PlacesFit run → Breaks rest → Lexes rest tokens →
        Lexes (run ++ rest) (.num value :: tokens)

/-- The second text does not go on a run of numerals at the end of the first. -/
def Apart (before rest : List Char) : Prop :=
  ∀ c ∈ before.getLast?, isNumeral c = true → Breaks rest

/-- What stands, with its index, at the beginning of a text where no piece begins. -/
inductive StopsAt (position : Nat) : List Char → Fault → Prop where
  /-- A run of digits and points that is no number or has too many places, as far as it goes. -/
  | badNumber {run rest : List Char} :
      run ≠ [] → (∀ c ∈ run, isNumeral c = true) → Breaks rest → Malformed run ∨ ¬PlacesFit run →
        StopsAt position (run ++ rest) (.badNumber (String.ofList run))
  /-- A character of no class. -/
  | unexpectedChar {c : Char} {rest : List Char} :
      Text.isBlank c = false → (∀ token, ¬Symbol c token) → isNumeral c = false →
        StopsAt position (c :: rest) (.unexpectedChar c position)

/-- The leftmost fault of a text. -/
inductive FirstFault : List Char → Fault → Prop where
  | empty {text : List Char} : (∀ c ∈ text, Text.isBlank c = true) → FirstFault text .empty
  | stop {before rest : List Char} {tokens : List Token} {fault : Fault} :
      Lexes before tokens → Apart before rest → StopsAt before.length rest fault →
        FirstFault (before ++ rest) fault

theorem ofChar?_eq_some_iff : ofChar? c = some token ↔ Symbol c token := by
  constructor
  · intro h
    unfold ofChar? at h
    split at h
    case isTrue hopen =>
      cases h
      exact hopen ▸ .lparen
    case isFalse =>
      split at h
      case isTrue hclose =>
        cases h
        exact hclose ▸ .rparen
      case isFalse =>
        obtain ⟨op, hop, rfl⟩ := Option.map_eq_some_iff.mp h
        exact Op.ofChar?_eq_some.mp hop ▸ .op op
  · intro h
    cases h with
    | lparen => rfl
    | rparen => rfl
    | op op => cases op <;> decide

theorem spells_iff_lexes : Spells text tokens ↔ Lexes text tokens := by
  constructor
  · intro h
    induction h with
    | nil => exact .nil
    | blank hblank _ ih => exact .blank hblank ih
    | symbol hsymbol _ ih => exact .symbol (ofChar?_eq_some_iff.mp hsymbol) ih
    | number _ hrun hvalue hbreaks _ ih =>
      obtain ⟨hwrites, hfit⟩ := (literal?_eq_some_iff hrun).mp hvalue
      exact .number hwrites hfit hbreaks ih
  · intro h
    induction h with
    | nil => exact .nil
    | blank hblank _ ih => exact .blank hblank ih
    | symbol hsymbol _ ih => exact .symbol (ofChar?_eq_some_iff.mpr hsymbol) ih
    | number hwrites hfit hbreaks _ ih =>
      exact .number hwrites.ne_nil hwrites.numeral (hwrites.literal hfit) hbreaks ih

theorem Apart.nil (rest : List Char) : Apart [] rest := by
  intro c hc
  cases hc

theorem Apart.of_append (h : Apart (run ++ before) rest) : Apart before rest := by
  intro c hc
  exact h c (by simp [List.getLast?_append, Option.mem_def.mp hc])

theorem Apart.cons (hc : isNumeral c = false) (h : Apart before rest) : Apart (c :: before) rest := by
  intro d hd hnumeral
  rw [List.getLast?_cons, Option.mem_some_iff] at hd
  cases hlast : before.getLast? with
  | none =>
    rw [hlast] at hd
    subst hd
    rw [Option.getD_none, hc] at hnumeral
    cases hnumeral
  | some last =>
    rw [hlast, Option.getD_some] at hd
    exact h last hlast (hd ▸ hnumeral)

theorem Apart.append (h : Apart before rest) (hbreaks : Breaks (before ++ rest)) :
    Apart (run ++ before) rest := by
  intro c hc hnumeral
  cases before with
  | nil => exact hbreaks
  | cons d more =>
    rw [List.getLast?_append_of_ne_nil _ (List.cons_ne_nil d more)] at hc
    exact h c hc hnumeral

theorem Breaks.of_append (h : Breaks (before ++ rest)) : Breaks before := by
  cases before with
  | nil => exact .nil
  | cons d more => exact .cons (h d rfl) _

/-- Where a run ends in one text and another text follows that does not go it on, it ends in both. -/
theorem Apart.breaks (h : Apart (run ++ before) rest) (hne : run ≠ [])
    (hrun : ∀ c ∈ run, isNumeral c = true) (hbreaks : Breaks before) : Breaks (before ++ rest) := by
  cases before with
  | nil =>
    rw [List.append_nil] at h
    exact h _ (List.getLast?_eq_some_getLast hne) (hrun _ (List.getLast_mem hne))
  | cons d more => exact .cons (hbreaks d rfl) _

private theorem map_append_cons (result : Except Fault (List Token)) :
    (result.map (tokens ++ ·)).map (token :: ·) = result.map (token :: tokens ++ ·) := by
  cases result <;> rfl

/-- A text that spells tokens is read, and then what follows it. -/
theorem scanFrom_append (h : Spells before tokens) (hapart : Apart before rest) (position : Nat) :
    scanFrom position (before ++ rest) =
      (scanFrom (position + before.length) rest).map (tokens ++ ·) := by
  induction h generalizing position with
  | nil =>
    change scanFrom position rest = (scanFrom position rest).map id
    cases scanFrom position rest <;> rfl
  | @blank c others _ hblank _ ih =>
    have hcons : Apart ([c] ++ others) rest := hapart
    rw [List.cons_append, scanFrom_blank hblank, ih hcons.of_append, List.length_cons, Nat.add_assoc,
      Nat.add_comm 1]
  | @symbol c token others _ hsymbol _ ih =>
    have hcons : Apart ([c] ++ others) rest := hapart
    rw [List.cons_append, scanFrom_symbol hsymbol, ih hcons.of_append, map_append_cons,
      List.length_cons, Nat.add_assoc, Nat.add_comm 1]
  | number hne hrun hvalue hbreaks _ ih =>
    rw [List.append_assoc, scanFrom_number hne hrun hvalue (hapart.breaks hne hrun hbreaks),
      ih hapart.of_append, map_append_cons, List.length_append, Nat.add_assoc]

theorem scanFrom_of_stopsAt (h : StopsAt position rest fault) :
    scanFrom position rest = .error fault := by
  cases h with
  | badNumber hne hrun hbreaks hmalformed =>
    rw [scanFrom_run hne hrun hbreaks, (literal?_eq_none_iff hne hrun).mpr hmalformed]
  | @unexpectedChar c _ hblank hsymbol hnumeral =>
    have hnone : ofChar? c = none := by
      cases hsome : ofChar? c with
      | none => rfl
      | some token => exact absurd (ofChar?_eq_some_iff.mp hsome) (hsymbol token)
    rw [scanFrom]
    simp [hblank, hnone, hnumeral]

/-- What a fault after the first pieces of a text says of the whole text. -/
def StopsWithin (position : Nat) (text : List Char) (fault : Fault) : Prop :=
  ∃ before tokens rest, text = before ++ rest ∧ Spells before tokens ∧ Apart before rest ∧
    StopsAt (position + before.length) rest fault

theorem StopsAt.within (h : StopsAt position rest fault) : StopsWithin position rest fault :=
  ⟨[], [], rest, rfl, .nil, .nil rest, h⟩

theorem StopsWithin.blank (hblank : Text.isBlank c = true)
    (h : StopsWithin (position + 1) rest fault) : StopsWithin position (c :: rest) fault := by
  obtain ⟨before, tokens, stop, rfl, hspells, hapart, hstops⟩ := h
  refine ⟨c :: before, tokens, stop, rfl, .blank hblank hspells,
    hapart.cons (not_numeral_of_blank hblank), ?_⟩
  rw [List.length_cons, Nat.add_comm before.length, ← Nat.add_assoc]
  exact hstops

theorem StopsWithin.symbol (hsymbol : ofChar? c = some token)
    (h : StopsWithin (position + 1) rest fault) : StopsWithin position (c :: rest) fault := by
  obtain ⟨before, tokens, stop, rfl, hspells, hapart, hstops⟩ := h
  refine ⟨c :: before, token :: tokens, stop, rfl, .symbol hsymbol hspells,
    hapart.cons (not_numeral_of_symbol hsymbol), ?_⟩
  rw [List.length_cons, Nat.add_comm before.length, ← Nat.add_assoc]
  exact hstops

theorem StopsWithin.number {value : Rat} (hne : run ≠ [])
    (hrun : ∀ c ∈ run, isNumeral c = true) (hvalue : literal? run = some value)
    (hbreaks : Breaks rest) (h : StopsWithin (position + run.length) rest fault) :
    StopsWithin position (run ++ rest) fault := by
  obtain ⟨before, tokens, stop, rfl, hspells, hapart, hstops⟩ := h
  refine ⟨run ++ before, .num value :: tokens, stop, by rw [List.append_assoc],
    .number hne hrun hvalue hbreaks.of_append hspells, hapart.append hbreaks, ?_⟩
  rw [List.length_append, ← Nat.add_assoc]
  exact hstops

/-- A run of numerals is a first one and those that follow it. -/
theorem numeral_of_mem_run (hc : isNumeral c = true) :
    ∀ d ∈ c :: rest.takeWhile isNumeral, isNumeral d = true := by
  intro d hd
  rcases List.mem_cons.mp hd with rfl | hd
  · exact hc
  · exact List.all_eq_true.mp List.all_takeWhile d hd

/-- Where the lexer finds a fault, no piece begins, and before it there are only pieces. -/
theorem stopsWithin_of_scanFrom (h : scanFrom position text = .error fault) :
    StopsWithin position text fault := by
  fun_induction scanFrom position text with
  | case1 => cases h
  | case2 position c rest hblank ih => exact .blank hblank (ih h)
  | case3 position c rest hblank token hsymbol ih =>
    rcases Run.bind_eq_error h with hrest | ⟨more, -, hmore⟩
    · exact .symbol hsymbol (ih hrest)
    · cases hmore
  | case4 position c rest hblank hsymbol hnumeral run value hvalue ih =>
    rcases Run.bind_eq_error h with hrest | ⟨more, -, hmore⟩
    · have hstops := StopsWithin.number (by simp) (numeral_of_mem_run hnumeral) hvalue
        (breaks_dropWhile rest) (ih hrest)
      rwa [List.cons_append, List.takeWhile_append_dropWhile] at hstops
    · cases hmore
  | case5 position c rest hblank hsymbol hnumeral run hvalue =>
    cases h
    have hrun : ∀ d ∈ run, isNumeral d = true := numeral_of_mem_run hnumeral
    have hmalformed := (literal?_eq_none_iff (List.cons_ne_nil _ _) hrun).mp hvalue
    have hstops : StopsAt position (run ++ rest.dropWhile isNumeral) _ :=
      .badNumber (List.cons_ne_nil _ _) hrun (breaks_dropWhile rest) hmalformed
    rw [List.cons_append, List.takeWhile_append_dropWhile] at hstops
    exact hstops.within
  | case6 position c rest hblank hsymbol hnumeral =>
    cases h
    have hnone (token : Token) : ¬Symbol c token := by
      rw [← ofChar?_eq_some_iff, hsymbol]
      simp
    exact (StopsAt.unexpectedChar (by simpa using hblank) hnone (by simpa using hnumeral)).within

theorem scanFrom_eq_error_iff :
    scanFrom position text = .error fault ↔ StopsWithin position text fault := by
  constructor
  · exact stopsWithin_of_scanFrom
  · rintro ⟨before, tokens, rest, rfl, hspells, hapart, hstops⟩
    rw [scanFrom_append hspells hapart, scanFrom_of_stopsAt hstops]
    rfl

/-- A text of blanks spells nothing, and no other text does. -/
theorem spells_nil_iff : Spells text [] ↔ ∀ c ∈ text, Text.isBlank c = true := by
  constructor
  · intro h
    generalize htokens : ([] : List Token) = tokens at h
    induction h with
    | nil => simp
    | blank hblank _ ih => exact List.forall_mem_cons.mpr ⟨hblank, ih htokens⟩
    | symbol => cases htokens
    | number => cases htokens
  · intro hblanks
    simpa using Spells.nil.blanks_append hblanks

private theorem scan_of_scanFrom_error {text : String} (h : scanFrom 0 text.toList = .error fault) :
    scan text = .error fault := by
  unfold scan
  rw [h]
  rfl

private theorem scan_of_blanks {text : String} (h : ∀ c ∈ text.toList, Text.isBlank c = true) :
    scan text = .error .empty := by
  unfold scan
  rw [scanFrom_of_spells (spells_nil_iff.mpr h) 0]
  rfl

private theorem firstFault_of_scan {text : String} (h : scan text = .error fault) :
    FirstFault text.toList fault := by
  unfold scan at h
  rcases Run.bind_eq_error h with hscan | ⟨tokens, hscan, hempty⟩
  · obtain ⟨before, tokens, rest, htext, hspells, hapart, hstops⟩ := scanFrom_eq_error_iff.mp hscan
    rw [Nat.zero_add] at hstops
    rw [htext]
    exact .stop (spells_iff_lexes.mp hspells) hapart hstops
  · cases tokens with
    | nil =>
      cases hempty
      exact .empty (spells_nil_iff.mp (spells_of_scanFrom hscan))
    | cons token more => cases hempty

private theorem scan_of_firstFault {text : String} (h : FirstFault text.toList fault) :
    scan text = .error fault := by
  generalize hchars : text.toList = chars at h
  cases h with
  | empty hblanks => exact scan_of_blanks (hchars ▸ hblanks)
  | @stop before rest tokens _ hlexes hapart hstops =>
    apply scan_of_scanFrom_error
    rw [scanFrom_eq_error_iff, hchars]
    rw [← Nat.zero_add before.length] at hstops
    exact ⟨before, tokens, rest, rfl, spells_iff_lexes.mpr hlexes, hapart, hstops⟩

/-- The lexer decides the lexical grammar. A text is read just when it is a row of pieces, one at least,
and the tokens are those of the pieces with their exact values; every other text is refused with its
leftmost fault, a character by its index in the text. -/
theorem scan_decides_lexical_grammar (text : String) :
    (∀ tokens, scan text = .ok tokens ↔ Lexes text.toList tokens ∧ tokens ≠ []) ∧
    ∀ fault, scan text = .error fault ↔ FirstFault text.toList fault := by
  refine ⟨?_, ?_⟩
  · intro tokens
    rw [scan_eq_ok_iff, spells_iff_lexes]
  · intro fault
    exact ⟨firstFault_of_scan, scan_of_firstFault⟩

/-- A number is refused for its places alone. -/
theorem scan_of_not_placesFit {value : Rat} (hwrites : Writes run value) (hlong : ¬PlacesFit run) :
    scan (String.ofList run) = .error (.badNumber (String.ofList run)) := by
  apply scan_of_firstFault
  have hstops : StopsAt ([] : List Char).length (run ++ []) (.badNumber (String.ofList run)) :=
    .badNumber hwrites.ne_nil hwrites.numeral .nil (.inr hlong)
  have hfault := FirstFault.stop .nil (.nil _) hstops
  rw [List.nil_append, List.append_nil] at hfault
  rwa [String.toList_ofList]

private theorem writes_zeros {n : Nat} (hn : 0 < n) : Writes ('.' :: List.replicate n '0') 0 := by
  have hne : [] ++ List.replicate n '0' ≠ [] := by simp [hn.ne']
  have hdigits : ∀ c ∈ [] ++ List.replicate n '0', c.isDigit = true := by
    intro c hc
    rw [List.eq_of_mem_replicate hc]
    decide
  have hwrites := Writes.point hne hdigits
  rwa [List.nil_append, List.nil_append, Nat.ofDigitChars_replicate_zero, Nat.mul_zero,
    Nat.cast_zero, zero_div] at hwrites

/-- A point with zeros after it writes zero, and is no token when there are `2 ^ 32` of them. -/
theorem scan_refuses_long_zero :
    Writes ('.' :: List.replicate 4294967296 '0') 0 ∧
      scan (String.ofList ('.' :: List.replicate 4294967296 '0')) =
        .error (.badNumber (String.ofList ('.' :: List.replicate 4294967296 '0'))) := by
  have hwrites : Writes ('.' :: List.replicate 4294967296 '0') 0 := writes_zeros (by decide)
  have hplaces : places ([] ++ '.' :: List.replicate 4294967296 '0') =
      List.replicate 4294967296 '0' := places_point (by simp) _
  have hlong : ¬PlacesFit ([] ++ '.' :: List.replicate 4294967296 '0') := by
    rw [PlacesFit, hplaces, List.length_replicate]
    decide
  exact ⟨hwrites, scan_of_not_placesFit hwrites hlong⟩

end Reckon.Token
