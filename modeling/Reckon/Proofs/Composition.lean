import Reckon.Proofs.Evaluation

/-!
Texts are put together from texts. A text in parentheses is worth what it is worth alone, and two of
them with an operator between are worth what the operator makes of their values, whatever blanks stand
around the pieces. A refusal of the left part comes before one of the right part, and both before one
of the operator.
-/

namespace Reckon

/-- A text of blanks only. -/
abbrev Blanks := {blanks : String // blanks.toList.all Text.isBlank = true}

theorem Blanks.isBlank (blanks : Blanks) : ∀ c ∈ blanks.val.toList, Text.isBlank c = true :=
  List.all_eq_true.mp blanks.property

/-- The blanks around the two parentheses of an enclosed text. -/
structure Padding where
  before : Blanks
  opening : Blanks
  closing : Blanks
  after : Blanks

/-- A text in parentheses, with blanks around them. -/
def Padding.enclose (p : Padding) (text : String) : String :=
  p.before.val ++ "(" ++ p.opening.val ++ text ++ p.closing.val ++ ")" ++ p.after.val

/-- The same blanks in all four places. -/
def Padding.uniform (blanks : Blanks) : Padding := ⟨blanks, blanks, blanks, blanks⟩

/-- A text that the lexer and the pass over its tokens accept. -/
def WellFormed (text : String) : Prop :=
  ∃ tokens arranged, Token.scan text = .ok tokens ∧ Postfix.ofTokens tokens = .ok arranged

open Token

variable {limits : Limits} {s t : String} {tokens more : List Token} {rest : List Char}

private theorem spells_enclose (p : Padding) (h : Spells s.toList tokens)
    (hrest : Spells rest more) :
    Spells ((p.enclose s).toList ++ rest) (.lparen :: tokens ++ .rparen :: more) := by
  have hafter := hrest.blanks_append p.after.isBlank
  have hclose : Spells (')' :: (p.after.val.toList ++ rest)) (.rparen :: more) :=
    .symbol (by decide) hafter
  have hclosing := hclose.blanks_append p.closing.isBlank
  -- a number at the end of the text is ended by a blank or by the parenthesis
  have hbreaks : Breaks (p.closing.val.toList ++ ')' :: (p.after.val.toList ++ rest)) :=
    (Breaks.of_blanks p.closing.isBlank).append (.cons (by decide) _)
  have hinner := (h.append hclosing hbreaks).blanks_append p.opening.isBlank
  have hopen : Spells ('(' :: _) (.lparen :: _) := .symbol (by decide) hinner
  simpa [Padding.enclose, String.toList_append] using hopen.blanks_append p.before.isBlank

private theorem scan_enclose (p : Padding) (h : Spells s.toList tokens) :
    Token.scan (p.enclose s) = .ok (.lparen :: tokens ++ [.rparen]) := by
  rw [scan_eq_ok_iff]
  refine ⟨?_, by simp⟩
  simpa using spells_enclose p h .nil

private theorem scan_enclose_op (p q : Padding) (op : Op) (hs : Spells s.toList tokens)
    (ht : Spells t.toList more) :
    Token.scan (p.enclose s ++ op.text ++ q.enclose t) =
      .ok ((.lparen :: tokens ++ [.rparen]) ++ .op op :: (.lparen :: more ++ [.rparen])) := by
  have hright : Spells (q.enclose t).toList (.lparen :: more ++ [.rparen]) := by
    simpa using spells_enclose q ht .nil
  have hop : Token.ofChar? op.symbol = some (.op op) := by
    cases op <;> decide
  rw [scan_eq_ok_iff]
  refine ⟨?_, by simp⟩
  simpa [Op.text, String.toList_append] using spells_enclose p hs (.symbol hop hright)

/-- A well-formed text has a tree, and its tokens are those that it spells. -/
theorem WellFormed.tree (h : WellFormed s) :
    ∃ tokens tree, Token.scan s = .ok tokens ∧ Spells s.toList tokens ∧
      Derives .sum tokens tree := by
  obtain ⟨tokens, arranged, hscan, harranged⟩ := h
  obtain ⟨tree, hderives, -⟩ := Postfix.derives_of_ofTokens harranged
  exact ⟨tokens, tree, hscan, ((scan_eq_ok_iff s).mp hscan).1, hderives⟩

private theorem length_le_enclose (p : Padding) (s : String) : s.length ≤ (p.enclose s).length := by
  simp only [Padding.enclose, String.length_append]
  omega

theorem exactValue_enclose (p : Padding) (hs : WellFormed s)
    (hlength : (p.enclose s).length ≤ limits.maxLength) :
    exactValue limits (p.enclose s) = exactValue limits s := by
  obtain ⟨tokens, tree, hscan, hspells, hderives⟩ := hs.tree
  have henclosed : Derives .sum (.lparen :: tokens ++ [.rparen]) tree :=
    hderives.paren.loosen (Phrase.rank_sum_le _)
  have hinner := Nat.le_trans (length_le_enclose p s) hlength
  rw [exactValue_of_tree (scan_enclose p hspells) henclosed hlength,
    exactValue_of_tree hscan hderives hinner]

theorem exactValue_enclose_op (p q : Padding) (op : Op) (hs : WellFormed s) (ht : WellFormed t)
    (hlength : (p.enclose s ++ op.text ++ q.enclose t).length ≤ limits.maxLength) :
    exactValue limits (p.enclose s ++ op.text ++ q.enclose t) = (do
      let a ← exactValue limits s
      let b ← exactValue limits t
      (op.apply limits a b).mapError Fault.operator) := by
  obtain ⟨tokens, a, hscans, hspells, ha⟩ := hs.tree
  obtain ⟨more, b, hscant, hspellt, hb⟩ := ht.tree
  have hnode := Derives.sum_of_atoms op ha.paren hb.paren
  have hsum : (p.enclose s).length + op.text.length + (q.enclose t).length ≤ limits.maxLength := by
    simpa only [String.length_append] using hlength
  have hleft : s.length ≤ limits.maxLength := by
    have hs := length_le_enclose p s
    omega
  have hright : t.length ≤ limits.maxLength := by
    have ht := length_le_enclose q t
    omega
  rw [exactValue_of_tree (scan_enclose_op p q op hspells hspellt) hnode hlength,
    exactValue_of_tree hscans ha hleft, exactValue_of_tree hscant hb hright, Expr.value]
  cases a.value limits with
  | error e => rfl
  | ok x =>
    cases b.value limits with
    | error e => rfl
    | ok y => rfl

/-- Evaluation is compositional: for well-formed texts `s` and `t`, the text `(s) op (t)` gives what
`s`, then `t`, then the operator give, and `(s)` gives what `s` gives. -/
theorem evaluation_compositional (limits : Limits) (p q : Padding) (op : Op) (s t : String)
    (hs : WellFormed s) (ht : WellFormed t) :
    ((p.enclose s ++ op.text ++ q.enclose t).length ≤ limits.maxLength →
      exactValue limits (p.enclose s ++ op.text ++ q.enclose t) = (do
        let a ← exactValue limits s
        let b ← exactValue limits t
        (op.apply limits a b).mapError Fault.operator) ∧
      (computeExact limits (p.enclose s ++ op.text ++ q.enclose t)).result = (do
        let a ← (computeExact limits s).result
        let b ← (computeExact limits t).result
        (op.apply limits a b).mapError fun error => ⟨.operator error⟩)) ∧
    ((p.enclose s).length ≤ limits.maxLength →
      exactValue limits (p.enclose s) = exactValue limits s ∧
      (computeExact limits (p.enclose s)).result = (computeExact limits s).result) := by
  refine ⟨?_, ?_⟩
  · intro hlength
    have hvalue := exactValue_enclose_op p q op hs ht hlength
    refine ⟨hvalue, ?_⟩
    rw [computeExact_result, computeExact_result, computeExact_result, hvalue]
    cases exactValue limits s with
    | error e => rfl
    | ok x =>
      cases exactValue limits t with
      | error e => rfl
      | ok y =>
        change ((op.apply limits x y).mapError _).mapError _ = (op.apply limits x y).mapError _
        cases op.apply limits x y <;> rfl
  · intro hlength
    have hvalue := exactValue_enclose p hs hlength
    refine ⟨hvalue, ?_⟩
    rw [computeExact_result, computeExact_result, hvalue]

/-- Two texts whose value hangs on the parentheses, with a tab at the first and no blank at the
second. -/
theorem evaluation_compositional_quotient :
    WellFormed "1+2" ∧ WellFormed "2^3" ∧
      exactValue .standard
          ((Padding.uniform ⟨"\t", by decide +kernel⟩).enclose "1+2" ++ Op.div.text ++
            (Padding.uniform ⟨"", by decide +kernel⟩).enclose "2^3") = (do
        let a ← exactValue .standard "1+2"
        let b ← exactValue .standard "2^3"
        (Op.div.apply .standard a b).mapError Fault.operator) ∧
      exactValue .standard ((Padding.uniform ⟨"\t", by decide +kernel⟩).enclose "1+2") =
        exactValue .standard "1+2" := by
  have hs : WellFormed "1+2" :=
    ⟨[.num 1, .op .add, .num 2], [.num 1, .num 2, .op .add], by decide +kernel, by decide +kernel⟩
  have ht : WellFormed "2^3" :=
    ⟨[.num 2, .op .pow, .num 3], [.num 2, .num 3, .op .pow], by decide +kernel, by decide +kernel⟩
  have h := evaluation_compositional .standard (Padding.uniform ⟨"\t", by decide +kernel⟩)
    (Padding.uniform ⟨"", by decide +kernel⟩) .div "1+2" "2^3" hs ht
  exact ⟨hs, ht, (h.1 (by decide +kernel)).1, (h.2 (by decide +kernel)).1⟩

end Reckon
