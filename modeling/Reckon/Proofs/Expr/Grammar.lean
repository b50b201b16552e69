import Mathlib.Data.List.Perm.Basic
import Reckon.Expr.Grammar

/-!
The grammar seen operator by operator. Each operator has a phrase that it makes and a phrase for
each of its operands; the phrases are ranked by how tightly they bind, and a phrase may stand
wherever a looser one may. The six operators are then one rule instead of three.
-/

namespace Reckon

/-- Whether a token only groups others. -/
def Token.isParen : Token → Bool
  | .lparen | .rparen => true
  | _ => false

/-- How tightly a phrase binds. -/
def Phrase.rank : Phrase → Nat
  | .sum => 1
  | .product => 2
  | .power => 3
  | .atom => 4

theorem Phrase.rank_sum_le (phrase : Phrase) : Phrase.sum.rank ≤ phrase.rank := by
  cases phrase <;> decide

theorem Phrase.rank_le_atom (phrase : Phrase) : phrase.rank ≤ Phrase.atom.rank := by
  cases phrase <;> decide

namespace Op

/-- The phrase that an operator makes of its operands. -/
def phrase : Op → Phrase
  | add | sub => .sum
  | mul | div | rem => .product
  | pow => .power

/-- The loosest phrase that may stand on the left of an operator. -/
def leftPhrase : Op → Phrase
  | add | sub => .sum
  | mul | div | rem => .product
  | pow => .atom

/-- The loosest phrase that may stand on the right of an operator. -/
def rightPhrase : Op → Phrase
  | add | sub => .product
  | mul | div | rem => .power
  | pow => .power

theorem rank_phrase_le_left (op : Op) : op.phrase.rank ≤ op.leftPhrase.rank := by
  cases op <;> decide

theorem rank_phrase_le_right (op : Op) : op.phrase.rank ≤ op.rightPhrase.rank := by
  cases op <;> decide

end Op

namespace Derives

variable {phrase looser : Phrase} {tokens left right : List Token} {tree a b : Expr}

/-- A phrase stands for any looser one, with the same tree. -/
theorem loosen (h : Derives phrase tokens tree) (hrank : looser.rank ≤ phrase.rank) :
    Derives looser tokens tree := by
  have hpower (h : Derives .power tokens tree) (hrank : looser.rank ≤ 3) :
      Derives looser tokens tree := by
    cases looser with
    | sum => exact .product (.power h)
    | product => exact .power h
    | power => exact h
    | atom => exact absurd hrank (by decide)
  cases phrase with
  | atom =>
    cases looser with
    | atom => exact h
    | _ => exact hpower (.atom h) (by decide)
  | power => exact hpower h hrank
  | product =>
    cases looser with
    | sum => exact .product h
    | product => exact h
    | _ => exact absurd hrank (by decide)
  | sum =>
    cases looser with
    | sum => exact h
    | _ => exact absurd hrank (by decide)

/-- One rule for all operators. -/
theorem node (op : Op) (hleft : Derives op.leftPhrase left a)
    (hright : Derives op.rightPhrase right b) :
    Derives op.phrase (left ++ .op op :: right) (.node op a b) := by
  cases op with
  | add => exact .add .add (by decide) hleft hright
  | sub => exact .add .sub (by decide) hleft hright
  | mul => exact .mul .mul (by decide) hleft hright
  | div => exact .mul .div (by decide) hleft hright
  | rem => exact .mul .rem (by decide) hleft hright
  | pow => exact .pow hleft hright

/-- An operator between two atoms is an expression. -/
theorem sum_of_atoms (op : Op) (hleft : Derives .atom left a) (hright : Derives .atom right b) :
    Derives .sum (left ++ .op op :: right) (.node op a b) := by
  have hnode := node op (hleft.loosen (Phrase.rank_le_atom _))
    (hright.loosen (Phrase.rank_le_atom _))
  exact hnode.loosen (Phrase.rank_sum_le _)

/-- What holds of numbers and parentheses, of a phrase in the place of a looser one, and of an
operator on two phrases that it admits, holds of every phrase. -/
@[elab_as_elim]
theorem rule_induction
    {motive : ∀ phrase tokens tree, Derives phrase tokens tree → Prop}
    (num : ∀ value, motive .atom [.num value] (.num value) (.num value))
    (paren : ∀ tokens tree (h : Derives .sum tokens tree), motive .sum tokens tree h →
      motive .atom (.lparen :: tokens ++ [.rparen]) tree h.paren)
    (loosen : ∀ phrase looser tokens tree (h : Derives phrase tokens tree)
      (hrank : looser.rank ≤ phrase.rank), motive phrase tokens tree h →
      motive looser tokens tree (h.loosen hrank))
    (node : ∀ op left right a b (hleft : Derives (Op.leftPhrase op) left a)
      (hright : Derives (Op.rightPhrase op) right b), motive op.leftPhrase left a hleft →
      motive op.rightPhrase right b hright →
      motive op.phrase (left ++ .op op :: right) (.node op a b) (node op hleft hright))
    (h : Derives phrase tokens tree) : motive phrase tokens tree h := by
  induction h with
  | num value => exact num value
  | paren h ih => exact paren _ _ h ih
  | atom h ih => exact loosen _ _ _ _ h (by decide) ih
  | power h ih => exact loosen _ _ _ _ h (by decide) ih
  | product h ih => exact loosen _ _ _ _ h (by decide) ih
  | pow hl hr ihl ihr => exact node .pow _ _ _ _ hl hr ihl ihr
  | mul op hop hl hr ihl ihr =>
    simp only [List.mem_cons, List.not_mem_nil, or_false] at hop
    rcases hop with rfl | rfl | rfl
    · exact node .mul _ _ _ _ hl hr ihl ihr
    · exact node .div _ _ _ _ hl hr ihl ihr
    · exact node .rem _ _ _ _ hl hr ihl ihr
  | add op hop hl hr ihl ihr =>
    simp only [List.mem_cons, List.not_mem_nil, or_false] at hop
    rcases hop with rfl | rfl
    · exact node .add _ _ _ _ hl hr ihl ihr
    · exact node .sub _ _ _ _ hl hr ihl ihr

theorem tokens_ne_nil (h : Derives phrase tokens tree) : tokens ≠ [] := by
  induction h using rule_induction with
  | num value => simp
  | paren tokens tree h ih => simp
  | loosen phrase looser tokens tree h hrank ih => exact ih
  | node op left right a b hleft hright ihl ihr => simp

/-- A tree holds every number and every operator of its phrase once, and nothing else. -/
theorem postorder_perm (h : Derives phrase tokens tree) :
    tree.postorder.Perm (tokens.filter (!·.isParen)) := by
  induction h using rule_induction with
  | num value => exact .refl _
  | paren tokens tree h ih => simpa [Token.isParen] using ih
  | loosen phrase looser tokens tree h hrank ih => exact ih
  | node op left right a b hleft hright ihl ihr =>
    have hkept : (left ++ .op op :: right).filter (!·.isParen) =
        left.filter (!·.isParen) ++ .op op :: right.filter (!·.isParen) := by
      simp [Token.isParen]
    rw [hkept, Expr.postorder, List.append_assoc]
    exact ihl.append ((ihr.append_right [.op op]).trans List.perm_append_comm)

end Derives
end Reckon
