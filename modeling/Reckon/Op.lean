/-!
The six binary operators on numbers, their symbols, and how tightly they bind.
-/

namespace Reckon

inductive Op where
  | add
  | sub
  | mul
  | div
  | pow
  | rem
deriving DecidableEq

namespace Op

def all : List Op := [add, sub, mul, div, pow, rem]

def symbol : Op → Char
  | add => '+'
  | sub => '-'
  | mul => '*'
  | div => '/'
  | pow => '^'
  | rem => '%'

def text (op : Op) : String := String.singleton op.symbol

def ofChar? (c : Char) : Option Op := all.find? (·.symbol = c)

/-- The operator that a text names: exactly one symbol, with nothing around it. -/
def ofSymbol? (s : String) : Option Op :=
  match s.toList with
  | [c] => ofChar? c
  | _ => none

/-- How tightly an operator binds; sums bind least and powers most. -/
def precedence : Op → Nat
  | add | sub => 1
  | mul | div | rem => 2
  | pow => 3

def rightAssociative : Op → Bool
  | pow => true
  | _ => false

theorem ofChar?_eq_some {c : Char} {op : Op} : ofChar? c = some op ↔ op.symbol = c := by
  constructor
  · intro h
    have found := List.find?_some h
    simpa using found
  · rintro rfl
    cases op <;> rfl

end Op
end Reckon
