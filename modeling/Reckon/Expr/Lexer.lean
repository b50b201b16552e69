import Reckon.Error
import Reckon.Expr.Token
import Reckon.Text.Blank
import Reckon.Word

/-!
From text to tokens. Blanks separate and mean nothing; parentheses and operators are one character
each; a number is a run of digits and points taken as long as it goes, with one point at most and one
digit at least. How many digits there are after the point must fit a word of 32 bits, the exponent of
the ten to divide by. The text is read from left to right and the first fault met decides.
-/

namespace Reckon.Token

/-- The characters that numbers are made of: the ten digits of ASCII and the point. -/
def isNumeral (c : Char) : Bool := c.isDigit || c = '.'

def places (run : List Char) : List Char := (run.dropWhile (· ≠ '.')).drop 1

/-- The number that a run of digits and points writes: the digits around its only point, scaled down
by the places after it. -/
def literal? (run : List Char) : Option Rat :=
  let whole := run.takeWhile (· ≠ '.')
  if '.' ∈ places run ∨ whole ++ places run = [] then none
  else do
    let exponent ← Word.half? (places run).length
    some (mkRat (Nat.ofDigitChars 10 (whole ++ places run) 0) (Decimal.scale exponent))

/-- The tokens of a text whose first character has the index `position`. -/
def scanFrom (position : Nat) (text : List Char) : Except Fault (List Token) :=
  match text with
  | [] => .ok []
  | c :: rest =>
    if Text.isBlank c then scanFrom (position + 1) rest
    else
      match ofChar? c with
      | some token => do
        let tokens ← scanFrom (position + 1) rest
        return token :: tokens
      | none =>
        if isNumeral c then
          let run := c :: rest.takeWhile isNumeral
          match literal? run with
          | some value => do
            let tokens ← scanFrom (position + run.length) (rest.dropWhile isNumeral)
            return num value :: tokens
          | none => .error (.badNumber (String.ofList run))
        else .error (.unexpectedChar c position)
termination_by text.length
decreasing_by
  all_goals simp only [List.length_cons]
  all_goals have := (rest.dropWhile_sublist isNumeral).length_le
  all_goals omega

def scan (text : String) : Except Fault (List Token) := do
  let tokens ← scanFrom 0 text.toList
  if tokens.isEmpty then throw .empty else return tokens

example : scan " 12.5*( .5" = .ok [num (25 / 2), op .mul, lparen, num (1 / 2)] ∧
    scan "2 + x" = .error (.unexpectedChar 'x' 4) ∧ scan "1.2.3 x" = .error (.badNumber "1.2.3") ∧
    scan "." = .error (.badNumber ".") ∧ scan "  " = .error .empty := by decide +kernel

end Reckon.Token
