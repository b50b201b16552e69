import Reckon.Binary64.Nearest
import Reckon.Expr.Lexer
import Reckon.Expr.Postfix
import Reckon.Expr.Reduction
import Reckon.Traced

/-!
The value of an expression given as text. The text is measured, read into tokens, put in the order of
computation and computed exactly; only then is the value rounded, once, to a binary64 number for
the callers who want one. Every refusal reaches the caller as one rejection with its cause.
-/

namespace Reckon

/-- What an evaluation goes through: the tokens as written, the tokens in the order of computation,
and the exact value. -/
structure Workings where
  tokens : List Token
  arranged : List Token
  value : Rat
deriving DecidableEq

/-- The length is in characters and is looked at before anything is read. -/
def checkLength (limits : Limits) (text : String) : Except Fault Unit :=
  if limits.maxLength < text.length then .error (.tooLong text.length limits.maxLength) else .ok ()

/-- The three stages of an evaluation, each told of once it is done. -/
def evaluate (limits : Limits) (text : String) : Traced Fault Workings := do
  checkLength limits text
  let tokens ← Token.scan text
  Traced.tell (.scanned tokens)
  let arranged ← Postfix.ofTokens tokens
  Traced.tell (.arranged arranged)
  let value ← Postfix.reduceTraced limits arranged
  Traced.tell (.reduced value)
  return ⟨tokens, arranged, value⟩

def toFloat (value : Rat) : Except Fault Float :=
  let x := Binary64.nearest value
  if Binary64.toRat? x = none then .error .notRepresentable else .ok x

def compute (limits : Limits) (text : String) : Traced Rejection Float :=
  Traced.orReject text do
    let workings ← evaluate limits text
    toFloat workings.value

def computeExact (limits : Limits) (text : String) : Traced Rejection Rat :=
  Traced.orReject text do
    let workings ← evaluate limits text
    return workings.value

/-- A value of a text with everything a caller may want to show of it. -/
structure Evaluation where
  exact : Rat
  value : Float
  /-- The tokens as written. -/
  tokens : String
  /-- The tokens in the order of computation. -/
  arranged : String
deriving DecidableEq

def Evaluation.text (e : Evaluation) : String := Decimal.exact e.exact

def Evaluation.reading (e : Evaluation) (places : Nat) : String := Decimal.reading e.exact places

def computeDetailed (limits : Limits) (text : String) : Traced Rejection Evaluation :=
  Traced.orReject text do
    let workings ← evaluate limits text
    let value ← toFloat workings.value
    return ⟨workings.value, value, Token.join workings.tokens, Token.join workings.arranged⟩

/-- The value of a text, or nothing for a text that is refused. -/
def tryCompute (text : String) : Traced Empty (Option Float) :=
  let run := compute .standard text
  ⟨run.events, .ok run.result.toOption⟩

def tryComputeOrZero (text : String) : Traced Empty (Bool × Float) := do
  match ← tryCompute text with
  | some value => return (true, value)
  | none => return (false, 0.0)

example : (compute .standard "3+4*2/(1-5)^2").result = .ok 3.5 ∧
    (computeExact .standard "0.1+0.2").result = .ok (3 / 10) ∧
    (compute .standard "10^400").result = .error ⟨.notRepresentable⟩ ∧
    (compute ⟨5, 64⟩ "1+2+34").result = .error ⟨.tooLong 6 5⟩ ∧
    (compute .standard "5%0").result = .error ⟨.operator .divisionByZero⟩ := by decide +kernel

end Reckon
