import Reckon.Evaluation
import Reckon.Proofs.Expr.Arrangement
import Reckon.Proofs.Expr.Reduction
import Reckon.Proofs.Expr.Scanning

/-!
An evaluation without its events. The result of a sequence of stages is the sequence of their
results, and for a text of bearable length that is an expression it is the value of its tree.
-/

namespace Reckon

open Run

variable {limits : Limits} {text : String} {tokens : List Token} {tree : Expr}

theorem evaluate_result (limits : Limits) (text : String) :
    (evaluate limits text).result = (do
      checkLength limits text
      let tokens ← Token.scan text
      let arranged ← Postfix.ofTokens tokens
      let value ← Postfix.reduce limits arranged
      return ⟨tokens, arranged, value⟩) := by
  simp only [evaluate, Traced.result_bind, Traced.result_lift, Traced.result_pure]
  rfl

/-- Where the first stages succeed, the last one decides. -/
theorem evaluate_result_of_arranged {arranged : List Token}
    (hlength : checkLength limits text = .ok ()) (hscan : Token.scan text = .ok tokens)
    (harranged : Postfix.ofTokens tokens = .ok arranged) :
    (evaluate limits text).result =
      (Postfix.reduce limits arranged).map (Workings.mk tokens arranged) := by
  rw [evaluate_result, hlength, hscan]
  change (Postfix.ofTokens tokens >>= _) = _
  rw [harranged]
  change (Postfix.reduce limits arranged >>= _) = _
  cases Postfix.reduce limits arranged <;> rfl

/-- The value of a text, exactly, or why it has none. -/
def exactValue (limits : Limits) (text : String) : Except Fault Rat :=
  (evaluate limits text).result.map Workings.value

theorem computeExact_result (limits : Limits) (text : String) :
    (computeExact limits text).result = (exactValue limits text).mapError Rejection.mk := by
  unfold computeExact
  rw [Traced.result_orReject, Traced.result_bind]
  rfl

theorem computeDetailed_result (limits : Limits) (text : String) :
    (computeDetailed limits text).result = (do
      let workings ← (evaluate limits text).result
      let value ← toFloat workings.value
      return (⟨workings.value, value, Token.join workings.tokens, Token.join workings.arranged⟩ :
        Evaluation)).mapError Rejection.mk := by
  unfold computeDetailed
  simp only [Traced.result_orReject, Traced.result_bind, Traced.result_lift, Traced.result_pure]
  rfl

theorem compute_result (limits : Limits) (text : String) :
    (compute limits text).result = (exactValue limits text >>= toFloat).mapError Rejection.mk := by
  unfold compute exactValue
  rw [Traced.result_orReject, Traced.result_bind]
  simp only [Traced.result_lift]
  cases (evaluate limits text).result <;> rfl

theorem checkLength_of_le (h : text.length ≤ limits.maxLength) :
    checkLength limits text = .ok () := by
  simp [checkLength, Nat.not_lt.mpr h]

theorem length_le_of_checkLength (h : checkLength limits text = .ok ()) :
    text.length ≤ limits.maxLength := by
  unfold checkLength at h
  split at h
  case isTrue => cases h
  case isFalse hle => exact Nat.not_lt.mp hle

theorem tooLong_of_checkLength {fault : Fault} (h : checkLength limits text = .error fault) :
    limits.maxLength < text.length ∧ fault = .tooLong text.length limits.maxLength := by
  unfold checkLength at h
  split at h
  case isTrue hlong =>
    cases h
    exact ⟨hlong, rfl⟩
  case isFalse => cases h

theorem toFloat_error {value : Rat} {fault : Fault} (h : toFloat value = .error fault) :
    fault = .notRepresentable := by
  unfold toFloat at h
  simp only at h
  split at h
  case isTrue =>
    cases h
    rfl
  case isFalse => cases h

/-- What an evaluation that succeeds has gone through. -/
theorem stages_of_evaluate {workings : Workings}
    (h : (evaluate limits text).result = .ok workings) :
    text.length ≤ limits.maxLength ∧ Token.scan text = .ok workings.tokens ∧
      Postfix.ofTokens workings.tokens = .ok workings.arranged ∧
      Postfix.reduce limits workings.arranged = .ok workings.value := by
  rw [evaluate_result] at h
  obtain ⟨_, hlength, h⟩ := bind_eq_ok h
  obtain ⟨tokens, hscan, h⟩ := bind_eq_ok h
  obtain ⟨arranged, harranged, h⟩ := bind_eq_ok h
  obtain ⟨value, hreduce, h⟩ := bind_eq_ok h
  cases h
  exact ⟨length_le_of_checkLength hlength, hscan, harranged, hreduce⟩

/-- A text that is an expression evaluates to the value of its tree, or fails as the tree does. -/
theorem exactValue_of_tree (hscan : Token.scan text = .ok tokens)
    (htree : Derives .sum tokens tree) (hlength : text.length ≤ limits.maxLength) :
    exactValue limits text = (tree.value limits).mapError Fault.operator := by
  unfold exactValue
  rw [evaluate_result, checkLength_of_le hlength, hscan]
  change ((Postfix.ofTokens tokens >>= _).map Workings.value) = _
  rw [Postfix.ofTokens_of_derives htree]
  change ((Postfix.reduce limits tree.postorder >>= _).map Workings.value) = _
  rw [Postfix.reduce_postorder]
  cases tree.value limits <;> rfl

end Reckon
