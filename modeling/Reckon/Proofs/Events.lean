import Reckon.Proofs.Evaluation
import Reckon.Proofs.Expr.Faults

/-!
What the events of an evaluation tell. Every stage that succeeds tells so, in order; of the faults only
the refusal of operands for their size has an event of its own; and whoever handed in the text hears of
its rejection last. So the events say how far an evaluation went, and all ways to evaluate a text tell
the same but for that last word.
-/

namespace Reckon

open Run

variable {limits : Limits} {text : String} {tokens arranged : List Token} {fault : Fault} {op : Op}
  {bits : Nat}

namespace Traced

variable {α β : Type}

/-- The last word on a text: nothing if there is a result, one rejection if there is none. -/
def lastTold (text : String) : Except Fault α → List Event
  | .ok _ => []
  | .error cause => [.rejected text cause]

theorem events_orReject (text : String) (run : Traced Fault α) :
    (orReject text run).events = run.events ++ lastTold text run.result := by
  unfold orReject
  cases run.result with
  | ok a => exact (List.append_nil _).symm
  | error cause => rfl

end Traced

theorem Fault.OfForm.events_eq_nil (h : fault.OfForm) : fault.events = [] := by
  cases fault with
  | empty | unexpectedChar | badNumber | unclosedParen | unmatchedParen | missingOperand
  | unexpectedOperand => rfl
  | tooLong | notRepresentable | operator => exact h.elim

theorem Op.tellsRefusal_checkSize (limits : Limits) (op : Op) (a b : Rat) :
    Traced.TellsRefusal OperatorError.events (op.checkSize limits a b) := by
  unfold checkSize
  simp only
  split <;> rfl

/-- The size guard is all that an operator on numbers tells of, and it goes with the refusal. -/
theorem Op.tellsRefusal_applyTraced (limits : Limits) (op : Op) (a b : Rat) :
    Traced.TellsRefusal OperatorError.events (op.applyTraced limits a b) := by
  have hdivisor (v : Rat) : Traced.TellsRefusal OperatorError.events
      (do
        checkDivisor b
        return v) := by
    refine (Traced.tellsRefusal_lift ?_).bind fun _ => Traced.tellsRefusal_pure v
    intro error h
    rw [eq_of_checkDivisor h]
    rfl
  cases op with
  | add | sub | mul =>
    exact (tellsRefusal_checkSize limits _ a b).bind fun _ => Traced.tellsRefusal_pure _
  | div | rem => exact (tellsRefusal_checkSize limits _ a b).bind fun _ => hdivisor _
  | pow =>
    refine Traced.tellsRefusal_lift fun error h => ?_
    rcases error_of_raise h with rfl | rfl <;> rfl

theorem Postfix.tellsRefusal_pushTraced (limits : Limits) (stack : List Rat) (token : Token) :
    Traced.TellsRefusal Fault.events (pushTraced limits stack token) := by
  cases token with
  | num value => rfl
  | lparen | rparen => rfl
  | op op =>
    rcases stack with _ | ⟨b, _ | ⟨a, rest⟩⟩
    · rfl
    · rfl
    · have happly : Traced.TellsRefusal Fault.events
          ((op.applyTraced limits a b).mapError Fault.operator) :=
        (Op.tellsRefusal_applyTraced limits op a b).mapError fun _ => rfl
      exact happly.bind fun _ => Traced.tellsRefusal_pure _

/-- A computation tells of nothing but the operator that refuses, if one does. -/
theorem Postfix.reduceTraced_eq (limits : Limits) (tokens : List Token) :
    reduceTraced limits tokens =
      ⟨Traced.refusalTold Fault.events (reduce limits tokens), reduce limits tokens⟩ := by
  have hsingle (stack : List Rat) :
      Traced.TellsRefusal Fault.events (liftM (single stack) : Traced Fault Rat) := by
    rcases stack with _ | ⟨_, _ | ⟨_, _⟩⟩ <;> rfl
  have htells : Traced.TellsRefusal Fault.events (reduceTraced limits tokens) :=
    (Traced.TellsRefusal.foldlM (tellsRefusal_pushTraced limits) [] tokens).bind hsingle
  exact congrArg (Traced.mk · (reduce limits tokens)) htells

/-- The tokens of a text that is not too long. -/
def scanned? (limits : Limits) (text : String) : Option (List Token) :=
  (checkLength limits text).toOption.bind fun _ => (Token.scan text).toOption

/-- The tokens in the order of computation, where the text is an expression. -/
def arranged? (limits : Limits) (text : String) : Option (List Token) :=
  (scanned? limits text).bind fun tokens => (Postfix.ofTokens tokens).toOption

/-- The exact value, where the computation succeeds. -/
def reduced? (limits : Limits) (text : String) : Option Rat :=
  (arranged? limits text).bind fun arranged => (Postfix.reduce limits arranged).toOption

/-- One event for each stage that succeeds; none succeeds after one that does not. -/
def stagesTold (limits : Limits) (text : String) : List Event :=
  ((scanned? limits text).map .scanned).toList ++ ((arranged? limits text).map .arranged).toList ++
    ((reduced? limits text).map .reduced).toList

private theorem eq_ok_of_toOption {ε α : Type} {x : Except ε α} {a : α} (h : x.toOption = some a) :
    x = .ok a := by
  cases x with
  | ok found =>
    cases h
    rfl
  | error e => cases h

private theorem scanned?_of_checkLength (hlength : checkLength limits text = .ok ()) :
    scanned? limits text = (Token.scan text).toOption := by
  unfold scanned?
  rw [hlength]
  rfl

private theorem arranged?_of_scanned? (h : scanned? limits text = some tokens) :
    arranged? limits text = (Postfix.ofTokens tokens).toOption := by
  unfold arranged?
  rw [h, Option.bind_some]

private theorem reduced?_of_arranged? (h : arranged? limits text = some arranged) :
    reduced? limits text = (Postfix.reduce limits arranged).toOption := by
  unfold reduced?
  rw [h, Option.bind_some]

private theorem stagesTold_of_not_scanned (h : scanned? limits text = none) :
    stagesTold limits text = [] := by
  unfold stagesTold reduced? arranged?
  rw [h]
  rfl

private theorem stagesTold_of_not_arranged (hscanned : scanned? limits text = some tokens)
    (h : arranged? limits text = none) : stagesTold limits text = [.scanned tokens] := by
  unfold stagesTold reduced?
  rw [h, hscanned]
  rfl

private theorem stagesTold_of_arranged (hscanned : scanned? limits text = some tokens)
    (h : arranged? limits text = some arranged) :
    stagesTold limits text = [.scanned tokens, .arranged arranged] ++
      ((Postfix.reduce limits arranged).toOption.map .reduced).toList := by
  unfold stagesTold
  rw [reduced?_of_arranged? h, h, hscanned]
  rfl

/-- An evaluation tells of its stages as far as it goes, and then of the fault that ends it. -/
theorem evaluate_events (limits : Limits) (text : String) :
    (evaluate limits text).events =
      stagesTold limits text ++ Traced.refusalTold Fault.events (evaluate limits text).result := by
  cases hlength : checkLength limits text with
  | error fault =>
    obtain ⟨-, rfl⟩ := tooLong_of_checkLength hlength
    have hscanned : scanned? limits text = none := by
      unfold scanned?
      rw [hlength]
      rfl
    rw [stagesTold_of_not_scanned hscanned]
    simp only [evaluate, hlength, Traced.lift_error_bind]
    rfl
  | ok _ =>
    have hscanned := scanned?_of_checkLength hlength
    cases hscan : Token.scan text with
    | error fault =>
      rw [hscan] at hscanned
      have hform := (Token.ofForm_of_scan hscan).events_eq_nil
      rw [stagesTold_of_not_scanned hscanned]
      simp only [evaluate, hlength, hscan, Traced.lift_ok_bind, Traced.lift_error_bind]
      exact hform.symm
    | ok tokens =>
      rw [hscan] at hscanned
      have harranged := arranged?_of_scanned? hscanned
      cases hpass : Postfix.ofTokens tokens with
      | error fault =>
        rw [hpass] at harranged
        have hform := (Postfix.ofForm_of_ofTokens hpass).events_eq_nil
        rw [stagesTold_of_not_arranged hscanned harranged]
        simp only [evaluate, hlength, hscan, hpass, Traced.lift_ok_bind, Traced.lift_error_bind,
          Traced.tell_bind, Traced.result_refuse, Traced.refusalTold, hform]
        rfl
      | ok arranged =>
        rw [hpass] at harranged
        rw [stagesTold_of_arranged hscanned harranged]
        simp only [evaluate, hlength, hscan, hpass, Postfix.reduceTraced_eq, Traced.lift_ok_bind,
          Traced.tell_bind]
        cases Postfix.reduce limits arranged <;> rfl

/-- The faults of an evaluation, by the stage they come from. -/
theorem stages_of_error (h : (evaluate limits text).result = .error fault) :
    (limits.maxLength < text.length ∧ fault = .tooLong text.length limits.maxLength) ∨
      fault.OfForm ∨
      ∃ arranged, arranged? limits text = some arranged ∧
        Postfix.reduce limits arranged = .error fault := by
  rw [evaluate_result] at h
  rcases bind_eq_error h with hlong | ⟨_, hlength, h⟩
  · exact .inl (tooLong_of_checkLength hlong)
  · rcases bind_eq_error h with hscan | ⟨tokens, hscan, h⟩
    · exact .inr (.inl (Token.ofForm_of_scan hscan))
    · rcases bind_eq_error h with hpass | ⟨arranged, hpass, h⟩
      · exact .inr (.inl (Postfix.ofForm_of_ofTokens hpass))
      · rcases bind_eq_error h with hreduce | ⟨value, -, hvalue⟩
        · have hscanned : scanned? limits text = some tokens := by
            rw [scanned?_of_checkLength hlength, hscan]
            rfl
          have harranged : arranged? limits text = some arranged := by
            rw [arranged?_of_scanned? hscanned, hpass]
            rfl
          exact .inr (.inr ⟨arranged, harranged, hreduce⟩)
        · cases hvalue

/-- The size guard stops the computation of a text that is an expression. -/
def SizeRefused (limits : Limits) (text : String) (op : Op) (bits : Nat) : Prop :=
  ∃ arranged, arranged? limits text = some arranged ∧
    Postfix.StoppedBySize limits arranged op bits

private theorem stages_of_arranged? (h : arranged? limits text = some arranged) :
    checkLength limits text = .ok () ∧
      ∃ tokens, Token.scan text = .ok tokens ∧ Postfix.ofTokens tokens = .ok arranged := by
  obtain ⟨tokens, hscanned, hpass⟩ := Option.bind_eq_some_iff.mp h
  obtain ⟨_, hlength, hscan⟩ := Option.bind_eq_some_iff.mp hscanned
  exact ⟨eq_ok_of_toOption hlength, tokens, eq_ok_of_toOption hscan, eq_ok_of_toOption hpass⟩

theorem evaluate_eq_tooLarge_iff :
    (evaluate limits text).result = .error (.operator (.operandsTooLarge op bits)) ↔
      SizeRefused limits text op bits := by
  constructor
  · intro h
    rcases stages_of_error h with ⟨-, hfault⟩ | hform | ⟨arranged, harranged, hreduce⟩
    · cases hfault
    · exact hform.elim
    · exact ⟨arranged, harranged, Postfix.reduce_eq_tooLarge_iff.mp hreduce⟩
  · rintro ⟨arranged, harranged, hstopped⟩
    obtain ⟨hlength, tokens, hscan, hpass⟩ := stages_of_arranged? harranged
    rw [evaluate_result_of_arranged hlength hscan hpass, Postfix.reduce_of_stoppedBySize hstopped]
    rfl

/-- Of the refusals in the numbers only one has an event. -/
theorem OperatorError.Arithmetic.tooLarge_or {error : OperatorError} (h : error.Arithmetic) :
    (∃ op bits, error = .operandsTooLarge op bits) ∨
      error.events = [] ∧ ∀ op bits, error ≠ .operandsTooLarge op bits := by
  rcases h with rfl | hnotFinite
  · exact .inr ⟨rfl, nofun⟩
  · cases error with
    | operandsTooLarge op bits => exact .inl ⟨op, bits, rfl⟩
    | nonFiniteResult => exact .inr ⟨rfl, nofun⟩
    | unsupportedOperator | divisionByZero | dateOutOfRange => exact hnotFinite.elim

/-- Of the faults of an evaluation only the refusal of operands for their size has an event. -/
theorem tooLarge_or_of_evaluate (h : (evaluate limits text).result = .error fault) :
    (∃ op bits, fault = .operator (.operandsTooLarge op bits)) ∨
      fault.events = [] ∧ ∀ op bits, fault ≠ .operator (.operandsTooLarge op bits) := by
  have hform (h : fault.OfForm) :
      fault.events = [] ∧ ∀ op bits, fault ≠ .operator (.operandsTooLarge op bits) := by
    refine ⟨h.events_eq_nil, ?_⟩
    rintro op bits rfl
    exact h
  rcases stages_of_error h with ⟨-, rfl⟩ | hfault | ⟨arranged, -, hreduce⟩
  · exact .inr ⟨rfl, nofun⟩
  · exact .inr (hform hfault)
  · rcases Postfix.error_of_reduce hreduce with
      hfault | ⟨_, _, _, _, _, _, error, -, -, happly, rfl⟩
    · exact .inr (hform hfault)
    · rcases (Op.arithmetic_of_apply happly).tooLarge_or with ⟨op, bits, rfl⟩ | ⟨hevents, hne⟩
      · exact .inl ⟨op, bits, rfl⟩
      · refine .inr ⟨hevents, ?_⟩
        intro op bits hfault
        exact hne op bits (Fault.operator.inj hfault)

/-- The fault that ends an evaluation tells of the size guard where that stopped it, and of nothing
else. -/
theorem refusalTold_evaluate (limits : Limits) (text : String) :
    (Traced.refusalTold Fault.events (evaluate limits text).result = [] ∧
        ∀ op bits, ¬SizeRefused limits text op bits) ∨
      ∃ op bits, SizeRefused limits text op bits ∧
        Traced.refusalTold Fault.events (evaluate limits text).result =
          [.operandsTooLarge op bits] := by
  simp only [← evaluate_eq_tooLarge_iff]
  cases hresult : (evaluate limits text).result with
  | ok workings => exact .inl ⟨rfl, nofun⟩
  | error fault =>
    rcases tooLarge_or_of_evaluate hresult with ⟨op, bits, rfl⟩ | ⟨hevents, hne⟩
    · exact .inr ⟨op, bits, rfl, rfl⟩
    · exact .inl ⟨hevents, fun op bits h => hne op bits (Except.error.inj h)⟩

/-- The conversion of a value adds no events but those of its rejection. -/
theorem compute_events (limits : Limits) (text : String) :
    (compute limits text).events = (evaluate limits text).events ++
      Traced.lastTold text (exactValue limits text >>= toFloat) := by
  unfold compute exactValue
  rw [Traced.events_orReject, Traced.events_bind_of_silent fun _ => Traced.events_lift _,
    Traced.result_bind]
  simp only [Traced.result_lift]
  cases (evaluate limits text).result <;> rfl

theorem computeExact_events (limits : Limits) (text : String) :
    (computeExact limits text).events =
      (evaluate limits text).events ++ Traced.lastTold text (exactValue limits text) := by
  unfold computeExact
  rw [Traced.events_orReject, Traced.events_bind_of_silent fun _ => Traced.events_pure _,
    Traced.result_bind]
  rfl

/-- The workings are handed out without a word. -/
theorem computeDetailed_events (limits : Limits) (text : String) :
    (computeDetailed limits text).events = (compute limits text).events := by
  have hsilent (workings : Workings) :
      ((liftM (toFloat workings.value) : Traced Fault Float) >>= fun value =>
        (pure ⟨workings.value, value, Token.join workings.tokens, Token.join workings.arranged⟩ :
          Traced Fault Evaluation)).events = [] := by
    rw [Traced.events_bind_of_silent fun _ => Traced.events_pure _, Traced.events_lift]
  rw [compute_events]
  unfold computeDetailed exactValue
  rw [Traced.events_orReject, Traced.events_bind_of_silent hsilent]
  simp only [Traced.result_bind, Traced.result_lift]
  cases (evaluate limits text).result with
  | error fault => rfl
  | ok workings =>
    change _ ++ Traced.lastTold text (toFloat workings.value >>= _) =
      _ ++ Traced.lastTold text (toFloat workings.value)
    cases toFloat workings.value <;> rfl

theorem computeDetailed_value (limits : Limits) (text : String) :
    (computeDetailed limits text).result.map Evaluation.value = (compute limits text).result := by
  rw [computeDetailed_result, compute_result]
  unfold exactValue
  cases (evaluate limits text).result with
  | error fault => rfl
  | ok workings =>
    change ((toFloat workings.value >>= _).mapError _).map _ = (toFloat workings.value).mapError _
    cases toFloat workings.value <;> rfl

/-- An event as a log shows it. -/
def Event.shown (event : Event) : Level × String × List (String × FieldValue) :=
  (event.level, event.message, event.fields)

/-- The stages tell of themselves in order, and none after one that does not. -/
theorem stagesTold_prefix (limits : Limits) (text : String) :
    (stagesTold limits text).map (fun event => (event.level, event.message)) <+:
      [(.trace, "expression tokenisée"), (.trace, "forme postfixée"),
        (.trace, "expression réduite")] := by
  cases hscanned : scanned? limits text with
  | none =>
    rw [stagesTold_of_not_scanned hscanned]
    exact List.nil_prefix
  | some tokens =>
    cases harranged : arranged? limits text with
    | none =>
      rw [stagesTold_of_not_arranged hscanned harranged]
      exact ⟨_, rfl⟩
    | some arranged =>
      rw [stagesTold_of_arranged hscanned harranged]
      cases Postfix.reduce limits arranged with
      | error fault => exact ⟨_, rfl⟩
      | ok value => exact ⟨_, rfl⟩

theorem stagesTold_of_long (h : limits.maxLength < text.length) : stagesTold limits text = [] := by
  have hlength : checkLength limits text = .error (.tooLong text.length limits.maxLength) := by
    simp [checkLength, h]
  apply stagesTold_of_not_scanned
  unfold scanned?
  rw [hlength]
  rfl

/-- The events of an evaluation tell how far it went: its stages as far as they succeed, the size guard
exactly where it stops the computation, and the rejection, last, exactly where there is one. Whoever
asks for the workings hears the same and has the same value; whoever asks for the exact value hears no
rejection where only the conversion fails. -/
theorem events_tell_progress (limits : Limits) (text : String) :
    (∃ guard last, (compute limits text).events = stagesTold limits text ++ guard ++ last ∧
      ((guard = [] ∧ ∀ op bits, ¬SizeRefused limits text op bits) ∨
        ∃ op bits, SizeRefused limits text op bits ∧ guard.map Event.shown =
          [(.debug, "opérandes exacts trop grands",
            [("op", .text op.text), ("bits", .count bits)])]) ∧
      ((last = [] ∧ ∃ x, (compute limits text).result = .ok x) ∨
        ∃ cause, (compute limits text).result = .error ⟨cause⟩ ∧ last.map Event.shown =
          [(.debug, "expression rejetée",
            [("expression", .text text), ("motif", .text cause.message)])])) ∧
    (stagesTold limits text).map (fun event => (event.level, event.message)) <+:
      [(.trace, "expression tokenisée"), (.trace, "forme postfixée"),
        (.trace, "expression réduite")] ∧
    (limits.maxLength < text.length → stagesTold limits text = []) ∧
    (computeDetailed limits text).events = (compute limits text).events ∧
    (computeDetailed limits text).result.map Evaluation.value = (compute limits text).result ∧
    (∀ value, (computeExact limits text).result = .ok value →
      toFloat value = .error .notRepresentable →
      (compute limits text).events =
        (computeExact limits text).events ++ [.rejected text .notRepresentable]) ∧
    ((∀ value, (computeExact limits text).result = .ok value →
        toFloat value ≠ .error .notRepresentable) →
      (compute limits text).events = (computeExact limits text).events) := by
  refine ⟨?_, stagesTold_prefix limits text, stagesTold_of_long, computeDetailed_events limits text,
    computeDetailed_value limits text, ?_, ?_⟩
  · refine ⟨_, _, by rw [compute_events, evaluate_events], ?_, ?_⟩
    · rcases refusalTold_evaluate limits text with hnone | ⟨op, bits, hrefused, htold⟩
      · exact .inl hnone
      · refine .inr ⟨op, bits, hrefused, ?_⟩
        rw [htold]
        rfl
    · rw [compute_result]
      cases exactValue limits text >>= toFloat with
      | ok x => exact .inl ⟨rfl, x, rfl⟩
      | error cause => exact .inr ⟨cause, rfl, rfl⟩
  · intro value hvalue hfloat
    rw [computeExact_result] at hvalue
    have hexact := of_mapError_eq_ok hvalue
    rw [compute_events, computeExact_events, hexact]
    change _ ++ Traced.lastTold text (toFloat value) = _
    rw [hfloat]
    simp [Traced.lastTold]
  · intro hfloat
    rw [compute_events, computeExact_events]
    cases hexact : exactValue limits text with
    | error fault => rfl
    | ok value =>
      rw [computeExact_result, hexact] at hfloat
      have hne := hfloat value rfl
      change _ ++ Traced.lastTold text (toFloat value) = _
      cases hvalue : toFloat value with
      | ok x => rfl
      | error fault =>
        obtain rfl := toFloat_error hvalue
        exact absurd hvalue hne

/-- A product too large for its limits, a value too large for the floats, and a text too long. -/
theorem events_tell_progress_too_large :
    (compute ⟨7, 8⟩ "99*99*9").events =
        [.scanned [.num 99, .op .mul, .num 99, .op .mul, .num 9],
          .arranged [.num 99, .num 99, .op .mul, .num 9, .op .mul], .operandsTooLarge .mul 20,
          .rejected "99*99*9" (.operator (.operandsTooLarge .mul 20))] ∧
      SizeRefused ⟨7, 8⟩ "99*99*9" .mul 20 ∧
      (computeExact .standard "10^400").result = .ok (Rational.power 10 400) ∧
      toFloat (Rational.power 10 400) = .error .notRepresentable ∧
      (compute .standard "10^400").events =
        (computeExact .standard "10^400").events ++ [.rejected "10^400" .notRepresentable] ∧
      stagesTold ⟨7, 8⟩ "99*99*99" = [] := by
  have hrefused : SizeRefused ⟨7, 8⟩ "99*99*9" .mul 20 :=
    evaluate_eq_tooLarge_iff.mp (by decide +kernel)
  have hexact : (computeExact .standard "10^400").result = .ok (Rational.power 10 400) := by
    decide +kernel
  have hfloat : toFloat (Rational.power 10 400) = .error .notRepresentable := by decide +kernel
  obtain ⟨-, -, -, -, -, hconversion, -⟩ := events_tell_progress .standard "10^400"
  obtain ⟨-, -, hlong, -⟩ := events_tell_progress ⟨7, 8⟩ "99*99*99"
  exact ⟨by decide +kernel, hrefused, hexact, hfloat, hconversion _ hexact hfloat,
    hlong (by decide)⟩

end Reckon
