import Mathlib.Order.Bounds.Defs
import Mathlib.Tactic.ByContra
import Reckon.Expr.Postfix
import Reckon.Proofs.Run

/-!
Which beginnings can still become expressions. The pass over the tokens goes on exactly as long as there
is something to put behind what was read: a value where one is due, and then the closing parentheses that
are missing. So it stops at the first token that spoils every continuation, with the fault of that token
where it stands, and what comes after does not matter. A text that no token has spoiled is refused, if at
all, for how it ends.
-/

namespace Reckon

open Run

variable {tokens read more : List Token} {token : Token} {fault : Fault}

/-- Whether a value ends with this token. -/
def Token.endsValue : Token → Bool
  | .num _ | .rparen => true
  | .op _ | .lparen => false

namespace Postfix

variable {s next : State} {pending : List Pending} {emitted : List Token}

/-- Whether the last of the tokens ends a value. -/
def endsInValue (tokens : List Token) : Bool := tokens.getLast?.any Token.endsValue

/-- The tokens are an expression to the pass. -/
def Accepted (tokens : List Token) : Prop := ∃ arranged, ofTokens tokens = .ok arranged

instance (tokens : List Token) : Decidable (Accepted tokens) :=
  decidable_of_iff ((ofTokens tokens).toOption.isSome = true) (by
    unfold Accepted
    cases ofTokens tokens <;> simp [Except.toOption])

/-- Something can be put behind the tokens that makes them an expression. -/
def Continuable (tokens : List Token) : Prop := ∃ more, Accepted (tokens ++ more)

/-- The ways for a token to be wrong where it stands, behind a value or not, and the fault of each. -/
inductive Misplaced : Bool → Token → Fault → Prop where
  | value (value : Rat) : Misplaced true (.num value) .unexpectedOperand
  | opening : Misplaced true .lparen .unexpectedOperand
  | operator (op : Op) : Misplaced false (.op op) .missingOperand
  | closingNothing : Misplaced false .rparen .missingOperand
  | unmatched : Misplaced true .rparen .unmatchedParen

theorem State.misplaced_of_step (h : s.step token = .error fault) :
    Misplaced s.afterValue token fault := by
  obtain ⟨emitted, pending, afterValue⟩ := s
  cases afterValue with
  | true =>
    cases token with
    | num value =>
      cases h
      exact .value value
    | lparen =>
      cases h
      exact .opening
    | op _ => cases h
    | rparen =>
      simp only [step, if_true] at h
      split at h
      case h_1 => cases h
      case h_2 =>
        cases h
        exact .unmatched
  | false =>
    cases token with
    | num _ => cases h
    | lparen => cases h
    | op op =>
      cases h
      exact .operator op
    | rparen =>
      cases h
      exact .closingNothing

theorem State.afterValue_of_step (h : s.step token = .ok next) :
    next.afterValue = token.endsValue := by
  cases token with
  | num | lparen | op =>
    simp only [step] at h
    split at h
    all_goals cases h
    rfl
  | rparen =>
    simp only [step] at h
    split at h
    case isTrue =>
      split at h
      case h_1 =>
        cases h
        rfl
      case h_2 => cases h
    case isFalse => cases h

/-- The pass remembers of the last token whether it ended a value. -/
theorem afterValue_of_run (h : tokens.foldlM State.step State.start = .ok s) :
    s.afterValue = endsInValue tokens := by
  have hkeeps (read : List Token) (s : State) (token : Token) (next : State)
      (_ : s.afterValue = endsInValue read) (hstep : s.step token = .ok next) :
      next.afterValue = endsInValue (read ++ [token]) := by
    rw [State.afterValue_of_step hstep]
    simp [endsInValue]
  exact invariant hkeeps [] tokens rfl h

/-- From this state the tokens lead to the end of an expression. -/
def State.Finishes (s : State) (tokens : List Token) : Prop :=
  ∃ last arranged, tokens.foldlM State.step s = .ok last ∧ last.finish = .ok arranged

theorem accepted_of_finishes (hread : read.foldlM State.step State.start = .ok s)
    (h : s.Finishes more) : Accepted (read ++ more) := by
  obtain ⟨last, arranged, hmore, hfinish⟩ := h
  refine ⟨arranged, ?_⟩
  unfold ofTokens
  rw [append_of_ok hread, hmore]
  exact hfinish

/-- Behind a value only the closing parentheses are missing. -/
theorem finishes_closings (emitted : List Token) (pending : List Pending) :
    State.Finishes ⟨emitted, pending, true⟩ (List.replicate (pending.count .paren) .rparen) := by
  induction pending generalizing emitted with
  | nil => exact ⟨_, emitted.reverse, rfl, rfl⟩
  | cons waiting rest ih =>
    cases waiting with
    | paren =>
      obtain ⟨last, arranged, hrest, hfinish⟩ := ih emitted
      refine ⟨last, arranged, ?_, hfinish⟩
      have hclose : State.step ⟨emitted, .paren :: rest, true⟩ .rparen =
          .ok ⟨emitted, rest, true⟩ := rfl
      rw [List.count_cons_self, List.replicate_succ, cons_of_ok hclose, hrest]
    | op waiting =>
      obtain ⟨last, arranged, hrest, hfinish⟩ := ih (.op waiting :: emitted)
      rw [List.count_cons_of_ne (by simp)]
      -- the operator is put out by the next closing parenthesis, or by the end where there is none
      cases hcount : rest.count .paren with
      | zero =>
        rw [hcount] at hrest
        cases hrest
        exact ⟨_, arranged, rfl, hfinish⟩
      | succ n =>
        rw [hcount] at hrest
        exact ⟨last, arranged, hrest, hfinish⟩

/-- Where a value is due, any value will do. -/
theorem finishes_of_due (emitted : List Token) (pending : List Pending) :
    State.Finishes ⟨emitted, pending, false⟩
      (.num 0 :: List.replicate (pending.count .paren) .rparen) := by
  have hvalue : State.step ⟨emitted, pending, false⟩ (.num 0) =
      .ok ⟨.num 0 :: emitted, pending, true⟩ := rfl
  obtain ⟨last, arranged, hclosings, hfinish⟩ := finishes_closings (.num 0 :: emitted) pending
  exact ⟨last, arranged, by rw [cons_of_ok hvalue, hclosings], hfinish⟩

/-- Every state of the pass can come to an end. -/
theorem State.exists_finishes (s : State) : ∃ more, s.Finishes more := by
  obtain ⟨emitted, pending, afterValue⟩ := s
  cases afterValue with
  | true => exact ⟨_, finishes_closings emitted pending⟩
  | false => exact ⟨_, finishes_of_due emitted pending⟩

/-- The pass reads a beginning to its end exactly if something makes it an expression. -/
theorem continuable_iff_run :
    Continuable tokens ↔ ∃ s, tokens.foldlM State.step State.start = .ok s := by
  constructor
  · rintro ⟨more, arranged, h⟩
    obtain ⟨last, hrun, -⟩ := bind_eq_ok h
    obtain ⟨s, hread, -⟩ := append_eq_ok hrun
    exact ⟨s, hread⟩
  · rintro ⟨s, hrun⟩
    obtain ⟨more, hmore⟩ := s.exists_finishes
    exact ⟨more, accepted_of_finishes hrun hmore⟩

instance (tokens : List Token) : Decidable (Continuable tokens) :=
  decidable_of_iff ((tokens.foldlM State.step State.start).toOption.isSome = true) (by
    rw [continuable_iff_run]
    cases tokens.foldlM State.step State.start <;> simp [Except.toOption])

private theorem continuable_nil : Continuable [] := continuable_iff_run.mpr ⟨State.start, rfl⟩

/-- A token that spoils a beginning is the one that the pass refuses, whatever follows it. -/
theorem ofTokens_of_spoiled (hread : Continuable read) (hspoiled : ¬Continuable (read ++ [token])) :
    ∃ fault, Misplaced (endsInValue read) token fault ∧
      ∀ more, ofTokens (read ++ [token] ++ more) = .error fault := by
  obtain ⟨s, hrun⟩ := continuable_iff_run.mp hread
  cases hstep : s.step token with
  | ok next =>
    have hnext : [token].foldlM State.step s = .ok next := by
      rw [cons_of_ok hstep]
      rfl
    exact absurd (continuable_iff_run.mpr ⟨next, by rw [append_of_ok hrun, hnext]⟩) hspoiled
  | error fault =>
    have hstops : (read ++ [token]).foldlM State.step State.start = .error fault := by
      rw [append_of_ok hrun, cons_of_error hstep]
    refine ⟨fault, ?_, ?_⟩
    · rw [← afterValue_of_run hrun]
      exact State.misplaced_of_step hstep
    · intro more
      unfold ofTokens
      rw [append_of_error hstops]
      rfl

private theorem unclosed_of_drain (h : drain pending emitted = .error fault) :
    fault = .unclosedParen := by
  induction pending generalizing emitted with
  | nil => cases h
  | cons waiting rest ih =>
    cases waiting with
    | op _ => exact ih h
    | paren =>
      cases h
      rfl

/-- A beginning that is no expression by itself ends too early: before a value, or before a closing
parenthesis. -/
theorem ofTokens_of_continuable (h : Continuable tokens) (hrefused : ¬Accepted tokens) :
    ofTokens tokens =
      .error (if endsInValue tokens then .unclosedParen else .missingOperand) := by
  obtain ⟨s, hrun⟩ := continuable_iff_run.mp h
  have hfinish : ofTokens tokens = s.finish := by
    unfold ofTokens
    rw [hrun]
    rfl
  rw [hfinish, ← afterValue_of_run hrun]
  unfold Accepted at hrefused
  rw [hfinish] at hrefused
  unfold State.finish at hrefused ⊢
  cases hvalue : s.afterValue with
  | false => rfl
  | true =>
    rw [hvalue] at hrefused
    simp only [if_true] at hrefused ⊢
    cases hdrain : drain s.pending s.emitted with
    | ok out =>
      rw [hdrain] at hrefused
      exact absurd ⟨_, rfl⟩ hrefused
    | error fault =>
      rw [unclosed_of_drain hdrain]
      rfl

/-- Before the first place at which a text is spoiled it can be continued. -/
theorem continuable_take_of_least {i : Nat}
    (h : IsLeast {i | i < tokens.length ∧ ¬Continuable (tokens.take (i + 1))} i) :
    Continuable (tokens.take i) := by
  cases i with
  | zero => exact continuable_nil
  | succ j =>
    by_contra hspoiled
    have hbefore : j < tokens.length := Nat.lt_of_succ_lt h.1.1
    exact Nat.not_succ_le_self j (h.2 ⟨hbefore, hspoiled⟩)

/-- The pass reports the first token that spoils the text. If with some token the tokens read so far are
the beginning of no expression, then the first such token decides, by what it is and by whether it
follows a value, and nothing behind it matters. If there is none and the text is still no expression, it
ends before a value that is due, or else before a parenthesis is closed. -/
theorem ofTokens_reports_first_spoiler (tokens : List Token) :
    (∀ i, IsLeast {i | i < tokens.length ∧ ¬Continuable (tokens.take (i + 1))} i →
      ∃ token fault, tokens[i]? = some token ∧
        Misplaced (endsInValue (tokens.take i)) token fault ∧
        ofTokens tokens = .error fault ∧
        ∀ more, ofTokens (tokens.take (i + 1) ++ more) = .error fault) ∧
    ((∀ i < tokens.length, Continuable (tokens.take (i + 1))) → ¬Accepted tokens →
      ofTokens tokens =
        .error (if endsInValue tokens then .unclosedParen else .missingOperand)) := by
  refine ⟨?_, ?_⟩
  · intro i hleast
    obtain ⟨hi, hspoiled⟩ := hleast.1
    have htake : tokens.take (i + 1) = tokens.take i ++ [tokens[i]] := by simp
    rw [htake] at hspoiled ⊢
    obtain ⟨fault, hmisplaced, hrefused⟩ :=
      ofTokens_of_spoiled (continuable_take_of_least hleast) hspoiled
    refine ⟨tokens[i], fault, List.getElem?_eq_getElem hi, hmisplaced, ?_, hrefused⟩
    have hwhole := hrefused (tokens.drop (i + 1))
    rwa [← htake, List.take_append_drop] at hwhole
  · intro hunspoiled hrefused
    refine ofTokens_of_continuable ?_ hrefused
    cases tokens with
    | nil => exact continuable_nil
    | cons first rest =>
      have hlast := hunspoiled rest.length (Nat.lt_add_one _)
      rwa [← List.length_cons (a := first), List.take_length] at hlast

/-- A closing parenthesis behind an operator is spoiled by the missing operand, though it also closes
nothing; a parenthesis left open counts only where no operand is missing. -/
theorem ofTokens_reports_first_spoiler_overlaps :
    IsLeast {i | i < [Token.num 2, .op .mul, .rparen, .rparen].length ∧
        ¬Continuable ([Token.num 2, .op .mul, .rparen, .rparen].take (i + 1))} 2 ∧
      ofTokens [.num 2, .op .mul, .rparen, .rparen] = .error .missingOperand ∧
      ofTokens [.num 2, .op .mul, .rparen, .num 3] = .error .missingOperand ∧
      (∀ i < 3, Continuable ([Token.lparen, .num 2, .op .pow].take (i + 1))) ∧
      ofTokens [.lparen, .num 2, .op .pow] = .error .missingOperand ∧
      (∀ i < 2, Continuable ([Token.lparen, .num 2].take (i + 1))) ∧
      ofTokens [.lparen, .num 2] = .error .unclosedParen := by
  have hleast : IsLeast {i | i < [Token.num 2, .op .mul, .rparen, .rparen].length ∧
      ¬Continuable ([Token.num 2, .op .mul, .rparen, .rparen].take (i + 1))} 2 := by
    refine ⟨⟨by decide, by decide +kernel⟩, ?_⟩
    rintro i ⟨-, hspoiled⟩
    have hbefore : ∀ j < 2, Continuable ([Token.num 2, .op .mul, .rparen, .rparen].take (j + 1)) := by
      decide +kernel
    exact Nat.not_lt.mp fun hi => hspoiled (hbefore i hi)
  obtain ⟨token, fault, htoken, hmisplaced, hrefused, hmore⟩ :=
    (ofTokens_reports_first_spoiler _).1 2 hleast
  cases htoken
  cases hmisplaced
  have hpower : ∀ i < 3, Continuable ([Token.lparen, .num 2, .op .pow].take (i + 1)) := by
    decide +kernel
  have hopen : ∀ i < 2, Continuable ([Token.lparen, .num 2].take (i + 1)) := by decide +kernel
  exact ⟨hleast, hrefused, hmore [.num 3],
    hpower, (ofTokens_reports_first_spoiler _).2 hpower (by decide +kernel),
    hopen, (ofTokens_reports_first_spoiler _).2 hopen (by decide +kernel)⟩

end Postfix
end Reckon
