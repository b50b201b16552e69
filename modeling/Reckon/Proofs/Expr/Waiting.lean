import Mathlib.Data.List.Chain
import Reckon.Proofs.Expr.Arrangement

/-!
What the pass keeps of the tokens it has read. That only operators and opening parentheses wait is the type
of `Pending`. Among those that wait there are as many parentheses as are open, and from one to the next the
operators bind tighter and tighter, powers excepted, which may wait on one another. What was put out has
the numbers in their order; the operators are there or wait, each as often as it was read.
-/

namespace Reckon

variable {read emitted out : List Token} {token : Token}

/-- The number that a token is, if it is one. -/
def Token.number? : Token → Option Rat
  | .num value => some value
  | .op _ | .lparen | .rparen => none

/-- The operator that a token is, if it is one. -/
def Token.operator? : Token → Option Op
  | .op operator => some operator
  | .num _ | .lparen | .rparen => none

namespace Postfix

open Run

variable {incoming : Op} {pending rest : List Pending} {s next : State}

/-- The operator that waits, if it is one that does. -/
def Pending.operator? : Pending → Option Op
  | .op operator => some operator
  | .paren => none

/-- What may wait right above what: an operator above one that does not bind tighter, nor as tight unless
both are powers. A parenthesis may wait above anything and anything above it. -/
def Pending.MayStandOn : Pending → Pending → Prop
  | .op upper, .op lower =>
    lower.precedence ≤ upper.precedence ∧
      (lower.precedence = upper.precedence → lower = .pow ∧ upper = .pow)
  | .op _, .paren | .paren, _ => True

/-- The steps of the pass with all that they do. An operator or a closing parenthesis puts out a row of the
innermost operators: an operator those that it completes, and a parenthesis all down to the opening one. -/
inductive Passage : State → Token → State → Prop where
  | num {emitted : List Token} {pending : List Pending} (value : Rat) :
      Passage ⟨emitted, pending, false⟩ (.num value) ⟨.num value :: emitted, pending, true⟩
  | lparen {emitted : List Token} {pending : List Pending} :
      Passage ⟨emitted, pending, false⟩ .lparen ⟨emitted, .paren :: pending, false⟩
  | rparen {emitted : List Token} {rest : List Pending} (released : List Op) :
      Passage ⟨emitted, released.map .op ++ .paren :: rest, true⟩ .rparen
        ⟨flush released emitted, rest, true⟩
  | op {emitted : List Token} {rest : List Pending} (incoming : Op) (released : List Op)
      (hcomplete : ∀ waiting ∈ released, isComplete incoming waiting = true)
      (hwaits : ∀ top, rest.head? = some (.op top) → isComplete incoming top = false) :
      Passage ⟨emitted, released.map .op ++ rest, true⟩ (.op incoming)
        ⟨flush released emitted, .op incoming :: rest, false⟩

private theorem release_cases (incoming : Op) (pending : List Pending) (emitted : List Token) :
    ∃ released rest, pending = released.map .op ++ rest ∧
      release incoming pending emitted = (rest, flush released emitted) ∧
      (∀ waiting ∈ released, isComplete incoming waiting = true) ∧
      ∀ top, rest.head? = some (.op top) → isComplete incoming top = false := by
  fun_induction release incoming pending emitted with
  | case1 waiting below emitted hcomplete ih =>
    obtain ⟨released, rest, rfl, hrelease, hall, hwaits⟩ := ih
    refine ⟨waiting :: released, rest, rfl, ?_, ?_, hwaits⟩
    · rw [hrelease, flush_cons]
    · simpa [hcomplete] using hall
  | case2 waiting below emitted hwaiting =>
    refine ⟨[], .op waiting :: below, rfl, rfl, by simp, ?_⟩
    simpa using hwaiting
  | case3 pending emitted hnotOp =>
    refine ⟨[], pending, rfl, rfl, by simp, ?_⟩
    intro top htop
    obtain ⟨below, rfl⟩ := List.head?_eq_some_iff.mp htop
    exact absurd rfl (hnotOp top below)

private theorem close_cases (h : close? pending emitted = some (rest, out)) :
    ∃ released : List Op, pending = released.map .op ++ .paren :: rest ∧
      out = flush released emitted := by
  fun_induction close? pending emitted with
  | case1 => cases h
  | case2 =>
    cases h
    exact ⟨[], rfl, rfl⟩
  | case3 waiting below emitted ih =>
    obtain ⟨released, rfl, rfl⟩ := ih h
    exact ⟨waiting :: released, rfl, (flush_cons waiting released emitted).symm⟩

theorem State.passage_of_step (h : s.step token = .ok next) : Passage s token next := by
  obtain ⟨emitted, pending, afterValue⟩ := s
  cases afterValue with
  | false =>
    cases token with
    | num value =>
      cases h
      exact .num value
    | lparen =>
      cases h
      exact .lparen
    | op _ => cases h
    | rparen => cases h
  | true =>
    cases token with
    | num _ => cases h
    | lparen => cases h
    | op incoming =>
      obtain ⟨released, rest, rfl, hrelease, hcomplete, hwaits⟩ :=
        release_cases incoming pending emitted
      simp only [step, if_true, hrelease, Except.ok.injEq] at h
      subst h
      exact .op incoming released hcomplete hwaits
    | rparen =>
      simp only [step, if_true] at h
      split at h
      case h_1 rest out hclose =>
        cases h
        obtain ⟨released, rfl, rfl⟩ := close_cases hclose
        exact .rparen released
      case h_2 => cases h

@[simp] theorem count_paren_waiting (waiting : List Op) :
    (waiting.map Pending.op).count .paren = 0 := by
  simp [List.count_eq_zero]

@[simp] theorem filterMap_operator?_waiting (waiting : List Op) :
    waiting.filterMap (Pending.operator? ∘ Pending.op) = waiting := List.filterMap_some

@[simp] theorem filterMap_number?_flush (waiting : List Op) (emitted : List Token) :
    (flush waiting emitted).filterMap Token.number? = emitted.filterMap Token.number? := by
  induction waiting generalizing emitted with
  | nil => rfl
  | cons w others ih => simp [flush_cons, ih, List.filterMap_cons, Token.number?]

private theorem perm_flush (waiting : List Op) (emitted : List Token) :
    ((flush waiting emitted).filterMap Token.operator?).Perm
      (emitted.filterMap Token.operator? ++ waiting) := by
  induction waiting generalizing emitted with
  | nil => simp [flush]
  | cons w others ih =>
    rw [flush_cons]
    exact (ih (.op w :: emitted)).trans List.perm_middle.symm

/-- An operator that is not completed binds less tightly than the incoming one, or both are powers. -/
theorem mayStandOn_of_not_isComplete {top : Op} (h : isComplete incoming top = false) :
    Pending.MayStandOn (.op incoming) (.op top) := by
  cases incoming <;> cases top <;>
    simp_all [isComplete, Pending.MayStandOn, Op.precedence, Op.rightAssociative]

namespace Passage

theorem count_paren (h : Passage s token next) :
    next.pending.count .paren + [token].count .rparen =
      s.pending.count .paren + [token].count .lparen := by
  cases h with
  | num | lparen | rparen | op => simp

theorem ordered (h : Passage s token next) (hs : s.pending.IsChain Pending.MayStandOn) :
    next.pending.IsChain Pending.MayStandOn := by
  cases h with
  | num => exact hs
  | lparen => exact List.isChain_cons.mpr ⟨fun _ _ => trivial, hs⟩
  | rparen released => exact (List.isChain_cons.mp hs.right_of_append).2
  | op incoming released hcomplete hwaits =>
    refine List.isChain_cons.mpr ⟨?_, hs.right_of_append⟩
    intro top htop
    cases top with
    | paren => trivial
    | op top => exact mayStandOn_of_not_isComplete (hwaits top htop)

theorem numbers (h : Passage s token next) :
    next.emitted.reverse.filterMap Token.number? =
      s.emitted.reverse.filterMap Token.number? ++ [token].filterMap Token.number? := by
  cases h with
  | num | lparen | rparen | op => simp [List.filterMap_cons, Token.number?]

/-- Putting out a row of operators moves them and loses none. -/
theorem operators (h : Passage s token next) :
    (next.emitted.filterMap Token.operator? ++ next.pending.filterMap Pending.operator?).Perm
      (s.emitted.filterMap Token.operator? ++ s.pending.filterMap Pending.operator? ++
        [token].filterMap Token.operator?) := by
  cases h with
  | num | lparen => simp [List.filterMap_cons, Token.operator?, Pending.operator?]
  | @rparen emitted rest released =>
    have hmoved := (perm_flush released emitted).append_right (rest.filterMap Pending.operator?)
    simpa [List.filterMap_cons, Token.operator?, Pending.operator?] using hmoved
  | @op emitted rest incoming released =>
    have hmoved := (perm_flush released emitted).append_right (rest.filterMap Pending.operator?)
    have hadded := (hmoved.cons incoming).trans (List.perm_append_singleton incoming _).symm
    simpa [List.filterMap_cons, Token.operator?, Pending.operator?] using
      List.perm_middle.trans hadded

end Passage

/-- What is put out and what waits, set against the tokens read. -/
structure State.Keeps (read : List Token) (s : State) : Prop where
  parens : s.pending.count .paren + read.count .rparen = read.count .lparen
  ordered : s.pending.IsChain Pending.MayStandOn
  numbers : s.emitted.reverse.filterMap Token.number? = read.filterMap Token.number?
  operators : (s.emitted.filterMap Token.operator? ++ s.pending.filterMap Pending.operator?).Perm
    (read.filterMap Token.operator?)

theorem State.keeps_start : State.start.Keeps [] :=
  ⟨rfl, List.isChain_nil, rfl, .refl _⟩

theorem State.Keeps.step (read : List Token) (s : State) (token : Token) (next : State)
    (h : s.Keeps read) (hstep : s.step token = .ok next) : next.Keeps (read ++ [token]) := by
  have hpassage := passage_of_step hstep
  refine ⟨?_, hpassage.ordered h.ordered, ?_, ?_⟩
  · have hcount := hpassage.count_paren
    have hbefore := h.parens
    rw [List.count_append, List.count_append]
    omega
  · rw [hpassage.numbers, h.numbers, List.filterMap_append]
  · rw [List.filterMap_append]
    exact hpassage.operators.trans (h.operators.append_right _)

/-- Operators that wait with no parenthesis between them, innermost first, are in order. -/
theorem row_of_ordered {waiting : List Op} (h : pending.IsChain Pending.MayStandOn)
    (hrow : waiting.map .op <:+: pending) :
    waiting.Pairwise (fun upper lower => lower.precedence ≤ upper.precedence) ∧
      waiting.IsChain (fun upper lower =>
        lower.precedence = upper.precedence → lower = .pow ∧ upper = .pow) := by
  have hstretch : (waiting.map Pending.op).IsChain Pending.MayStandOn := List.IsChain.infix h hrow
  have hchain := (List.isChain_map Pending.op).mp hstretch
  have hneighbours : (waiting.map Op.precedence).IsChain (· ≥ ·) :=
    (List.isChain_map Op.precedence).mpr (hchain.imp fun _ _ hstand => hstand.1)
  exact ⟨List.pairwise_map.mp hneighbours.pairwise, hchain.imp fun _ _ hstand => hstand.2⟩

/-- Wherever the pass has come to without a fault: as many parentheses wait as were opened and not closed;
from one of them to the next, above the innermost and below the outermost, the operators that wait bind no
less tightly inwards, and two neighbours as tightly only if both are powers; the numbers put out are those
read, in their order; and the operators put out and those that wait are together those read. Nothing else
waits, by the type of what does. -/
theorem pass_keeps (read : List Token) (s : State)
    (h : read.foldlM State.step State.start = .ok s) :
    s.pending.count .paren + read.count .rparen = read.count .lparen ∧
    (∀ waiting : List Op, waiting.map .op <:+: s.pending →
      waiting.Pairwise (fun upper lower => lower.precedence ≤ upper.precedence) ∧
      waiting.IsChain (fun upper lower =>
        lower.precedence = upper.precedence → lower = .pow ∧ upper = .pow)) ∧
    s.emitted.reverse.filterMap Token.number? = read.filterMap Token.number? ∧
    (s.emitted.filterMap Token.operator? ++ s.pending.filterMap Pending.operator?).Perm
      (read.filterMap Token.operator?) := by
  have hkeeps : s.Keeps read := invariant State.Keeps.step [] read State.keeps_start h
  exact ⟨hkeeps.parens, fun _ hrow => row_of_ordered hkeeps.ordered hrow, hkeeps.numbers,
    hkeeps.operators⟩

/-- In `2 - (3 * 4 ^ 5 ^` two powers wait on a product, and a difference outside the parenthesis. -/
theorem pass_keeps_powers :
    [Token.num 2, .op .sub, .lparen, .num 3, .op .mul, .num 4, .op .pow, .num 5, .op .pow].foldlM
        State.step State.start =
      .ok ⟨[.num 5, .num 4, .num 3, .num 2],
        [.op .pow, .op .pow, .op .mul, .paren, .op .sub], false⟩ ∧
      [Pending.op .pow, .op .pow, .op .mul, .paren, .op .sub].count .paren + 0 = 1 ∧
      [Op.pow, .pow, .mul].map Pending.op <:+:
        [.op .pow, .op .pow, .op .mul, .paren, .op .sub] ∧
      [Op.pow, .pow, .mul].Pairwise (fun upper lower => lower.precedence ≤ upper.precedence) ∧
      [Token.num 2, .num 3, .num 4, .num 5].filterMap Token.number? = [2, 3, 4, 5] := by
  have hrun : [Token.num 2, .op .sub, .lparen, .num 3, .op .mul, .num 4, .op .pow, .num 5,
      .op .pow].foldlM State.step State.start =
      .ok ⟨[.num 5, .num 4, .num 3, .num 2],
        [.op .pow, .op .pow, .op .mul, .paren, .op .sub], false⟩ := rfl
  have hrow : [Op.pow, .pow, .mul].map Pending.op <:+:
      [.op .pow, .op .pow, .op .mul, .paren, .op .sub] := ⟨[], [.paren, .op .sub], rfl⟩
  obtain ⟨hparens, hrows, hnumbers, -⟩ := pass_keeps _ _ hrun
  exact ⟨hrun, hparens, hrow, (hrows _ hrow).1, hnumbers⟩

end Postfix
end Reckon
