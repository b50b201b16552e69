import Reckon.Expr.Postfix
import Reckon.Proofs.Expr.Grammar
import Reckon.Proofs.Expr.Postorder
import Reckon.Proofs.Run

/-!
The one pass over the tokens decides the grammar and puts out the tree in postorder. A phrase that is
read where it is due leaves behind the operators that still wait for what follows; put out in their
order they complete its tree. Conversely, what waits at any point of a text, innermost first, splits
what was read into the left operands and the parentheses of an expression under way.
-/

namespace Reckon.Postfix

open Run

variable {phrase : Phrase} {op incoming waiting : Op} {tokens read emitted out : List Token}
  {left right : List Token} {pending rest : List Pending} {tree a b : Expr}

/-- The loosest phrase that may follow what waits. -/
def due : List Pending → Phrase
  | .op waiting :: _ => waiting.rightPhrase
  | _ => .sum

/-- An incoming operator completes the waiting ones that may be its left operand. -/
theorem isComplete_iff :
    isComplete incoming waiting = true ↔ incoming.leftPhrase.rank ≤ waiting.phrase.rank := by
  cases incoming <;> cases waiting <;> decide

/-- It leaves alone those in whose right operand it may stand. -/
theorem isComplete_eq_false_iff :
    isComplete incoming waiting = false ↔ waiting.rightPhrase.rank ≤ incoming.phrase.rank := by
  cases incoming <;> cases waiting <;> decide

private theorem release_of_due (h : (due pending).rank ≤ incoming.phrase.rank)
    (emitted : List Token) :
    release incoming pending emitted = (pending, emitted) := by
  match pending with
  | [] => rfl
  | .paren :: _ => rfl
  | .op waiting :: _ => simp [release, isComplete_eq_false_iff.mpr h]

/-- The output once the operators of `waiting`, innermost first, are put out. -/
def flush (waiting : List Op) (emitted : List Token) : List Token :=
  waiting.reverse.map Token.op ++ emitted

theorem flush_cons (waiting : Op) (others : List Op) (emitted : List Token) :
    flush (waiting :: others) emitted = flush others (.op waiting :: emitted) := by
  simp [flush]

private theorem flush_concat (waiting : Op) (others : List Op) (emitted : List Token) :
    flush (others ++ [waiting]) emitted = .op waiting :: flush others emitted := by
  simp [flush]

theorem release_waiting (waiting : List Op) (pending : List Pending) (emitted : List Token)
    (h : ∀ w ∈ waiting, incoming.leftPhrase.rank ≤ w.phrase.rank) :
    release incoming (waiting.map .op ++ pending) emitted =
      release incoming pending (flush waiting emitted) := by
  induction waiting generalizing emitted with
  | nil => rfl
  | cons w others ih =>
    have hw : isComplete incoming w = true := isComplete_iff.mpr (h w (by simp))
    have hothers : ∀ v ∈ others, incoming.leftPhrase.rank ≤ v.phrase.rank := by
      intro v hv
      exact h v (by simp [hv])
    rw [flush_cons, ← ih (.op w :: emitted) hothers]
    simp [release, hw]

theorem close_waiting (waiting : List Op) (pending : List Pending) (emitted : List Token) :
    close? (waiting.map .op ++ .paren :: pending) emitted =
      some (pending, flush waiting emitted) := by
  induction waiting generalizing emitted with
  | nil => rfl
  | cons w others ih =>
    rw [flush_cons, ← ih (.op w :: emitted)]
    rfl

theorem drain_waiting (waiting : List Op) (emitted : List Token) :
    drain (waiting.map .op) emitted = .ok (flush waiting emitted) := by
  induction waiting generalizing emitted with
  | nil => rfl
  | cons w others ih =>
    rw [flush_cons, ← ih (.op w :: emitted)]
    rfl

/-- Reading a phrase where it is due goes through and leaves what waited before as it is. The
operators of the phrase that still wait make no looser phrase than it, and complete its tree. -/
def Completes (phrase : Phrase) (tokens : List Token) (tree : Expr) : Prop :=
  ∀ emitted pending, (due pending).rank ≤ phrase.rank → ∃ out waiting,
    tokens.foldlM State.step ⟨emitted, pending, false⟩ =
      .ok ⟨out, waiting.map .op ++ pending, true⟩ ∧
    (∀ w ∈ waiting, phrase.rank ≤ w.phrase.rank) ∧
    flush waiting out = tree.postorder.reverse ++ emitted

private theorem completes_num (value : Rat) : Completes .atom [.num value] (.num value) :=
  fun emitted _ _ => ⟨.num value :: emitted, [], rfl, by simp, rfl⟩

private theorem completes_paren (h : Completes .sum tokens tree) :
    Completes .atom (.lparen :: tokens ++ [.rparen]) tree := by
  intro emitted pending _
  obtain ⟨out, waiting, hrun, -, hflush⟩ := h emitted (.paren :: pending) (Nat.le_refl _)
  refine ⟨flush waiting out, [], ?_, by simp, by simpa [flush] using hflush⟩
  have hopen : State.step ⟨emitted, pending, false⟩ .lparen =
      .ok ⟨emitted, .paren :: pending, false⟩ := rfl
  have hclose : State.step ⟨out, waiting.map .op ++ .paren :: pending, true⟩ .rparen =
      .ok ⟨flush waiting out, pending, true⟩ := by
    simp [State.step, close_waiting]
  rw [List.cons_append, cons_of_ok hopen, append_of_ok hrun, cons_of_ok hclose]
  rfl

/-- An operator between two phrases that it admits waits in turn while the right one is read. -/
theorem completes_node (op : Op) (hleft : Completes op.leftPhrase left a)
    (hright : Completes op.rightPhrase right b) :
    Completes op.phrase (left ++ .op op :: right) (.node op a b) := by
  intro emitted pending hdue
  obtain ⟨out, waiting, hrun, hwaiting, hflush⟩ :=
    hleft emitted pending (Nat.le_trans hdue op.rank_phrase_le_left)
  -- all that waits of the left operand is completed, and nothing before that
  have hop : State.step ⟨out, waiting.map .op ++ pending, true⟩ (.op op) =
      .ok ⟨a.postorder.reverse ++ emitted, .op op :: pending, false⟩ := by
    simp [State.step, release_waiting waiting pending out hwaiting, release_of_due hdue, hflush]
  obtain ⟨out', waiting', hrun', hwaiting', hflush'⟩ :=
    hright (a.postorder.reverse ++ emitted) (.op op :: pending) (Nat.le_refl _)
  refine ⟨out', waiting' ++ [op], ?_, ?_, ?_⟩
  · rw [append_of_ok hrun, cons_of_ok hop, hrun']
    simp
  · intro w hw
    rcases List.mem_append.mp hw with hw | hw
    · exact Nat.le_trans op.rank_phrase_le_right (hwaiting' w hw)
    · cases List.mem_singleton.mp hw
      exact Nat.le_refl _
  · rw [flush_concat, hflush']
    simp [Expr.postorder]

theorem completes_of_derives (h : Derives phrase tokens tree) : Completes phrase tokens tree := by
  induction h using Derives.rule_induction with
  | num value => exact completes_num value
  | paren tokens tree h ih => exact completes_paren ih
  | loosen phrase looser tokens tree h hrank ih =>
    intro emitted pending hdue
    obtain ⟨out, waiting, hrun, hwaiting, hflush⟩ := ih emitted pending (Nat.le_trans hdue hrank)
    refine ⟨out, waiting, hrun, ?_, hflush⟩
    intro w hw
    exact Nat.le_trans hrank (hwaiting w hw)
  | node op left right a b hleft hright ihl ihr => exact completes_node op ihl ihr

/-- Every expression is accepted, and its output is the tree in postorder. -/
theorem ofTokens_of_derives (h : Derives .sum tokens tree) :
    ofTokens tokens = .ok tree.postorder := by
  obtain ⟨out, waiting, hrun, -, hflush⟩ := completes_of_derives h [] [] (Nat.le_refl _)
  have hdrain := drain_waiting waiting out
  rw [List.append_nil] at hrun
  rw [List.append_nil] at hflush
  rw [hflush] at hdrain
  unfold ofTokens State.start
  rw [hrun]
  simp [State.finish, hdrain, bind, Except.bind, Except.map]

/-- How what was read splits where a value is due. Each waiting operator has its left operand, which
is put out, and leaves alone what waited before it. -/
inductive Awaits : List Token → List Token → List Pending → Prop where
  | start : Awaits [] [] []
  | paren {read emitted : List Token} {pending : List Pending} :
      Awaits read emitted pending → Awaits (read ++ [.lparen]) emitted (.paren :: pending)
  | op {read emitted left : List Token} {pending : List Pending} {a : Expr} (op : Op) :
      Awaits read emitted pending → Derives op.leftPhrase left a →
        (due pending).rank ≤ op.phrase.rank →
        Awaits (read ++ left ++ [.op op]) (a.postorder.reverse ++ emitted) (.op op :: pending)

/-- What was read ends with a phrase that may follow what waits, and that phrase is put out. -/
def Follows (phrase : Phrase) (read emitted : List Token) (pending : List Pending) : Prop :=
  ∃ before out tokens tree, Awaits before out pending ∧ Derives phrase tokens tree ∧
    (due pending).rank ≤ phrase.rank ∧ read = before ++ tokens ∧
    emitted = tree.postorder.reverse ++ out

/-- The waiting operator, its left operand and the phrase that follows it make one phrase. -/
theorem follows_of_op (h : Follows phrase read emitted (.op waiting :: rest)) :
    Follows waiting.phrase read (.op waiting :: emitted) rest := by
  obtain ⟨before, out, tokens, tree, hawaits, hderives, hdue, hread, hemitted⟩ := h
  cases hawaits with
  | @op before' out' left _ a _ hawaits' hleft hdue' =>
    have hnode := Derives.node waiting hleft (hderives.loosen hdue)
    refine ⟨before', out', _, _, hawaits', hnode, hdue', ?_, ?_⟩
    · simp [hread]
    · simp [hemitted, Expr.postorder]

/-- After the release what was read ends with a left operand of the incoming operator. -/
theorem follows_release (h : Follows phrase read emitted pending)
    (hleft : op.leftPhrase.rank ≤ phrase.rank) :
    ∃ left, op.leftPhrase.rank ≤ left.rank ∧
      Follows left read (release op pending emitted).2 (release op pending emitted).1 ∧
      (due (release op pending emitted).1).rank ≤ op.phrase.rank := by
  fun_induction release op pending emitted generalizing phrase with
  | case1 waiting rest emitted hcomplete ih =>
    exact ih (follows_of_op h) (isComplete_iff.mp hcomplete)
  | case2 waiting rest emitted hwaits =>
    exact ⟨phrase, hleft, h, isComplete_eq_false_iff.mp (by simpa using hwaits)⟩
  | case3 pending emitted hnotOp =>
    refine ⟨phrase, hleft, h, ?_⟩
    match pending with
    | [] => exact Phrase.rank_sum_le _
    | .paren :: _ => exact Phrase.rank_sum_le _
    | .op waiting :: rest => exact absurd rfl (hnotOp waiting rest)

private theorem follows_close (h : Follows phrase read emitted pending)
    (hclose : close? pending emitted = some (rest, out)) :
    Follows .atom (read ++ [.rparen]) out rest := by
  fun_induction close? pending emitted generalizing phrase with
  | case1 emitted => cases hclose
  | case2 rest' emitted =>
    cases hclose
    obtain ⟨before, out', tokens, tree, hawaits, hderives, hdue, hread, hemitted⟩ := h
    cases hawaits with
    | @paren before' _ _ hawaits' =>
      have hatom := Derives.paren (hderives.loosen hdue)
      exact ⟨before', out', _, tree, hawaits', hatom, Phrase.rank_le_atom _, by simp [hread],
        hemitted⟩
  | case3 waiting rest' emitted ih => exact ih (follows_of_op h) hclose

theorem derives_of_drain (h : Follows phrase read emitted pending)
    (hdrain : drain pending emitted = .ok out) :
    ∃ tree, Derives .sum read tree ∧ out = tree.postorder.reverse := by
  fun_induction drain pending emitted generalizing phrase with
  | case1 emitted =>
    cases hdrain
    obtain ⟨before, out', tokens, tree, hawaits, hderives, hdue, hread, hemitted⟩ := h
    cases hawaits with
    | start =>
      -- nothing waits any more, so that the last phrase began where the text did
      refine ⟨tree, ?_, by simpa using hemitted⟩
      rw [hread]
      exact hderives.loosen hdue
  | case2 rest emitted => cases hdrain
  | case3 waiting rest emitted ih => exact ih (follows_of_op h) hdrain

/-- What the state of the pass says of the tokens read so far. -/
def State.Reads (read : List Token) (s : State) : Prop :=
  if s.afterValue then Follows .atom read s.emitted s.pending
  else Awaits read s.emitted s.pending

theorem State.reads_step (read : List Token) (s : State) (token : Token) (next : State)
    (h : s.Reads read) (hstep : s.step token = .ok next) : next.Reads (read ++ [token]) := by
  obtain ⟨emitted, pending, afterValue⟩ := s
  cases afterValue with
  | false =>
    -- a value is due, so that only a number or an opening parenthesis may come
    have hawaits : Awaits read emitted pending := h
    cases token with
    | num value =>
      cases hstep
      exact ⟨read, emitted, [.num value], .num value, hawaits, .num value,
        Phrase.rank_le_atom _, rfl, rfl⟩
    | lparen =>
      cases hstep
      exact hawaits.paren
    | op _ => cases hstep
    | rparen => cases hstep
  | true =>
    have hfollows : Follows .atom read emitted pending := h
    cases token with
    | num _ => cases hstep
    | lparen => cases hstep
    | op op =>
      cases hstep
      obtain ⟨left, hleft, ⟨before, out, tokens, tree, hawaits, hderives, -, hread, hout⟩, hdue⟩ :=
        follows_release hfollows (Phrase.rank_le_atom op.leftPhrase)
      have hop := hawaits.op op (hderives.loosen hleft) hdue
      simpa [Reads, hread, hout] using hop
    | rparen =>
      simp only [step, if_true] at hstep
      split at hstep
      case h_1 pending' emitted' hclose =>
        cases hstep
        exact follows_close hfollows hclose
      case h_2 => cases hstep

theorem derives_of_ofTokens (h : ofTokens tokens = .ok out) :
    ∃ tree, Derives .sum tokens tree ∧ out = tree.postorder := by
  unfold ofTokens at h
  cases hrun : tokens.foldlM State.step State.start with
  | error fault =>
    rw [hrun] at h
    cases h
  | ok s =>
    have hstart : State.start.Reads [] := Awaits.start
    have hreads : s.Reads tokens := invariant State.reads_step [] tokens hstart hrun
    rw [hrun] at h
    change s.finish = .ok out at h
    unfold State.finish at h
    unfold State.Reads at hreads
    split at h
    case isTrue hvalue =>
      simp only [hvalue, if_true] at hreads
      cases hdrain : drain s.pending s.emitted with
      | error fault =>
        rw [hdrain] at h
        cases h
      | ok drained =>
        rw [hdrain] at h
        cases h
        obtain ⟨tree, hderives, hout⟩ := derives_of_drain hreads hdrain
        exact ⟨tree, hderives, by simp [hout]⟩
    case isFalse => cases h

/-- Whatever is put out was read. -/
theorem mem_of_mem_arranged {token : Token} (h : ofTokens tokens = .ok out) (hmem : token ∈ out) :
    token ∈ tokens := by
  obtain ⟨tree, hderives, rfl⟩ := derives_of_ofTokens h
  rw [hderives.postorder_perm.mem_iff] at hmem
  exact List.mem_of_mem_filter hmem

/-- The grammar is unambiguous: two trees of one text have the same postorder. -/
theorem tree_unique (ha : Derives .sum tokens a) (hb : Derives .sum tokens b) : a = b := by
  have h := (ofTokens_of_derives ha).symm.trans (ofTokens_of_derives hb)
  exact Expr.postorder_injective (Except.ok.inj h)

/-- The pass accepts exactly the expressions of the grammar. Its output is the only tree of the text
in postorder, with every number and every operator once and no parentheses. -/
theorem ofTokens_decides_grammar (tokens arranged : List Token) :
    (ofTokens tokens = .ok arranged ↔
      ∃ tree, Derives .sum tokens tree ∧ tree.postorder = arranged) ∧
    (∀ tree other, Derives .sum tokens tree → Derives .sum tokens other → tree = other) ∧
    (ofTokens tokens = .ok arranged → arranged.Perm (tokens.filter (!·.isParen))) := by
  refine ⟨⟨?_, ?_⟩, fun _ _ => tree_unique, ?_⟩
  · intro h
    obtain ⟨tree, hderives, rfl⟩ := derives_of_ofTokens h
    exact ⟨tree, hderives, rfl⟩
  · rintro ⟨tree, hderives, rfl⟩
    exact ofTokens_of_derives hderives
  · intro h
    obtain ⟨tree, hderives, rfl⟩ := derives_of_ofTokens h
    exact hderives.postorder_perm

end Reckon.Postfix
