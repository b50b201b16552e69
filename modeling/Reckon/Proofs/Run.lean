/-!
Runs of a step that may be refused: a list is read from left to right and the first refusal ends the
run. Both passes over tokens are such runs, so what they share is said here once.
-/

namespace Reckon.Run

variable {ε σ α β : Type} {step : σ → α → Except ε σ} {first second : List α} {s t : σ}

/-- A sequence that has a result has one at each of its two parts. -/
theorem bind_eq_ok {x : Except ε α} {next : α → Except ε β} {b : β} (h : x >>= next = .ok b) :
    ∃ a, x = .ok a ∧ next a = .ok b := by
  cases x with
  | error e => cases h
  | ok a => exact ⟨a, rfl, h⟩

/-- A sequence that is refused is refused by one of its two parts. -/
theorem bind_eq_error {x : Except ε α} {next : α → Except ε β} {e : ε} (h : x >>= next = .error e) :
    x = .error e ∨ ∃ a, x = .ok a ∧ next a = .error e := by
  cases x with
  | error e' =>
    cases h
    exact .inl rfl
  | ok a => exact .inr ⟨a, rfl, h⟩

/-- Renaming the refusals makes no results. -/
theorem of_mapError_eq_ok {rename : ε → β} {x : Except ε α} {a : α}
    (h : x.mapError rename = .ok a) : x = .ok a := by
  cases x with
  | error e => cases h
  | ok a' =>
    cases h
    rfl

theorem of_mapError_eq_error {rename : ε → β} {x : Except ε α} {e : β}
    (h : x.mapError rename = .error e) : ∃ cause, x = .error cause ∧ e = rename cause := by
  cases x with
  | error cause =>
    cases h
    exact ⟨cause, rfl, rfl⟩
  | ok a => cases h

theorem append_of_ok (h : first.foldlM step s = .ok t) :
    (first ++ second).foldlM step s = second.foldlM step t := by
  rw [List.foldlM_append, h]
  rfl

theorem append_of_error {e : ε} (h : first.foldlM step s = .error e) :
    (first ++ second).foldlM step s = .error e := by
  rw [List.foldlM_append, h]
  rfl

/-- A run that reads a list to its end has read each part of it. -/
theorem append_eq_ok (h : (first ++ second).foldlM step s = .ok t) :
    ∃ middle, first.foldlM step s = .ok middle ∧ second.foldlM step middle = .ok t := by
  rw [List.foldlM_append] at h
  exact bind_eq_ok h

theorem cons_of_ok {a : α} (h : step s a = .ok t) :
    (a :: second).foldlM step s = second.foldlM step t := by
  rw [List.foldlM_cons, h]
  rfl

theorem cons_of_error {a : α} {e : ε} (h : step s a = .error e) :
    (a :: second).foldlM step s = .error e := by
  rw [List.foldlM_cons, h]
  rfl

/-- What holds with nothing read and is kept by every step holds wherever a run has come to. The
induction is on what is still to be read. -/
theorem invariant {Inv : List α → σ → Prop}
    (keeps : ∀ read s a t, Inv read s → step s a = .ok t → Inv (read ++ [a]) t)
    (read rest : List α) (hs : Inv read s) (hrun : rest.foldlM step s = .ok t) :
    Inv (read ++ rest) t := by
  induction rest generalizing read s with
  | nil =>
    cases hrun
    simpa using hs
  | cons a rest ih =>
    cases hstep : step s a with
    | error e =>
      rw [cons_of_error hstep] at hrun
      cases hrun
    | ok next =>
      rw [cons_of_ok hstep] at hrun
      simpa using ih (read ++ [a]) (keeps read s a next hs hstep) hrun

/-- A run that is refused was refused at one element, after a run that was not. -/
theorem error_split {e : ε} {all : List α} (h : all.foldlM step s = .error e) :
    ∃ read a rest t, all = read ++ a :: rest ∧ read.foldlM step s = .ok t ∧
      step t a = .error e := by
  induction all generalizing s with
  | nil => cases h
  | cons a rest ih =>
    cases hstep : step s a with
    | error e' =>
      rw [cons_of_error hstep] at h
      cases h
      exact ⟨[], a, rest, s, rfl, rfl, hstep⟩
    | ok next =>
      rw [cons_of_ok hstep] at h
      obtain ⟨read, b, rest', t, rfl, hread, hb⟩ := ih h
      refine ⟨a :: read, b, rest', t, rfl, ?_, hb⟩
      rw [cons_of_ok hstep, hread]

end Reckon.Run
