import Reckon.Error

/-!
Steps applied one after another to a value that is kept. A step that is refused is told and leaves
the value as it was, and the next one goes on from there.
-/

namespace Reckon.Chain

variable {σ α : Type}

def settle (value : σ) : Except OperatorError σ → σ
  | .ok next => next
  | .error _ => value

def outcomes (step : σ → α → Except OperatorError σ) : σ → List α → List (Except OperatorError σ)
  | _, [] => []
  | value, a :: rest =>
    let outcome := step value a
    outcome :: outcomes step (settle value outcome) rest

def final (step : σ → α → Except OperatorError σ) (start : σ) (steps : List α) : σ :=
  steps.foldl (fun value a => settle value (step value a)) start

/-- What held before a step and holds of whatever the step gives, holds after it. -/
theorem settle_of {P : σ → Prop} {value : σ} {outcome : Except OperatorError σ} (holds : P value)
    (keeps : ∀ next, outcome = .ok next → P next) : P (settle value outcome) := by
  cases outcome with
  | ok next => exact keeps next rfl
  | error _ => exact holds

/-- What every step keeps, a chain of them keeps. -/
theorem final_of_step {P : σ → Prop} {step : σ → α → Except OperatorError σ}
    (keeps : ∀ value a next, P value → step value a = .ok next → P next)
    {start : σ} (holds : P start) (steps : List α) : P (final step start steps) := by
  induction steps generalizing start with
  | nil => exact holds
  | cons a rest ih =>
    have next : P (settle start (step start a)) :=
      settle_of holds fun next h => keeps start a next holds h
    exact ih next

end Reckon.Chain
