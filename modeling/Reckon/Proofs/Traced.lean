import Reckon.Traced

/-!
What a computation tells and what it results in, apart. The result of a sequence is the sequence of the
results. Where nothing is told but what goes with a refusal, the result tells the events as well.
-/

namespace Reckon.Traced

variable {ε ε' σ α β : Type} {told : ε → List Event} {run : Traced ε α} {next : α → Traced ε β}

@[simp] theorem result_pure (a : α) : (pure a : Traced ε α).result = .ok a := rfl

@[simp] theorem result_refuse (e : ε) : (refuse e : Traced ε α).result = .error e := rfl

@[simp] theorem result_lift (outcome : Except ε α) :
    (liftM outcome : Traced ε α).result = outcome := rfl

@[simp] theorem result_mapError (rename : ε → ε') (run : Traced ε α) :
    (run.mapError rename).result = run.result.mapError rename := rfl

@[simp] theorem result_bind (run : Traced ε α) (next : α → Traced ε β) :
    (run >>= next).result = run.result >>= fun a => (next a).result := by
  change (run.andThen next).result = _
  unfold andThen
  cases run.result <;> rfl

@[simp] theorem result_orReject (text : String) (run : Traced Fault α) :
    (orReject text run).result = run.result.mapError Rejection.mk := by
  unfold orReject
  cases run.result <;> rfl

theorem lift_ok_bind (a : α) (next : α → Traced ε β) :
    liftM (.ok a : Except ε α) >>= next = next a := rfl

theorem lift_error_bind (e : ε) (next : α → Traced ε β) :
    liftM (.error e : Except ε α) >>= next = refuse e := rfl

theorem tell_bind (event : Event) (next : Unit → Traced ε β) :
    tell event >>= next = ⟨event :: (next ()).events, (next ()).result⟩ := rfl

theorem result_foldlM (step : σ → α → Traced ε σ) (s : σ) (all : List α) :
    (all.foldlM step s).result = all.foldlM (fun s a => (step s a).result) s := by
  induction all generalizing s with
  | nil => rfl
  | cons a rest ih => simp only [List.foldlM_cons, result_bind, ih]

@[simp] theorem events_pure (a : α) : (pure a : Traced ε α).events = [] := rfl

@[simp] theorem events_lift (outcome : Except ε α) :
    (liftM outcome : Traced ε α).events = [] := rfl

theorem events_bind_of_ok {a : α} (h : run.result = .ok a) :
    (run >>= next).events = run.events ++ (next a).events := by
  change (run.andThen next).events = _
  simp only [andThen, h]

theorem events_bind_of_error {e : ε} (h : run.result = .error e) :
    (run >>= next).events = run.events := by
  change (run.andThen next).events = _
  simp only [andThen, h]

/-- What follows without a word adds no events. -/
theorem events_bind_of_silent (hsilent : ∀ a, (next a).events = []) :
    (run >>= next).events = run.events := by
  cases h : run.result with
  | error e => exact events_bind_of_error h
  | ok a => rw [events_bind_of_ok h, hsilent a, List.append_nil]

/-- The events that go with the refusal, if there is one. -/
def refusalTold (told : ε → List Event) : Except ε α → List Event
  | .ok _ => []
  | .error e => told e

/-- Nothing is told but what goes with the refusal. -/
def TellsRefusal (told : ε → List Event) (run : Traced ε α) : Prop :=
  run.events = refusalTold told run.result

theorem tellsRefusal_pure (a : α) : TellsRefusal told (pure a) := rfl

theorem tellsRefusal_lift {outcome : Except ε α} (h : ∀ e, outcome = .error e → told e = []) :
    TellsRefusal told (liftM outcome : Traced ε α) := by
  cases outcome with
  | ok a => rfl
  | error e => exact (h e rfl).symm

theorem TellsRefusal.mapError {rename : ε → ε'} {told' : ε' → List Event}
    (hrun : TellsRefusal told run) (hrename : ∀ e, told' (rename e) = told e) :
    TellsRefusal told' (run.mapError rename) := by
  change run.events = refusalTold told' (run.result.mapError rename)
  rw [hrun]
  cases run.result with
  | ok a => rfl
  | error e => exact (hrename e).symm

theorem TellsRefusal.bind (hrun : TellsRefusal told run)
    (hnext : ∀ a, TellsRefusal told (next a)) : TellsRefusal told (run >>= next) := by
  unfold TellsRefusal at hrun ⊢
  rw [result_bind]
  cases h : run.result with
  | error e =>
    rw [events_bind_of_error h, hrun, h]
    rfl
  | ok a =>
    rw [events_bind_of_ok h, hrun, h]
    exact hnext a

theorem TellsRefusal.foldlM {step : σ → α → Traced ε σ}
    (hstep : ∀ s a, TellsRefusal told (step s a)) (s : σ) (all : List α) :
    TellsRefusal told (all.foldlM step s) := by
  induction all generalizing s with
  | nil => rfl
  | cons a rest ih =>
    rw [List.foldlM_cons]
    exact (hstep s a).bind ih

end Reckon.Traced
