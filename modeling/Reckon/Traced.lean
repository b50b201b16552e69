import Reckon.Event

/-!
Computations that tell what happens. The events are kept in order beside the result, and a refusal keeps
those told before it.
-/

namespace Reckon

/-- A computation's result together with what happened on the way, in order. -/
structure Traced (ε α : Type) where
  events : List Event
  result : Except ε α

namespace Traced

variable {ε ε' α β : Type}

def ok (a : α) : Traced ε α := ⟨[], .ok a⟩

def refuse (e : ε) : Traced ε α := ⟨[], .error e⟩

def tell (event : Event) : Traced ε Unit := ⟨[event], .ok ()⟩

/-- One computation after another: after a refusal nothing more happens. -/
def andThen (first : Traced ε α) (next : α → Traced ε β) : Traced ε β :=
  match first.result with
  | .error e => ⟨first.events, .error e⟩
  | .ok a =>
    let rest := next a
    ⟨first.events ++ rest.events, rest.result⟩

instance : Monad (Traced ε) where
  pure := ok
  bind := andThen

/-- What has no more than a result tells nothing. -/
instance : MonadLift (Except ε) (Traced ε) := ⟨fun outcome => ⟨[], outcome⟩⟩

def mapError (rename : ε → ε') (run : Traced ε α) : Traced ε' α :=
  ⟨run.events, run.result.mapError rename⟩

/-- The last word to a caller who gave a text: a fault becomes a rejection, told once and last. -/
def orReject (text : String) (run : Traced Fault α) : Traced Rejection α :=
  match run.result with
  | .ok a => ⟨run.events, .ok a⟩
  | .error fault => ⟨run.events ++ [.rejected text fault], .error ⟨fault⟩⟩

end Traced
end Reckon
