/-!
# Steps

A step reads and writes a state and may fail. What it has written before it fails stays written: undoing is the business of
whoever asks for all or nothing. Every failure of a call belongs to one of five categories; the error type of each part of the
library says which.
-/

namespace MarginRouter

/-- A step over states `σ` that answers an `α` or fails with an `ε`; either way there is a state afterwards. -/
abbrev Step (ε σ α : Type) := EStateM ε σ α

namespace Step

variable {ε ε' σ τ α : Type}

/-- A write that happens whole or not at all. -/
def write (f : σ → Except ε σ) : Step ε σ Unit := fun s =>
  match f s with
  | .ok s' => .ok () s'
  | .error e => .error e s

/-- A step on one part of the state. -/
def on (part : σ → τ) (put : τ → σ → σ) (step : Step ε τ α) : Step ε σ α := fun s =>
  match step (part s) with
  | .ok a t => .ok a (put t s)
  | .error e t => .error e (put t s)

/-- A computation that leaves the state alone. -/
def lift : Except ε α → Step ε σ α
  | .ok a => pure a
  | .error e => throw e

/-- A step with its error seen as an error of another kind. -/
def withError (f : ε → ε') (step : Step ε σ α) : Step ε' σ α := fun s =>
  match step s with
  | .ok a s' => .ok a s'
  | .error e s' => .error (f e) s'

/-- The answer of a step and the state afterwards. -/
def outcome (step : Step ε σ α) (s : σ) : Except ε α × σ :=
  match step s with
  | .ok a s' => (.ok a, s')
  | .error e s' => (.error e, s')

end Step

/-- What kind of failure a caller is told about. -/
inductive FailureCategory where
  | malformedInput
  | slippage
  | liquidity
  | authorization
  | routing
  deriving DecidableEq, Repr

/-- The name of a category in answers and on the command line. -/
def FailureCategory.name : FailureCategory → String
  | malformedInput => "malformed-input"
  | slippage => "slippage"
  | liquidity => "liquidity"
  | authorization => "authorization"
  | routing => "routing"

end MarginRouter
