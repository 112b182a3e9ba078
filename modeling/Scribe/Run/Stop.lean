/-!
How a computation can end without a value. An operation is a function of a state that keeps the
state on every exit; a failure can be handled where it arises, an abort goes through to the top.
-/

namespace Scribe

/-- A counter has reached its last value. -/
inductive Overflow where
  | overflow
deriving DecidableEq, Repr

def Overflow.message : Overflow → String
  | .overflow => "attempt to add with overflow"

inductive Stop (ε : Type) where
  | failure (cause : ε)
  | abort (message : String)
deriving DecidableEq, Repr

/-- An operation on a state that ends with a value, a failure or an abort. -/
abbrev Action (ε σ α : Type) := EStateM (Stop ε) σ α

/-- Access to one part of a larger state. -/
structure Lens (σ τ : Type) where
  get : σ → τ
  modify : (τ → τ) → σ → σ

namespace Lens

def self : Lens σ σ where
  get state := state
  modify change state := change state

end Lens

namespace Action

def fail (cause : ε) : Action ε σ α :=
  fun state => .error (.failure cause) state

def abort (message : String) : Action ε σ α :=
  fun state => .error (.abort message) state

/-- Turns the failures of an operation into values; an abort goes through. -/
def attempt (action : Action ε σ α) : Action ε σ (Except ε α) :=
  fun state =>
    match action state with
    | .ok value after => .ok (.ok value) after
    | .error (.failure cause) after => .ok (.error cause) after
    | .error (.abort message) after => .error (.abort message) after

/-- Turns every exit of an operation into a value. -/
def settle (action : Action ε σ α) : Action ε σ (Except (Stop ε) α) :=
  fun state =>
    match action state with
    | .ok value after => .ok (.ok value) after
    | .error stop after => .ok (.error stop) after

/-- Changes the state on the way out: in one way when the operation returns, with a value or a failure,
and in another when it aborts. -/
def leaving (action : Action ε σ α) (returned aborted : σ → σ) : Action ε σ α :=
  fun state =>
    match action state with
    | .ok value after => .ok value (returned after)
    | .error (.failure cause) after => .error (.failure cause) (returned after)
    | .error (.abort message) after => .error (.abort message) (aborted after)

end Action

end Scribe
