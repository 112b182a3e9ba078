import Scribe.Run.Stop

/-! The two sides of an exit: how an operation ends, and the state that it leaves. An operation keeps
its state on every exit, so it always has both. -/

namespace Scribe

variable {ε σ α β : Type}

/-- The state that an operation leaves, however it ends. -/
def stateAfter (operation : EStateM ε σ α) (state : σ) : σ :=
  match operation state with
  | .ok _ after => after
  | .error _ after => after

/-- How an operation ends, apart from the state. -/
def outcome (operation : EStateM ε σ α) (state : σ) : Except ε α :=
  match operation state with
  | .ok value _ => .ok value
  | .error stop _ => .error stop

theorem stateAfter_bind (operation : EStateM ε σ α) (next : α → EStateM ε σ β) (state : σ) :
    stateAfter (operation >>= next) state =
      match operation state with
      | .ok value after => stateAfter (next value) after
      | .error _ after => after := by
  simp only [stateAfter, bind, EStateM.bind]
  cases operation state <;> rfl

theorem bind_eq_ok {operation : EStateM ε σ α} {next : α → EStateM ε σ β} {state final : σ} {value : β} :
    (operation >>= next) state = .ok value final ↔
      ∃ middle after, operation state = .ok middle after ∧ next middle after = .ok value final := by
  simp only [bind, EStateM.bind]
  cases operation state with
  | ok middle after =>
    constructor
    · exact fun finished => ⟨middle, after, rfl, finished⟩
    · rintro ⟨_, _, ⟨⟩, finished⟩
      exact finished
  | error stop after => simp

namespace Action

theorem stateAfter_settle (action : Action ε σ α) (state : σ) :
    stateAfter (settle action) state = stateAfter action state := by
  simp only [stateAfter, settle]
  cases action state <;> rfl

/-- If both ways out change the state alike, it does not matter how the operation ends. -/
theorem leaving_eq (action : Action ε σ α) (change : σ → σ) (state : σ) :
    leaving action change change state =
      match action state with
      | .ok value after => .ok value (change after)
      | .error stop after => .error stop (change after) := by
  rw [leaving]
  cases action state with
  | ok value after => rfl
  | error stop after => cases stop <;> rfl

theorem stateAfter_leaving (action : Action ε σ α) (change : σ → σ) (state : σ) :
    stateAfter (leaving action change change) state = change (stateAfter action state) := by
  simp only [stateAfter, leaving_eq]
  cases action state <;> rfl

theorem outcome_leaving (action : Action ε σ α) (change : σ → σ) (state : σ) :
    outcome (leaving action change change) state = outcome action state := by
  simp only [outcome, leaving_eq]
  cases action state <;> rfl

end Action

end Scribe
