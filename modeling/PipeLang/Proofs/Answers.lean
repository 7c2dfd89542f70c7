import PipeLang.Evaluation.Evaluate

namespace PipeLang

/-! # Conditions on the answers of an evaluation

An evaluation answers by returning or by failing, and leaves a state behind in both cases.
A condition on all answers passes through the combinators of outcomes, so a statement about
evaluation is proved for one rule at a time and then follows for every number of steps.
-/

namespace Outcome

variable {Failure State Other : Type}

/-- Every answer meets a condition; running out of steps is no answer. -/
def Ensures (returns : List Value → State → Prop) (fails : Failure → State → Prop) :
    Outcome Failure State → Prop
  | .returned values after => returns values after
  | .failed failure after => fails failure after
  | .outOfSteps => True

/-- The evaluation came to an end and left this state behind. -/
def Leaves (outcome : Outcome Failure State) (after : State) : Prop :=
  (∃ values, outcome = .returned values after) ∨ ∃ failure, outcome = .failed failure after

variable {returns results : List Value → State → Prop} {fails : Failure → State → Prop}

theorem Ensures.andThen {first : Outcome Failure State}
    {next : List Value → State → Outcome Failure State} (ensured : first.Ensures returns fails)
    (continues : ∀ values state, returns values state → (next values state).Ensures results fails) :
    (first.andThen next).Ensures results fails := by
  cases first with
  | returned values after => exact continues values after ensured
  | failed failure after => exact ensured
  | outOfSteps => trivial

theorem Ensures.mapValues {outcome : Outcome Failure State} {change : List Value → List Value}
    (ensured : outcome.Ensures returns fails)
    (changed : ∀ values state, returns values state → results (change values) state) :
    (outcome.mapValues change).Ensures results fails :=
  ensured.andThen changed

theorem Ensures.mapState {outcome : Outcome Failure State} {change : State → Other}
    {results : List Value → Other → Prop} {faults : Failure → Other → Prop}
    (ensured : outcome.Ensures returns fails)
    (returned : ∀ values state, returns values state → results values (change state))
    (failed : ∀ failure state, fails failure state → faults failure (change state)) :
    (outcome.mapState change).Ensures results faults := by
  cases outcome with
  | returned values after => exact returned values after ensured
  | failed failure after => exact failed failure after ensured
  | outOfSteps => trivial

theorem Ensures.mono {outcome : Outcome Failure State} {faults : Failure → State → Prop}
    (ensured : outcome.Ensures returns fails)
    (returned : ∀ values state, returns values state → results values state)
    (failed : ∀ failure state, fails failure state → faults failure state) :
    outcome.Ensures results faults := by
  cases outcome with
  | returned values after => exact returned values after ensured
  | failed failure after => exact failed failure after ensured
  | outOfSteps => trivial

theorem Ensures.of_leaves {outcome : Outcome Failure State} {after : State} {holds : State → Prop}
    (ensured : outcome.Ensures (fun _ => holds) (fun _ => holds)) (left : outcome.Leaves after) :
    holds after := by
  obtain ⟨values, rfl⟩ | ⟨failure, rfl⟩ := left
  · exact ensured
  · exact ensured

theorem Leaves.of_mapState {outcome : Outcome Failure State} {change : State → Other}
    {after : Other} (left : (outcome.mapState change).Leaves after) :
    ∃ state, outcome.Leaves state ∧ after = change state := by
  cases outcome with
  | returned values state =>
      obtain ⟨_, same⟩ | ⟨_, same⟩ := left
      · cases same
        exact ⟨state, .inl ⟨values, rfl⟩, rfl⟩
      · cases same
  | failed failure state =>
      obtain ⟨_, same⟩ | ⟨_, same⟩ := left
      · cases same
      · cases same
        exact ⟨state, .inr ⟨failure, rfl⟩, rfl⟩
  | outOfSteps =>
      obtain ⟨_, same⟩ | ⟨_, same⟩ := left <;> cases same

theorem Leaves.of_mapFailure {Changed : Type} {change : Failure → Changed}
    {outcome : Outcome Failure State} {after : State}
    (left : (outcome.mapFailure change).Leaves after) : outcome.Leaves after := by
  cases outcome with
  | returned values state =>
      obtain ⟨_, same⟩ | ⟨_, same⟩ := left <;> cases same
      exact .inl ⟨values, rfl⟩
  | failed failure state =>
      obtain ⟨_, same⟩ | ⟨_, same⟩ := left <;> cases same
      exact .inr ⟨failure, rfl⟩
  | outOfSteps => obtain ⟨_, same⟩ | ⟨_, same⟩ := left <;> cases same

end Outcome

/-- A statement about evaluators that one rule of evaluation preserves holds of evaluation
with any number of steps. -/
theorem evaluate_induction {holds : Evaluator → Prop} (exhausted : holds fun _ _ => .outOfSteps)
    (rule : ∀ run rounds, holds run → holds (evaluateWith run rounds)) (steps : Nat) :
    holds (evaluate steps) := by
  induction steps with
  | zero => exact exhausted
  | succ steps ih => exact rule (evaluate steps) steps ih

end PipeLang
