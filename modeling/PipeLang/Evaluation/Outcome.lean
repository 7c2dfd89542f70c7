import PipeLang.Heap
import PipeLang.Sink

namespace PipeLang

/-!
# Outcomes of evaluation

An evaluation returns values or fails, and either way it leaves a state behind: what
happened before a failure is not undone. An evaluation that does not come to an end within
the given number of nested steps has neither outcome.
-/

/-- Why a program fails when it runs. -/
inductive RuntimeCause where
  | unknownVariable (name : String)
  | unknownFunction (name : String)
  /-- The name is bound, but not to exactly one lambda. -/
  | notCallable (name : String)
  | arityMismatch (name : String) (expected found : Nat)
  | typeMismatch (expected found : Value.Kind)
  /-- A builtin function got fewer arguments than it needs. -/
  | missingArguments (name : String) (expected found : Nat)
  | comparisonOperands
  /-- A callback that has to return one value returned another number of them. -/
  | expectedSingleValue (name : String) (found : Nat)
  | bareVariable (name : String)
  /-- Only a variable can be assigned to. -/
  | notAVariable (found : Expression.Tag)
deriving DecidableEq, Repr

def RuntimeCause.message : RuntimeCause → String
  | .unknownVariable name => s!"unknown variable '{name}'"
  | .unknownFunction name => s!"unknown function '{name}'"
  | .notCallable name => s!"'{name}' is not a function"
  | .arityMismatch name expected found => s!"'{name}' expected {expected} arguments, got {found}"
  | .typeMismatch expected found => s!"expected value of type {expected.name}, got {found.name}"
  | .missingArguments name expected found =>
      s!"'{name}' expected at least {expected} arguments, got {found}"
  | .comparisonOperands => "expected at least 2 elements in comparison"
  | .expectedSingleValue name found => s!"{name} must return exactly one value, got {found}"
  | .bareVariable name => s!"cannot use a variable by itself: '{name}'"
  | .notAVariable found =>
      s!"expected variable, got {found.name}; cannot assign to something else than a variable"

abbrev RuntimeError := Located RuntimeCause

/-- A failure of the program, or of the sink it writes to. -/
inductive Fault where
  | runtime (error : RuntimeError)
  | output (failure : OutputFailure)
deriving DecidableEq, Repr

/-- What all evaluations share: the cells and the output. -/
structure Machine where
  heap : Heap
  sink : Sink

/-- The machine at the start, with nothing allocated. -/
def Machine.fresh (sink : Sink) : Machine := ⟨.empty, sink⟩

/-- A machine together with the scope in which an expression is evaluated. -/
structure Frame where
  scope : Scope
  machine : Machine

inductive Outcome (Failure State : Type) where
  | returned (values : List Value) (after : State)
  | failed (failure : Failure) (after : State)
  /-- The bound on the number of nested steps was too small to tell. -/
  | outOfSteps

namespace Outcome

variable {Failure State Other : Type}

/-- Goes on with the values and the state of an evaluation that returned. -/
@[inline] def andThen (first : Outcome Failure State)
    (next : List Value → State → Outcome Failure State) : Outcome Failure State :=
  match first with
  | .returned values after => next values after
  | .failed failure after => .failed failure after
  | .outOfSteps => .outOfSteps

/-- Turns the values of an evaluation that returned into others. -/
def mapValues (change : List Value → List Value) (outcome : Outcome Failure State) :
    Outcome Failure State :=
  outcome.andThen fun values after => .returned (change values) after

/-- Keeps a part of the state, or puts it into a larger one. -/
def mapState (change : State → Other) : Outcome Failure State → Outcome Failure Other
  | .returned values after => .returned values (change after)
  | .failed failure after => .failed failure (change after)
  | .outOfSteps => .outOfSteps

def mapFailure {Changed : Type} (change : Failure → Changed) :
    Outcome Failure State → Outcome Changed State
  | .returned values after => .returned values after
  | .failed failure after => .failed (change failure) after
  | .outOfSteps => .outOfSteps

end Outcome

end PipeLang
