import PipeLang.Proofs.Answers
import PipeLang.Proofs.Jobs

namespace PipeLang

/-! # More steps keep the answer

An evaluation that comes to an end is not changed by a larger bound on its steps and on the
rounds of its loops. So its answer does not depend on the bound, and an evaluation can be said
to come to an end without one.
-/

namespace Outcome

variable {Failure State Other : Type}

/-- The second outcome is the first one, unless that ran out of steps. -/
def Below (first second : Outcome Failure State) : Prop :=
  first = .outOfSteps ∨ second = first

theorem Below.refl (outcome : Outcome Failure State) : outcome.Below outcome := .inr rfl

theorem Below.eq {first second : Outcome Failure State} (below : first.Below second)
    (ended : first ≠ .outOfSteps) : second = first :=
  below.resolve_left ended

theorem Below.andThen {first second : Outcome Failure State}
    {next later : List Value → State → Outcome Failure State} (below : first.Below second)
    (continues : ∀ values after, (next values after).Below (later values after)) :
    (first.andThen next).Below (second.andThen later) := by
  rcases below with rfl | rfl
  · exact .inl rfl
  · cases second with
    | returned values after => exact continues values after
    | failed failure after => exact .refl _
    | outOfSteps => exact .refl _

theorem Below.mapValues {first second : Outcome Failure State} (below : first.Below second)
    (change : List Value → List Value) : (first.mapValues change).Below (second.mapValues change) :=
  below.andThen fun _ _ => .refl _

theorem Below.mapState {first second : Outcome Failure State} (below : first.Below second)
    (change : State → Other) : (first.mapState change).Below (second.mapState change) := by
  rcases below with rfl | rfl
  · exact .inl rfl
  · exact .refl _

end Outcome

/-- The second evaluator gives every answer that the first one gives. -/
def Evaluator.Below (run more : Evaluator) : Prop :=
  ∀ expression frame, (run expression frame).Below (more expression frame)

namespace Evaluator.Below

variable {run more : Evaluator} {rounds others : Nat} {name : String} {location : Location}
  {arguments values : List Value} {machine : Machine} {frame : Frame}

theorem callClosure {closure : Closure} (below : run.Below more) :
    (callClosure run name location closure arguments machine).Below
      (callClosure more name location closure arguments machine) := by
  unfold PipeLang.callClosure
  split
  · exact (below _ _).mapState _
  · exact .refl _

theorem iterate {condition body testing repeating : Machine → Outcome Fault Machine}
    (tests : ∀ machine, (condition machine).Below (testing machine))
    (repeats : ∀ machine, (body machine).Below (repeating machine)) (le : rounds ≤ others) :
    (iterate location condition body rounds values machine).Below
      (iterate location testing repeating others values machine) := by
  induction rounds generalizing others values machine with
  | zero => exact .inl rfl
  | succ rounds ih =>
      cases others with
      | zero => exact absurd le (Nat.not_succ_le_zero rounds)
      | succ others =>
          unfold PipeLang.iterate
          refine (tests machine).andThen fun answer tested => ?_
          match conditionAnswer answer with
          | .error cause => exact .refl _
          | .ok false => exact .refl _
          | .ok true =>
              exact (repeats tested).andThen fun result repeated => ih (Nat.le_of_succ_le_succ le)

theorem perform {job : Job} (below : run.Below more) (le : rounds ≤ others) :
    (job.perform run rounds location machine).Below
      (job.perform more others location machine) := by
  cases job with
  | answer | print => exact .refl _
  | repeatWhile condition body =>
      exact iterate (fun _ => below.callClosure) (fun _ => below.callClosure) le
  | runOnce body => exact below.callClosure.mapValues _

theorem callNamed {scope : Scope} (below : run.Below more) (le : rounds ≤ others) :
    (callNamed run rounds name location arguments scope machine).Below
      (callNamed more others name location arguments scope machine) := by
  unfold PipeLang.callNamed
  split
  next =>
    split
    next => exact below.callClosure
    next => exact .refl _
  next =>
    split
    next =>
      rw [applyBuiltin_eq_perform, applyBuiltin_eq_perform]
      exact below.perform le
    next => exact .refl _

theorem evaluateElement {element : Expression} (below : run.Below more) :
    (evaluateElement run element frame).Below (evaluateElement more element frame) := by
  unfold PipeLang.evaluateElement
  split
  next => exact .refl _
  next => exact (below _ frame).mapValues _
  next => exact below _ frame

theorem evaluateElements {elements : List Expression} (below : run.Below more) :
    (evaluateElements run elements frame).Below (evaluateElements more elements frame) := by
  induction elements generalizing frame with
  | nil => exact .refl _
  | cons element rest ih =>
      exact below.evaluateElement.andThen fun values middle => ih.mapValues _

theorem applyOperator {operator : Operator} {right : Expression} (below : run.Below more)
    (le : rounds ≤ others) :
    (applyOperator run rounds operator values right frame).Below
      (applyOperator more others operator values right frame) := by
  unfold PipeLang.applyOperator
  split
  next => exact (below.callNamed le).mapState _
  next => exact below right frame
  next => exact .refl _
  next => exact .refl _
  next => exact .refl _

theorem evaluateWith (below : run.Below more) (le : rounds ≤ others) :
    Evaluator.Below (evaluateWith run rounds) (evaluateWith more others) := by
  intro expression frame
  cases expression with
  | number | string | boolean | reference | lambda => exact .refl _
  | tuple location elements => exact below.evaluateElements
  | binary location operator left right =>
      exact (below left frame).andThen fun values middle => below.applyOperator le

end Evaluator.Below

theorem evaluate_below {steps more : Nat} (le : steps ≤ more) :
    Evaluator.Below (evaluate steps) (evaluate more) := by
  induction steps generalizing more with
  | zero => exact fun _ _ => .inl rfl
  | succ steps ih =>
      cases more with
      | zero => exact absurd le (Nat.not_succ_le_zero steps)
      | succ more =>
          have fewer := Nat.le_of_succ_le_succ le
          exact (ih fewer).evaluateWith fewer

namespace Outcome

variable {Failure State : Type} {family first : Nat → Outcome Failure State}
  {next : Nat → List Value → State → Outcome Failure State} {outcome : Outcome Failure State}

/-- The outcomes for more and more steps, none of which takes an earlier answer back. -/
def Grows (family : Nat → Outcome Failure State) : Prop :=
  ∀ steps more, steps ≤ more → (family steps).Below (family more)

/-- The evaluation comes to an end with this outcome, however many steps that takes. -/
def Settles (family : Nat → Outcome Failure State) (outcome : Outcome Failure State) : Prop :=
  outcome ≠ .outOfSteps ∧ ∃ steps, family steps = outcome

theorem settles_returned {steps : Nat} {values : List Value} {after : State}
    (returned : family steps = .returned values after) :
    Settles family (.returned values after) :=
  ⟨nofun, steps, returned⟩

theorem settles_failed {steps : Nat} {failure : Failure} {after : State}
    (failed : family steps = .failed failure after) : Settles family (.failed failure after) :=
  ⟨nofun, steps, failed⟩

theorem Settles.from_some_step (settles : Settles family outcome) (grows : Grows family) :
    ∃ steps, ∀ more, steps ≤ more → family more = outcome := by
  obtain ⟨ended, steps, rfl⟩ := settles
  exact ⟨steps, fun more le => (grows steps more le).eq ended⟩

theorem Settles.unique {other : Outcome Failure State} (settles : Settles family outcome)
    (others : Settles family other) (grows : Grows family) : outcome = other := by
  obtain ⟨steps, settled⟩ := settles.from_some_step grows
  obtain ⟨more, otherwise⟩ := others.from_some_step grows
  exact (settled _ (Nat.le_max_left steps more)).symm.trans
    (otherwise _ (Nat.le_max_right steps more))

theorem settles_succ (none : family 0 = .outOfSteps) :
    Settles family = Settles fun steps => family (steps + 1) := by
  ext outcome
  refine and_congr_right fun ended => ?_
  constructor
  · rintro ⟨steps, rfl⟩
    cases steps with
    | zero => exact absurd none ended
    | succ steps => exact ⟨steps, rfl⟩
  · rintro ⟨steps, rfl⟩
    exact ⟨steps + 1, rfl⟩

/-- How an evaluation ends that fails where another one fails, and goes on where that returns. -/
inductive Sequel (first : Outcome Failure State → Prop)
    (next : List Value → State → Outcome Failure State → Prop) : Outcome Failure State → Prop where
  | failed {failure : Failure} {after : State} (start : first (.failed failure after)) :
      Sequel first next (.failed failure after)
  | returned {values : List Value} {middle : State} {outcome : Outcome Failure State}
      (start : first (.returned values middle)) (rest : next values middle outcome) :
      Sequel first next outcome

theorem sequel_assoc (start : Outcome Failure State → Prop)
    (next later : List Value → State → Outcome Failure State → Prop) :
    Sequel (Sequel start next) later =
      Sequel start fun values middle => Sequel (next values middle) later := by
  ext outcome
  constructor
  · intro sequel
    cases sequel with
    | failed both =>
        cases both with
        | failed start => exact .failed start
        | returned start rest => exact .returned start (.failed rest)
    | returned both others =>
        cases both with
        | returned start rest => exact .returned start (.returned rest others)
  · intro sequel
    cases sequel with
    | failed start => exact .failed (.failed start)
    | returned start both =>
        cases both with
        | failed rest => exact .failed (.returned start rest)
        | returned rest others => exact .returned (.returned start rest) others

theorem settles_andThen (grows : Grows first)
    (continues : ∀ values middle, Grows fun steps => next steps values middle) :
    Settles (fun steps => (first steps).andThen (next steps)) =
      Sequel (Settles first) fun values middle => Settles fun steps => next steps values middle := by
  ext outcome
  constructor
  · rintro ⟨ended, steps, settled⟩
    dsimp only at settled
    cases start : first steps with
    | returned values middle =>
        rw [start] at settled
        exact .returned (settles_returned start) ⟨ended, steps, settled⟩
    | failed failure after =>
        rw [start] at settled
        subst settled
        exact .failed (settles_failed start)
    | outOfSteps =>
        rw [start] at settled
        exact absurd settled.symm ended
  · intro sequel
    cases sequel with
    | failed start =>
        obtain ⟨_, steps, failed⟩ := start
        exact settles_failed (congrArg (andThen · (next steps)) failed)
    | returned start rest =>
        obtain ⟨steps, returned⟩ := start.from_some_step grows
        obtain ⟨more, settled⟩ := rest.from_some_step (continues _ _)
        -- The larger bound is enough for both parts.
        refine ⟨rest.1, max steps more, ?_⟩
        dsimp only
        rw [returned _ (Nat.le_max_left steps more), andThen, settled _ (Nat.le_max_right steps more)]

theorem Grows.mapFailure {Changed : Type} (grows : Grows family) (change : Failure → Changed) :
    Grows fun steps => (family steps).mapFailure change := by
  intro steps more le
  rcases grows steps more le with none | same
  · exact .inl (congrArg (Outcome.mapFailure change) none)
  · exact .inr (congrArg (Outcome.mapFailure change) same)

theorem settles_mapFailure {Changed : Type} {change : Failure → Changed}
    {changed : Outcome Changed State} :
    Settles (fun steps => (family steps).mapFailure change) changed ↔
      ∃ outcome, Settles family outcome ∧ changed = outcome.mapFailure change := by
  constructor
  · rintro ⟨ended, steps, rfl⟩
    refine ⟨family steps, ⟨?_, steps, rfl⟩, rfl⟩
    exact fun none => ended (congrArg (mapFailure change) none)
  · rintro ⟨outcome, ⟨ended, steps, rfl⟩, rfl⟩
    refine ⟨?_, steps, rfl⟩
    cases same : family steps with
    | outOfSteps => exact absurd same ended
    | _ => exact nofun

end Outcome

theorem evaluate_grows (expression : Expression) (frame : Frame) :
    Outcome.Grows fun steps => evaluate steps expression frame :=
  fun _ _ le => evaluate_below le expression frame

theorem settles_binary (location : Location) (operator : Operator) (left right : Expression)
    (frame : Frame) :
    Outcome.Settles (fun steps => evaluate steps (.binary location operator left right) frame) =
      Outcome.Sequel (Outcome.Settles fun steps => evaluate steps left frame) fun values middle =>
        Outcome.Settles fun steps =>
          applyOperator (evaluate steps) steps operator values right middle := by
  rw [Outcome.settles_succ rfl]
  refine Outcome.settles_andThen (evaluate_grows left frame) fun values middle => ?_
  exact fun _ _ le => (evaluate_below le).applyOperator le

end PipeLang
