import PipeLang.Proofs.MoreSteps
import PipeLang.Proofs.SideBySide

namespace PipeLang

/-! # Loops

A loop calls its condition and its body in turn, each from the state that the call before it left
behind. It goes through some number of complete rounds and then comes to an end: it returns where
the condition answers `false`, and it fails where a call fails or the condition answers something
that is no truth value. There is no other end, and a loop that never gets there has none.
-/

theorem conditionAnswer_of_kind {value : Value} (other : value.kind ≠ .boolean) :
    conditionAnswer [value] = .error (.typeMismatch .boolean value.kind) := by
  cases value with
  | boolean flag => exact absurd rfl other
  | _ => rfl

theorem conditionAnswer_of_length {values : List Value} (several : values.length ≠ 1) :
    conditionAnswer values = .error (.expectedSingleValue "loop condition" values.length) := by
  match values with
  | [] => rfl
  | [value] => exact absurd rfl several
  | _ :: _ :: _ => rfl

theorem conditionAnswer_cases (values : List Value) :
    (∃ flag, values = [.boolean flag]) ∨ (∃ value, values = [value] ∧ value.kind ≠ .boolean) ∨
      values.length ≠ 1 := by
  match values with
  | [.boolean flag] => exact .inl ⟨flag, rfl⟩
  | [.number _] | [.string _] | [.tuple _] | [.lambda _] => exact .inr (.inl ⟨_, rfl, nofun⟩)
  | [] => exact .inr (.inr nofun)
  | _ :: _ :: _ => exact .inr (.inr (by simp))

/-- Two lambdas that are called in turn, and where. -/
structure Loop where
  location : Location
  condition : Closure
  body : Closure

namespace Loop

variable {loop : Loop} {machine middle : Machine} {results : List (List Value)}
  {latest : List Value} {outcome : Outcome Fault Machine} {rounds steps : Nat}

def test (loop : Loop) (steps : Nat) (machine : Machine) : Outcome Fault Machine :=
  callClosure (evaluate steps) "condition" loop.location loop.condition [] machine

def repetition (loop : Loop) (steps : Nat) (machine : Machine) : Outcome Fault Machine :=
  callClosure (evaluate steps) "body" loop.location loop.body [] machine

def run (loop : Loop) (steps : Nat) (machine : Machine) : Outcome Fault Machine :=
  applyBuiltin (evaluate steps) steps .repeatWhile loop.location
    [.lambda loop.condition, .lambda loop.body] machine

/-- The call of the condition comes to this end. -/
def Tests (loop : Loop) (machine : Machine) : Outcome Fault Machine → Prop :=
  Outcome.Settles fun steps => loop.test steps machine

def Repeats (loop : Loop) (machine : Machine) : Outcome Fault Machine → Prop :=
  Outcome.Settles fun steps => loop.repetition steps machine

/-- Complete rounds, with what the body returned in each of them. -/
inductive Rounds (loop : Loop) : Machine → List (List Value) → Machine → Prop where
  | none (machine : Machine) : Rounds loop machine [] machine
  | more {machine tested repeated after : Machine} {result : List Value}
      {results : List (List Value)} (test : loop.Tests machine (.returned [.boolean true] tested))
      (repetition : loop.Repeats tested (.returned result repeated))
      (others : Rounds loop repeated results after) : Rounds loop machine (result :: results) after

/-- A round that fails. -/
inductive Breaks (loop : Loop) (machine : Machine) : Fault → Machine → Prop where
  | condition {fault : Fault} {after : Machine} (test : loop.Tests machine (.failed fault after)) :
      Breaks loop machine fault after
  | notBoolean {value : Value} {after : Machine}
      (test : loop.Tests machine (.returned [value] after)) (other : value.kind ≠ .boolean) :
      Breaks loop machine (.runtime ⟨loop.location, .typeMismatch .boolean value.kind⟩) after
  | notSingle {values : List Value} {after : Machine}
      (test : loop.Tests machine (.returned values after)) (several : values.length ≠ 1) :
      Breaks loop machine
        (.runtime ⟨loop.location, .expectedSingleValue "loop condition" values.length⟩) after
  | body {fault : Fault} {tested after : Machine}
      (test : loop.Tests machine (.returned [.boolean true] tested))
      (repetition : loop.Repeats tested (.failed fault after)) : Breaks loop machine fault after

/-- The round that comes to the end of the loop, with the latest result of the body before it. -/
def Ends (loop : Loop) (latest : List Value) (machine : Machine) : Outcome Fault Machine → Prop
  | .returned result after =>
      loop.Tests machine (.returned [.boolean false] after) ∧ result = latest
  | .failed fault after => loop.Breaks machine fault after
  | .outOfSteps => False

theorem test_grows (loop : Loop) (machine : Machine) :
    Outcome.Grows fun steps => loop.test steps machine :=
  fun _ _ le => (evaluate_below le).callClosure

theorem repetition_grows (loop : Loop) (machine : Machine) :
    Outcome.Grows fun steps => loop.repetition steps machine :=
  fun _ _ le => (evaluate_below le).callClosure

/-- The part of the loop that is left after some rounds. -/
def remainder (loop : Loop) (steps rounds : Nat) (latest : List Value) (machine : Machine) :
    Outcome Fault Machine :=
  iterate loop.location (loop.test steps) (loop.repetition steps) rounds latest machine

/-- What the loop does once the condition has answered. -/
def proceed (loop : Loop) (steps rounds : Nat) (latest answer : List Value) (tested : Machine) :
    Outcome Fault Machine :=
  match conditionAnswer answer with
  | .error cause => tested.fail loop.location cause
  | .ok false => .returned latest tested
  | .ok true =>
      (loop.repetition steps tested).andThen fun result repeated =>
        loop.remainder steps rounds result repeated

theorem remainder_succ (loop : Loop) (steps rounds : Nat) (latest : List Value)
    (machine : Machine) :
    loop.remainder steps (rounds + 1) latest machine =
      (loop.test steps machine).andThen (loop.proceed steps rounds latest) := rfl

theorem proceed_of_error {answer : List Value} {cause : RuntimeCause}
    (failed : conditionAnswer answer = .error cause) (tested : Machine) :
    loop.proceed steps rounds latest answer tested = tested.fail loop.location cause := by
  rw [proceed, failed]

theorem proceed_true (tested : Machine) :
    loop.proceed steps rounds latest [.boolean true] tested =
      (loop.repetition steps tested).andThen fun result repeated =>
        loop.remainder steps rounds result repeated := rfl

/-- A round comes to the end of the loop, or it is complete and leaves the rest of the loop. -/
theorem remainder_cases (ended : loop.remainder steps (rounds + 1) latest machine ≠ .outOfSteps) :
    loop.Ends latest machine (loop.remainder steps (rounds + 1) latest machine) ∨
      ∃ tested result repeated, loop.Tests machine (.returned [.boolean true] tested) ∧
        loop.Repeats tested (.returned result repeated) ∧
        loop.remainder steps (rounds + 1) latest machine =
          loop.remainder steps rounds result repeated := by
  rw [remainder_succ] at ended ⊢
  cases tested : loop.test steps machine with
  | outOfSteps =>
      rw [tested] at ended
      exact absurd rfl ended
  | failed fault after => exact .inl (.condition (Outcome.settles_failed tested))
  | returned answer after =>
      have settled : loop.Tests machine (.returned answer after) := Outcome.settles_returned tested
      rw [tested] at ended
      simp only [Outcome.andThen] at ended ⊢
      rcases conditionAnswer_cases answer with ⟨_ | _, rfl⟩ | ⟨value, rfl, other⟩ | several
      · exact .inl ⟨settled, rfl⟩
      · rw [proceed_true] at ended ⊢
        cases repeated : loop.repetition steps after with
        | outOfSteps =>
            rw [repeated] at ended
            exact absurd rfl ended
        | failed fault last => exact .inl (.body settled (Outcome.settles_failed repeated))
        | returned result last =>
            exact .inr ⟨after, result, last, settled, Outcome.settles_returned repeated, rfl⟩
      · rw [proceed_of_error (conditionAnswer_of_kind other)]
        exact .inl (.notBoolean settled other)
      · rw [proceed_of_error (conditionAnswer_of_length several)]
        exact .inl (.notSingle settled several)

theorem rounds_of_remainder (ended : loop.remainder steps rounds latest machine ≠ .outOfSteps) :
    ∃ results middle, loop.Rounds machine results middle ∧
      loop.Ends (results.getLastD latest) middle (loop.remainder steps rounds latest machine) := by
  induction rounds generalizing latest machine with
  | zero => exact absurd rfl ended
  | succ rounds ih =>
      rcases remainder_cases ended with ends | ⟨tested, result, repeated, test, repetition, rest⟩
      · exact ⟨[], machine, .none machine, ends⟩
      · rw [rest] at ended ⊢
        obtain ⟨results, middle, others, ends⟩ := ih ended
        rw [← List.getLastD_cons (a := latest)] at ends
        exact ⟨result :: results, middle, .more test repetition others, ends⟩

theorem remainder_of_tests {answer : Outcome Fault Machine} (test : loop.Tests machine answer) :
    ∃ bound, ∀ steps, bound ≤ steps → ∀ rounds latest,
      loop.remainder steps (rounds + 1) latest machine =
        answer.andThen (loop.proceed steps rounds latest) := by
  obtain ⟨bound, enough⟩ := test.from_some_step (loop.test_grows machine)
  refine ⟨bound, fun steps le rounds latest => ?_⟩
  rw [remainder_succ, enough steps le]

/-- Enough steps for the calls of a complete round lead to the round after it. -/
theorem remainder_of_round {repeated : Outcome Fault Machine}
    (test : loop.Tests machine (.returned [.boolean true] middle))
    (repetition : loop.Repeats middle repeated) :
    ∃ bound, ∀ steps, bound ≤ steps → ∀ rounds latest,
      loop.remainder steps (rounds + 1) latest machine =
        repeated.andThen fun result after => loop.remainder steps rounds result after := by
  obtain ⟨first, tests⟩ := remainder_of_tests test
  obtain ⟨second, repeats⟩ := repetition.from_some_step (loop.repetition_grows middle)
  refine ⟨max first second, fun steps le rounds latest => ?_⟩
  rw [tests steps (by omega), Outcome.andThen, proceed_true, repeats steps (by omega)]

theorem remainder_of_ends (ends : loop.Ends latest machine outcome) :
    ∃ bound, ∀ steps, bound ≤ steps → ∀ rounds,
      loop.remainder steps (rounds + 1) latest machine = outcome := by
  cases outcome with
  | outOfSteps => exact ends.elim
  | returned result after =>
      obtain ⟨test, rfl⟩ := ends
      obtain ⟨bound, enough⟩ := remainder_of_tests test
      exact ⟨bound, fun steps le rounds => enough steps le rounds result⟩
  | failed fault after =>
      cases ends with
      | condition test =>
          obtain ⟨bound, enough⟩ := remainder_of_tests test
          exact ⟨bound, fun steps le rounds => enough steps le rounds latest⟩
      | notBoolean test other =>
          obtain ⟨bound, enough⟩ := remainder_of_tests test
          refine ⟨bound, fun steps le rounds => ?_⟩
          rw [enough steps le, Outcome.andThen, proceed_of_error (conditionAnswer_of_kind other)]
          rfl
      | notSingle test several =>
          obtain ⟨bound, enough⟩ := remainder_of_tests test
          refine ⟨bound, fun steps le rounds => ?_⟩
          rw [enough steps le, Outcome.andThen,
            proceed_of_error (conditionAnswer_of_length several)]
          rfl
      | body test repetition =>
          obtain ⟨bound, enough⟩ := remainder_of_round test repetition
          exact ⟨bound, fun steps le rounds => enough steps le rounds latest⟩

theorem remainder_of_rounds (alternation : loop.Rounds machine results middle)
    (ends : loop.Ends (results.getLastD latest) middle outcome) :
    ∃ bound, ∀ steps rounds, bound ≤ steps → bound ≤ rounds →
      loop.remainder steps rounds latest machine = outcome := by
  induction alternation generalizing latest with
  | none machine =>
      obtain ⟨bound, enough⟩ := remainder_of_ends ends
      refine ⟨bound + 1, fun steps rounds le some => ?_⟩
      obtain ⟨fewer, rfl⟩ := Nat.exists_eq_add_of_le' (Nat.le_trans (Nat.le_add_left 1 bound) some)
      exact enough steps (by omega) fewer
  | @more machine tested repeated after result results test repetition others ih =>
      rw [List.getLastD_cons] at ends
      obtain ⟨bound, enough⟩ := ih ends
      obtain ⟨first, round⟩ := remainder_of_round test repetition
      -- One round more, and steps enough for this one and for all that follow.
      refine ⟨first + bound + 1, fun steps rounds le some => ?_⟩
      obtain ⟨fewer, rfl⟩ := Nat.exists_eq_add_of_le' (Nat.le_trans (Nat.le_add_left 1 _) some)
      rw [round steps (by omega)]
      exact enough steps fewer (by omega) (by omega)

theorem settles_run (loop : Loop) (machine : Machine) (outcome : Outcome Fault Machine) :
    Outcome.Settles (fun steps => loop.run steps machine) outcome ↔
      ∃ results middle, loop.Rounds machine results middle ∧
        loop.Ends (results.getLastD []) middle outcome := by
  constructor
  · intro settles
    obtain ⟨ended, steps, rfl⟩ := settles
    have settled : loop.remainder steps steps [] machine ≠ .outOfSteps := ended
    exact rounds_of_remainder settled
  · intro follows
    obtain ⟨results, middle, alternation, ends⟩ := follows
    obtain ⟨bound, enough⟩ := remainder_of_rounds alternation ends
    refine ⟨?_, bound, enough bound bound (Nat.le_refl bound) (Nat.le_refl bound)⟩
    intro starved
    subst starved
    exact ends

end Loop

theorem asLambda_of_kind {value : Value} (other : value.kind ≠ .lambda) :
    value.asLambda = .error (.typeMismatch .lambda value.kind) := by
  cases value with
  | lambda closure => exact absurd rfl other
  | _ => rfl

theorem repeatWhile_rejects {arguments : List Value} (location : Location) (machine : Machine)
    (other : ∀ condition body, arguments ≠ [.lambda condition, .lambda body])
    (two : arguments.length = 2) :
    ∃ value ∈ arguments, value.kind ≠ .lambda ∧
      ∀ run rounds, applyBuiltin run rounds .repeatWhile location arguments machine =
        machine.fail location (.typeMismatch .lambda value.kind) := by
  match arguments, two with
  | [condition, body], _ =>
      by_cases first : condition.kind = .lambda
      · have second : body.kind ≠ .lambda := by
          intro second
          cases condition <;> cases first
          cases body <;> cases second
          exact other _ _ rfl
        refine ⟨body, by simp, second, fun run rounds => ?_⟩
        cases condition <;> cases first
        simp only [applyBuiltin, asLambda_of_kind second]
        rfl
      · refine ⟨condition, by simp, first, fun run rounds => ?_⟩
        simp only [applyBuiltin, asLambda_of_kind first]

/-- A loop over two lambdas returns exactly if the condition answers `true` for some number of
rounds, in all of which the body returns, and then `false`; its result is that of the last round,
or nothing if there was none. It fails exactly if such rounds are followed by one that fails. What
is done before the end stays done. Other arguments than two lambdas are rejected, and whatever
evaluates lambdas plays no part in that. -/
theorem loop_follows_rounds (location : Location) (machine : Machine) :
    (∀ condition body result after,
      Outcome.Settles (fun steps => applyBuiltin (evaluate steps) steps .repeatWhile location
          [.lambda condition, .lambda body] machine) (.returned result after) ↔
        ∃ results middle, Loop.Rounds ⟨location, condition, body⟩ machine results middle ∧
          Loop.Tests ⟨location, condition, body⟩ middle (.returned [.boolean false] after) ∧
          result = results.getLastD []) ∧
    (∀ condition body fault after,
      Outcome.Settles (fun steps => applyBuiltin (evaluate steps) steps .repeatWhile location
          [.lambda condition, .lambda body] machine) (.failed fault after) ↔
        ∃ results middle, Loop.Rounds ⟨location, condition, body⟩ machine results middle ∧
          Loop.Breaks ⟨location, condition, body⟩ middle fault after) ∧
    ∀ arguments, (∀ condition body, arguments ≠ [.lambda condition, .lambda body]) →
      ∃ cause, (arguments.length ≠ 2 ∧ cause = .arityMismatch "loop" 2 arguments.length ∨
          arguments.length = 2 ∧
            ∃ value ∈ arguments, value.kind ≠ .lambda ∧ cause = .typeMismatch .lambda value.kind) ∧
        ∀ run rounds, applyBuiltin run rounds .repeatWhile location arguments machine =
          machine.fail location cause := by
  refine ⟨?_, ?_, ?_⟩
  · intro condition body result after
    exact Loop.settles_run ⟨location, condition, body⟩ machine (.returned result after)
  · intro condition body fault after
    exact Loop.settles_run ⟨location, condition, body⟩ machine (.failed fault after)
  · intro arguments other
    by_cases two : arguments.length = 2
    · obtain ⟨value, member, kind, rejects⟩ := repeatWhile_rejects location machine other two
      exact ⟨_, .inr ⟨two, value, member, kind, rfl⟩, rejects⟩
    · refine ⟨_, .inl ⟨two, rfl⟩, fun run rounds => ?_⟩
      rw [applyBuiltin_eq_perform, Builtin.job_of_miscounted (.inl rfl) two]
      rfl

/-- The loop `(() => (go), () => false ->> go) |> loop`, whose variable is in cell 0. -/
def switchingOff : Loop :=
  let scope := Scope.empty.bind "go" ⟨0⟩
  ⟨⟨1, 35⟩, ⟨0, [], scope, .tuple ⟨1, 8⟩ [.reference ⟨1, 9⟩ "go"]⟩,
    ⟨1, [], scope, .binary ⟨1, 26⟩ .mutate (.boolean ⟨1, 20⟩ false) (.reference ⟨1, 30⟩ "go")⟩⟩

def switched (go : Value) : Machine :=
  ⟨⟨#[[go]], 2⟩, .unlimited⟩

/-- The loop runs once if its variable is `true`, fails before the first round if the variable is
no truth value, and does not begin without two lambdas. -/
theorem loop_follows_rounds_once :
    (∃ results middle, switchingOff.Rounds (switched (.boolean true)) results middle ∧
      switchingOff.Tests middle (.returned [.boolean false] (switched (.boolean false))) ∧
      [.boolean false] = results.getLastD []) ∧
    (∃ results middle, switchingOff.Rounds (switched (.string "off")) results middle ∧
      switchingOff.Breaks middle (.runtime ⟨⟨1, 35⟩, .typeMismatch .boolean .string⟩)
        (switched (.string "off"))) ∧
    ∀ run rounds, applyBuiltin run rounds .repeatWhile ⟨1, 35⟩
        [.lambda switchingOff.condition, .boolean true] (switched (.boolean true)) =
      (switched (.boolean true)).fail ⟨1, 35⟩ (.typeMismatch .lambda .boolean) := by
  refine ⟨?_, ?_, ?_⟩
  · exact ((loop_follows_rounds _ _).1 switchingOff.condition switchingOff.body _ _).mp
      ⟨nofun, 3, rfl⟩
  · exact ((loop_follows_rounds _ _).2.1 switchingOff.condition switchingOff.body _ _).mp
      ⟨nofun, 3, rfl⟩
  · obtain ⟨cause, ⟨miscounted, _⟩ | ⟨_, value, member, kind, rfl⟩, rejected⟩ :=
      (loop_follows_rounds ⟨1, 35⟩ (switched (.boolean true))).2.2
        [.lambda switchingOff.condition, .boolean true] nofun
    · exact absurd rfl miscounted
    · rcases List.mem_cons.mp member with rfl | later
      · exact absurd rfl kind
      · cases List.mem_singleton.mp later
        exact rejected

end PipeLang
