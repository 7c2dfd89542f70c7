import PipeLang.Proofs.CellFrame

namespace PipeLang

/-! # Where runtime errors point

An error of a running program is reported at a node that can raise it. The node belongs to the
program or to a lambda that could be reached before the run: a run evaluates no other nodes, and
a callback of a loop or of a condition is blamed on the call of the builtin function.
-/

section Causes

variable (Occurs : Expression → Prop) (location : Location)

/-- The variable stands at the location to the right of a pipeline. -/
def CalledAt (name : String) : Prop :=
  Occurs (.reference location name) ∧
    ∃ place left, Occurs (.binary place .pipeline left (.reference location name))

def arithmeticNames : List String := ["+", "*", "-", "/"]

def comparisonNames : List String := [">", ">=", "<", "<=", "==", "!="]

/-- A node at the location can raise the error. -/
def RuntimeCause.RaisedAt : RuntimeCause → Prop
  | .unknownVariable name => Occurs (.reference location name)
  | .bareVariable name => Occurs (.reference location name)
  | .unknownFunction name => Occurs (.reference location name)
  | .notCallable name => Occurs (.reference location name)
  | .notAVariable tag =>
      tag ≠ .reference ∧ ∃ node, Occurs node ∧ node.location = location ∧ node.tag = tag ∧
        ∃ place operator left, operator ≠ .pipeline ∧ Occurs (.binary place operator left node)
  | .arityMismatch name _ _ =>
      CalledAt Occurs location name ∨
      name = "condition" ∧ CalledAt Occurs location "loop" ∨
      name = "body" ∧ (CalledAt Occurs location "loop" ∨ CalledAt Occurs location "if")
  | .typeMismatch _ _ =>
      ∃ name ∈ arithmeticNames ++ comparisonNames ++ ["loop", "if"], CalledAt Occurs location name
  | .missingArguments name _ _ => name ∈ ["-", "/"] ∧ CalledAt Occurs location name
  | .comparisonOperands => ∃ name ∈ comparisonNames, CalledAt Occurs location name
  | .expectedSingleValue _ _ => CalledAt Occurs location "loop"

end Causes

/-- The call of a builtin function can raise the errors with which it rejects arguments. -/
theorem Builtin.Rejects.raisedAt {Occurs : Expression → Prop} {location : Location}
    {builtin : Builtin} {cause : RuntimeCause} (rejects : builtin.Rejects cause)
    (called : CalledAt Occurs location builtin.name) : cause.RaisedAt Occurs location := by
  cases rejects with
  | @notNumber operation => exact ⟨operation.name, by cases operation <;> decide, called⟩
  | @noArguments operation noNeutral =>
      have subtractsOrDivides : operation.name ∈ ["-", "/"] := by
        cases operation with
        | add | multiply => cases noNeutral
        | subtract | divide => decide
      exact ⟨subtractsOrDivides, called⟩
  | @notComparable relation => exact ⟨relation.name, by cases relation <;> decide, called⟩
  | @noPair relation => exact ⟨relation.name, by cases relation <;> decide, called⟩
  | miscounted => exact .inl called
  | mismatched callsBack =>
      obtain rfl | rfl := callsBack
      · exact ⟨"loop", by decide, called⟩
      · exact ⟨"if", by decide, called⟩

theorem conditionAnswer_error {values : List Value} {cause : RuntimeCause}
    (failed : conditionAnswer values = .error cause) :
    (∃ found, cause = .typeMismatch .boolean found) ∨
      ∃ name found, cause = .expectedSingleValue name found := by
  unfold conditionAnswer at failed
  split at failed
  next value => exact .inl (Value.asBoolean_error failed)
  next =>
    cases failed
    exact .inr ⟨_, _, rfl⟩

namespace Outcome

variable {Failure State Other : Type} {blames : Failure → Prop}

/-- Every failure of the evaluation is of the given sort. -/
def FailsWith (blames : Failure → Prop) (outcome : Outcome Failure State) : Prop :=
  ∀ failure after, outcome = .failed failure after → blames failure

theorem failsWith_returned (values : List Value) (after : State) :
    FailsWith blames (.returned values after) := by
  intro failure state failed
  cases failed

theorem FailsWith.andThen {first : Outcome Failure State}
    {next : List Value → State → Outcome Failure State} (start : first.FailsWith blames)
    (continues : ∀ values after, first = .returned values after →
      (next values after).FailsWith blames) :
    (first.andThen next).FailsWith blames := by
  cases first with
  | returned values after => exact continues values after rfl
  | failed failure after =>
      intro other state failed
      cases failed
      exact start failure after rfl
  | outOfSteps =>
      intro failure after failed
      cases failed

theorem FailsWith.mapValues {outcome : Outcome Failure State} (fails : outcome.FailsWith blames)
    (change : List Value → List Value) : (outcome.mapValues change).FailsWith blames :=
  fails.andThen fun _ _ _ => failsWith_returned _ _

theorem FailsWith.mapState {outcome : Outcome Failure State} (fails : outcome.FailsWith blames)
    (change : State → Other) : (outcome.mapState change).FailsWith blames := by
  intro failure after failed
  cases outcome with
  | returned values state => cases failed
  | failed fault state =>
      cases failed
      exact fails failure state rfl
  | outOfSteps => cases failed

end Outcome

namespace Policy

/-- The fault is no error of the program, or one that an allowed node can raise where it is
reported. -/
def Explains (policy : Policy) : Fault → Prop
  | .runtime error => error.cause.RaisedAt policy.Allows error.location
  | .output _ => True

/-- The evaluator fails for no other reasons. -/
def Accounts (policy : Policy) (base : Heap) (run : Evaluator) : Prop :=
  ∀ expression frame, policy.Runs expression → policy.AdmitsFrame base frame →
    (run expression frame).FailsWith policy.Explains

variable {policy : Policy} {base : Heap} {values arguments : List Value} {run : Evaluator}
  {rounds : Nat} {name : String} {location : Location} {machine : Machine} {frame : Frame}

theorem Keeps.returned {State : Type} {holds : State → Prop} {outcome : Outcome Fault State}
    {after : State} (keeps : policy.Keeps holds outcome)
    (returned : outcome = .returned values after) : policy.AdmitsValues values ∧ holds after := by
  rw [returned] at keeps
  exact keeps

theorem failsWith_failed {State : Type} {cause : RuntimeCause}
    (raised : cause.RaisedAt policy.Allows location) (after : State) :
    Outcome.FailsWith policy.Explains (.failed (.runtime ⟨location, cause⟩) after) := by
  intro fault state failed
  cases failed
  exact raised

theorem failsWith_print (line : String) : (machine.print line).FailsWith policy.Explains := by
  obtain ⟨heap, sink⟩ := machine
  intro fault after failed
  simp only [Machine.print] at failed
  split at failed
  · cases failed
  · cases failed
    exact trivial

theorem failsWith_callClosure {closure : Closure} (feasible : policy.Feasible base)
    (accounts : policy.Accounts base run) (admitted : policy.AdmitsClosure closure)
    (supplied : policy.AdmitsValues arguments) (admits : policy.AdmitsMachine base machine)
    (called : ∀ expected found,
      (RuntimeCause.arityMismatch name expected found).RaisedAt policy.Allows location) :
    (callClosure run name location closure arguments machine).FailsWith policy.Explains := by
  unfold callClosure
  split
  · have entered : policy.AdmitsFrame base
        (Frame.defineEach ⟨closure.scope, machine⟩ closure.parameters arguments) :=
      AdmitsFrame.defineEach feasible ⟨admitted.2, admits⟩ supplied
    exact (accounts _ _ admitted.1 entered).mapState _
  · exact failsWith_failed (called _ _) machine

theorem failsWith_iterate {condition body : Machine → Outcome Fault Machine} {latest : List Value}
    (tests : ∀ machine, policy.AdmitsMachine base machine →
      policy.Keeps (policy.AdmitsMachine base) (condition machine) ∧
        (condition machine).FailsWith policy.Explains)
    (repeats : ∀ machine, policy.AdmitsMachine base machine →
      policy.Keeps (policy.AdmitsMachine base) (body machine) ∧
        (body machine).FailsWith policy.Explains)
    (called : CalledAt policy.Allows location "loop")
    (admits : policy.AdmitsMachine base machine) :
    (iterate location condition body rounds latest machine).FailsWith policy.Explains := by
  induction rounds generalizing latest machine with
  | zero =>
      intro fault after failed
      cases failed
  | succ rounds ih =>
      unfold iterate
      obtain ⟨kept, explained⟩ := tests machine admits
      refine explained.andThen fun answer tested returned => ?_
      have admitsTested := (kept.returned returned).2
      split
      next cause failed =>
        refine failsWith_failed ?_ tested
        obtain ⟨found, rfl⟩ | ⟨name, found, rfl⟩ := conditionAnswer_error failed
        · exact ⟨"loop", by decide, called⟩
        · exact called
      next => exact Outcome.failsWith_returned latest tested
      next =>
        obtain ⟨keptBody, explainedBody⟩ := repeats tested admitsTested
        refine explainedBody.andThen fun result repeated done => ?_
        exact ih (keptBody.returned done).2

theorem failsWith_perform {builtin : Builtin} {job : Job} (feasible : policy.Feasible base)
    (acts : run.Acts) (accounts : policy.Accounts base run)
    (called : CalledAt policy.Allows location builtin.name)
    (takesOn : builtin.TakesOn policy.AdmitsClosure job)
    (admits : policy.AdmitsMachine base machine) :
    (job.perform run rounds location machine).FailsWith policy.Explains := by
  -- A callback gets no arguments.
  have calls {name : String} {closure : Closure} (admitted : policy.AdmitsClosure closure)
      (blamed : ∀ expected found,
        (RuntimeCause.arityMismatch name expected found).RaisedAt policy.Allows location)
      (machine : Machine) (admits : policy.AdmitsMachine base machine) :
      policy.Keeps (policy.AdmitsMachine base) (callClosure run name location closure [] machine) ∧
        (callClosure run name location closure [] machine).FailsWith policy.Explains :=
    ⟨keeps_callClosure feasible acts admitted .nil admits,
      failsWith_callClosure feasible accounts admitted .nil admits blamed⟩
  cases takesOn with
  | answer => exact Outcome.failsWith_returned _ _
  | reject rejects => exact failsWith_failed (rejects.raisedAt called) machine
  | print => exact failsWith_print _
  | repeatWhile tested repeated =>
      exact failsWith_iterate (calls tested fun _ _ => .inr (.inl ⟨rfl, called⟩))
        (calls repeated fun _ _ => .inr (.inr ⟨rfl, .inl called⟩)) called admits
  | skip => exact Outcome.failsWith_returned _ _
  | runOnce repeated =>
      have blamed := calls repeated fun _ _ => .inr (.inr ⟨rfl, .inr called⟩)
      exact (blamed machine admits).2.mapValues _

theorem failsWith_callNamed {scope : Scope} (feasible : policy.Feasible base)
    (acts : run.Acts) (accounts : policy.Accounts base run)
    (called : CalledAt policy.Allows location name) (visible : policy.AdmitsScope scope)
    (supplied : policy.AdmitsValues arguments) (admits : policy.AdmitsMachine base machine) :
    (callNamed run rounds name location arguments scope machine).FailsWith policy.Explains := by
  have notCallable : (RuntimeCause.notCallable name).RaisedAt policy.Allows location := called.1
  have unknown : (RuntimeCause.unknownFunction name).RaisedAt policy.Allows location := called.1
  unfold callNamed
  split
  next cell bound =>
    split
    next closure held =>
      have admitted := admits.admitted name cell (visible name cell bound)
      rw [held] at admitted
      have callable := admitted.closure (List.mem_singleton_self _)
      exact failsWith_callClosure feasible accounts callable supplied admits fun _ _ => .inl called
    next => exact failsWith_failed notCallable machine
  next =>
    split
    next builtin found =>
      have named : builtin.name = name := by simpa using List.find?_some found
      rw [applyBuiltin_eq_perform]
      exact failsWith_perform feasible acts accounts (named ▸ called)
        (builtin.takesOn_job supplied) admits
    next => exact failsWith_failed unknown machine

theorem failsWith_evaluateElement {element : Expression} (accounts : policy.Accounts base run)
    (runs : policy.Runs element) (admits : policy.AdmitsFrame base frame) :
    (evaluateElement run element frame).FailsWith policy.Explains := by
  unfold evaluateElement
  split
  next location name =>
    split
    next => exact Outcome.failsWith_returned _ _
    next =>
      have unknown : (RuntimeCause.unknownVariable name).RaisedAt policy.Allows location := runs.self
      exact failsWith_failed unknown frame
  next => exact (accounts _ _ runs admits).mapValues _
  next => exact accounts _ _ runs admits

theorem failsWith_evaluateElements {elements : List Expression} (feasible : policy.Feasible base)
    (acts : run.Acts) (accounts : policy.Accounts base run)
    (runs : ∀ element ∈ elements, policy.Runs element) (admits : policy.AdmitsFrame base frame) :
    (evaluateElements run elements frame).FailsWith policy.Explains := by
  induction elements generalizing frame with
  | nil => exact Outcome.failsWith_returned _ _
  | cons element others ih =>
      have first := runs element List.mem_cons_self
      have kept := keeps_evaluateElement feasible acts first admits
      refine (failsWith_evaluateElement accounts first admits).andThen fun values middle returned => ?_
      have rest := ih (fun other member => runs other (List.mem_cons_of_mem element member))
        (kept.returned returned).2
      exact rest.mapValues _

theorem failsWith_applyOperator {operator : Operator} {left right : Expression}
    (feasible : policy.Feasible base) (acts : run.Acts)
    (accounts : policy.Accounts base run) (runs : policy.Runs (.binary location operator left right))
    (supplied : policy.AdmitsValues values) (admits : policy.AdmitsFrame base frame) :
    (applyOperator run rounds operator values right frame).FailsWith policy.Explains := by
  unfold applyOperator
  split
  next place name =>
    have called : CalledAt policy.Allows place name := ⟨runs.right.self, _, _, runs.self⟩
    exact (failsWith_callNamed feasible acts accounts called admits.scope supplied
      admits.heap).mapState _
  next => exact accounts _ _ runs.right admits
  next => exact Outcome.failsWith_returned _ _
  next place name =>
    split
    next => exact Outcome.failsWith_returned _ _
    next =>
      have unknown : (RuntimeCause.unknownVariable name).RaisedAt policy.Allows place :=
        runs.right.self
      exact failsWith_failed unknown frame
  next notPipeline _ notAssigned notMutated =>
    have noVariable : right.tag ≠ .reference := by
      cases right with
      | reference place name =>
          cases operator with
          | pipeline => exact (notPipeline rfl).elim
          | assign => exact (notAssigned place name rfl rfl).elim
          | mutate => exact (notMutated place name rfl rfl).elim
      | _ => exact nofun
    have noTarget :
        (RuntimeCause.notAVariable right.tag).RaisedAt policy.Allows right.location :=
      ⟨noVariable, right, runs.right.self, rfl, rfl, location, operator, left, notPipeline,
        runs.self⟩
    exact failsWith_failed noTarget frame

theorem accounts_evaluateWith (feasible : policy.Feasible base) (acts : run.Acts)
    (accounts : policy.Accounts base run) : policy.Accounts base (evaluateWith run rounds) := by
  intro expression frame runs admits
  cases expression with
  | number | string | boolean | lambda => exact Outcome.failsWith_returned _ _
  | reference location name =>
      have bare : (RuntimeCause.bareVariable name).RaisedAt policy.Allows location := runs.self
      exact failsWith_failed bare frame
  | tuple location elements =>
      exact failsWith_evaluateElements feasible acts accounts
        (fun element member => runs.element member) admits
  | binary location operator left right =>
      refine (accounts left frame runs.left admits).andThen fun values middle returned => ?_
      have kept := governs_of_acts feasible acts left frame runs.left admits
      obtain ⟨supplied, admitsMiddle⟩ := kept.returned returned
      exact failsWith_applyOperator feasible acts accounts runs supplied admitsMiddle

theorem accounts_evaluate (feasible : policy.Feasible base) (steps : Nat) :
    policy.Accounts base (evaluate steps) := by
  induction steps with
  | zero =>
      intro expression frame _ _ fault after failed
      cases failed
  | succ steps ih => exact accounts_evaluateWith feasible (evaluate_acts steps) ih

end Policy

/-- The node belongs to the expression, or to the body of a lambda that can be reached. -/
def Frame.Runnable (start : Frame) (expression node : Expression) : Prop :=
  node ∈ expression.nodes ∨
    ∃ closure, start.scope.ReachesClosure start.machine.heap closure ∧ node ∈ closure.body.nodes

namespace Policy

def ofNodes (start : Frame) (expression : Expression) : Policy where
  Allows := start.Runnable expression
  Binds name cell := start.machine.heap.Allocated cell → start.Names name cell
  Writes _ := True

variable {start : Frame} {expression : Expression}

theorem ofNodes_feasible : (ofNodes start expression).Feasible start.machine.heap where
  fresh _ _ absent allocated := absurd allocated absent
  overwrite _ _ := trivial

theorem ofNodes_runs : (ofNodes start expression).Runs expression :=
  fun _ inside => .inl inside

theorem ofNodes_admitsFrame : (ofNodes start expression).AdmitsFrame start.machine.heap start :=
  admitsFrame_of_names (fun _ _ => Iff.rfl) fun closure reached _ inside =>
    .inr ⟨closure, reached, inside⟩

end Policy

/-- A runtime error points at a node of the program, or of a lambda that was reachable before the
run, and that node can raise the error. -/
theorem evaluate_blames_raising_node {steps : Nat} {expression : Expression} {before after : Frame}
    {error : RuntimeError} (failed : evaluate steps expression before = .failed (.runtime error) after) :
    error.cause.RaisedAt (before.Runnable expression) error.location :=
  Policy.accounts_evaluate Policy.ofNodes_feasible steps expression before Policy.ofNodes_runs
    Policy.ofNodes_admitsFrame (.runtime error) after failed

/-- A frame with the lambda `() => (() => "on", () => false) |> loop`, whose condition returns
no truth value. -/
def brokenLoop : Frame :=
  (Session.start .unlimited).define "spin"
    [.lambda ⟨0, [], .empty,
      .binary ⟨4, 31⟩ .pipeline
        (.tuple ⟨4, 7⟩
          [.lambda ⟨4, 8⟩ [] (.string ⟨4, 14⟩ "on"), .lambda ⟨4, 20⟩ [] (.boolean ⟨4, 26⟩ false)])
        (.reference ⟨4, 34⟩ "loop")⟩]

/-- The error of the condition is blamed on the loop inside the lambda, not on the call. -/
theorem evaluate_blames_raising_node_loop :
    ∃ after closure name,
      evaluate 5 (.binary ⟨1, 4⟩ .pipeline (.tuple ⟨1, 1⟩ []) (.reference ⟨1, 7⟩ "spin")) brokenLoop =
        .failed (.runtime ⟨⟨4, 34⟩, .typeMismatch .boolean .string⟩) after ∧
      brokenLoop.scope.ReachesClosure brokenLoop.machine.heap closure ∧
      .reference ⟨4, 34⟩ name ∈ closure.body.nodes := by
  have raised : ∃ after,
      evaluate 5 (.binary ⟨1, 4⟩ .pipeline (.tuple ⟨1, 1⟩ []) (.reference ⟨1, 7⟩ "spin")) brokenLoop =
        .failed (.runtime ⟨⟨4, 34⟩, .typeMismatch .boolean .string⟩) after := ⟨_, rfl⟩
  obtain ⟨after, failed⟩ := raised
  obtain ⟨name, _, occurs, _⟩ := evaluate_blames_raising_node failed
  rcases occurs with inside | ⟨closure, reached, inside⟩
  · simp [Expression.nodes, Expression.nodesWith, Expression.nodesOfEach] at inside
  · exact ⟨after, closure, name, failed, reached, inside⟩

end PipeLang
