import PipeLang.Proofs.Rounds

namespace PipeLang

/-! # Evaluation without lambdas

Only lambdas are called back. Where none can be reached, every call of a function is over at once,
so evaluation goes no deeper than the expression does. No lambda appears on the way either: the
values are those of literals and variables, and functions return none that they were not given.
-/

namespace Expression

mutual

/-- How many nodes there are inside one another. -/
def depth : Expression → Nat
  | .tuple _ elements => depthOfEach elements + 1
  | .lambda _ _ body => depth body + 1
  | .binary _ _ left right => max (depth left) (depth right) + 1
  | _ => 1

def depthOfEach : List Expression → Nat
  | [] => 0
  | element :: others => max (depth element) (depthOfEach others)

end

theorem depth_le_depthOfEach {element : Expression} {elements : List Expression}
    (member : element ∈ elements) : element.depth ≤ depthOfEach elements := by
  induction elements with
  | nil => cases member
  | cons first others ih =>
      simp only [depthOfEach]
      rcases List.mem_cons.mp member with rfl | later
      · exact Nat.le_max_left _ _
      · exact Nat.le_trans (ih later) (Nat.le_max_right _ _)

theorem depth_pos (expression : Expression) : 0 < expression.depth := by
  cases expression <;> simp [depth]

end Expression

/-- No lambda is part of the value. -/
def Value.LambdaFree (value : Value) : Prop :=
  ∀ closure, ¬ value.Holds closure

namespace Value.LambdaFree

variable {values : List Value}

theorem tuple (free : ∀ value ∈ values, value.LambdaFree) : (Value.tuple values).LambdaFree := by
  intro closure holds
  cases holds with
  | tuple member inside => exact free _ member closure inside

theorem append {others : List Value} (first : ∀ value ∈ values, value.LambdaFree)
    (second : ∀ value ∈ others, value.LambdaFree) :
    ∀ value ∈ values ++ others, value.LambdaFree := by
  intro value member
  rcases List.mem_append.mp member with early | late
  · exact first value early
  · exact second value late

end Value.LambdaFree

/-- No variable of the scope has a lambda among its values. -/
def Frame.LambdaFree (frame : Frame) : Prop :=
  ∀ name cell, frame.scope.get? name = some cell →
    ∀ value ∈ frame.contents cell, value.LambdaFree

namespace Frame.LambdaFree

variable {frame : Frame} {values : List Value}

/-- What can be reached without following a lambda is what the variables hold. -/
theorem iff_not_reachesClosure : frame.LambdaFree ↔
    ∀ closure, ¬ frame.scope.ReachesClosure frame.machine.heap closure := by
  constructor
  · intro free closure reaches
    obtain ⟨scope, reached, held⟩ := reaches
    have direct : ∀ closure, ¬ frame.scope.Holds frame.machine.heap closure := by
      intro closure held
      obtain ⟨name, cell, value, bound, member, holds⟩ := held
      exact free name cell bound value member closure holds
    have only : ∀ {scope : Scope}, frame.scope.Reaches frame.machine.heap scope →
        scope = frame.scope := by
      intro scope reached
      induction reached with
      | root => rfl
      | captured _ held ih => exact absurd (ih ▸ held) (direct _)
    exact direct closure (only reached ▸ held)
  · intro unreached name cell bound value member closure holds
    exact unreached closure ⟨frame.scope, .root, name, cell, value, bound, member, holds⟩

theorem define (free : frame.LambdaFree) (name : String)
    (supplied : ∀ value ∈ values, value.LambdaFree) : (frame.define name values).LambdaFree := by
  intro other cell bound value member
  simp only [Frame.define, Heap.define, contents] at bound member
  by_cases new : cell = frame.machine.heap.next
  · rw [new, Heap.contents_allocate_next] at member
    exact supplied value member
  · rw [Heap.contents_allocate_of_ne values new] at member
    by_cases same : other = name
    · rw [same, Scope.get?_bind_self] at bound
      exact absurd (Option.some.inj bound).symm new
    · rw [Scope.get?_bind_of_ne _ _ same] at bound
      exact free other cell bound value member

theorem write (free : frame.LambdaFree) (cell : Cell)
    (supplied : ∀ value ∈ values, value.LambdaFree) : (frame.write cell values).LambdaFree := by
  intro name other bound value member
  simp only [Frame.write, contents] at bound member
  by_cases present : frame.machine.heap.Allocated cell
  · by_cases same : other = cell
    · rw [same, Heap.contents_write_self values present] at member
      exact supplied value member
    · rw [Heap.contents_write_of_ne values same] at member
      exact free name other bound value member
  · rw [Heap.write_of_not_allocated values present] at member
    exact free name other bound value member

end Frame.LambdaFree

namespace Outcome

variable {Failure State Other : Type} {holds : State → Prop}

/-- The evaluation comes to an end and leaves such a state behind, and no lambda is part of the
values that it returns. -/
def Concludes (holds : State → Prop) : Outcome Failure State → Prop
  | .returned values after => (∀ value ∈ values, value.LambdaFree) ∧ holds after
  | .failed _ after => holds after
  | .outOfSteps => False

theorem Concludes.andThen {first : Outcome Failure State}
    {next : List Value → State → Outcome Failure State} (concludes : first.Concludes holds)
    (continues : ∀ values state, (∀ value ∈ values, value.LambdaFree) → holds state →
      (next values state).Concludes holds) :
    (first.andThen next).Concludes holds := by
  cases first with
  | returned values after => exact continues values after concludes.1 concludes.2
  | failed failure after => exact concludes
  | outOfSteps => exact concludes

theorem Concludes.mapValues {outcome : Outcome Failure State} {change : List Value → List Value}
    (concludes : outcome.Concludes holds)
    (changed : ∀ values, (∀ value ∈ values, value.LambdaFree) →
      ∀ value ∈ change values, value.LambdaFree) :
    (outcome.mapValues change).Concludes holds :=
  concludes.andThen fun values _ free kept => ⟨changed values free, kept⟩

theorem Concludes.mapState {outcome : Outcome Failure State} {change : State → Other}
    {kept : Other → Prop} (concludes : outcome.Concludes holds)
    (changed : ∀ state, holds state → kept (change state)) :
    (outcome.mapState change).Concludes kept := by
  cases outcome with
  | returned values after => exact ⟨concludes.1, changed after concludes.2⟩
  | failed failure after => exact changed after concludes
  | outOfSteps => exact concludes

theorem Concludes.mono {outcome : Outcome Failure State} {kept : State → Prop}
    (concludes : outcome.Concludes holds) (implies : ∀ state, holds state → kept state) :
    outcome.Concludes kept := by
  cases outcome with
  | returned values after => exact ⟨concludes.1, implies after concludes.2⟩
  | failed failure after => exact implies after concludes
  | outOfSteps => exact concludes

end Outcome

section Calls

variable {arguments : List Value} {machine : Machine} {scope : Scope} {builtin : Builtin}
  {run : Evaluator} {rounds : Nat} {name : String} {location : Location}

/-- Functions that do not call back leave all cells as they are. -/
def KeepsCells (machine : Machine) (outcome : Outcome Fault Machine) : Prop :=
  outcome.Concludes fun after => after.heap = machine.heap

/-- A function that calls back needs a lambda, so it fails without evaluating anything. -/
theorem callback_fails (callsBack : builtin.CallsBack)
    (free : ∀ value ∈ arguments, value.LambdaFree) (location : Location) (machine : Machine) :
    ∃ cause, ∀ run rounds,
      applyBuiltin run rounds builtin location arguments machine = machine.fail location cause := by
  have takesOn := builtin.takesOn_job free
  simp only [applyBuiltin_eq_perform]
  generalize builtin.job arguments = job at takesOn
  cases takesOn with
  | reject => exact ⟨_, fun _ _ => rfl⟩
  | answer direct => exact absurd callsBack direct
  | print => exact absurd callsBack nofun
  | repeatWhile tested => exact tested.elim
  | skip offered => exact offered.elim
  | runOnce called => exact called.elim

theorem keepsCells_print (line : String) : KeepsCells machine (machine.print line) := by
  simp only [Machine.print]
  split
  · exact ⟨by simp, rfl⟩
  · exact rfl

theorem keepsCells_perform {job : Job} (takesOn : builtin.TakesOn (fun _ => False) job) :
    KeepsCells machine (job.perform run rounds location machine) := by
  cases takesOn with
  | answer _ free => exact ⟨free, rfl⟩
  | reject => exact rfl
  | print => exact keepsCells_print _
  | repeatWhile tested => exact tested.elim
  | skip offered => exact offered.elim
  | runOnce called => exact called.elim

/-- A variable without lambdas cannot be called, and it hides a function of the same name. -/
theorem callNamed_of_bound {cell : Cell} (free : Frame.LambdaFree ⟨scope, machine⟩)
    (bound : scope.get? name = some cell) :
    callNamed run rounds name location arguments scope machine =
      machine.fail location (.notCallable name) := by
  unfold callNamed
  rw [bound]
  dsimp only
  split
  next closure held =>
    have member : Value.lambda closure ∈ machine.heap.contents cell := by simp [held]
    exact absurd .lambda (free name cell bound _ member closure)
  next => rfl

theorem keepsCells_callNamed (free : Frame.LambdaFree ⟨scope, machine⟩)
    (supplied : ∀ value ∈ arguments, value.LambdaFree) :
    KeepsCells machine (callNamed run rounds name location arguments scope machine) := by
  cases bound : scope.get? name with
  | some cell =>
      rw [callNamed_of_bound free bound]
      exact rfl
  | none =>
      simp only [callNamed, bound]
      cases Builtin.named? name with
      | some builtin =>
          simp only [applyBuiltin_eq_perform]
          exact keepsCells_perform (builtin.takesOn_job supplied)
      | none => exact rfl

theorem callNamed_callback_fails (callback : name ∈ ["loop", "if"])
    (free : Frame.LambdaFree ⟨scope, machine⟩) (supplied : ∀ value ∈ arguments, value.LambdaFree)
    (location : Location) :
    ∃ cause, ∀ run rounds, callNamed run rounds name location arguments scope machine =
      machine.fail location cause := by
  cases bound : scope.get? name with
  | some cell => exact ⟨_, fun run rounds => callNamed_of_bound free bound⟩
  | none =>
      simp only [callNamed, bound]
      rcases List.mem_cons.mp callback with rfl | other
      · exact callback_fails (.inl rfl) supplied location machine
      · cases List.mem_singleton.mp other
        exact callback_fails (.inr rfl) supplied location machine

end Calls

section Rules

variable {run : Evaluator} {frame : Frame} {values : List Value} {rounds : Nat}

/-- What the evaluator does with the expression. -/
def Evaluator.ConcludesOn (run : Evaluator) (expression : Expression) : Prop :=
  ∀ frame, frame.LambdaFree → (run expression frame).Concludes Frame.LambdaFree

theorem evaluateElement_concludes {element : Expression} (concludes : run.ConcludesOn element)
    (free : frame.LambdaFree) :
    (evaluateElement run element frame).Concludes Frame.LambdaFree := by
  unfold evaluateElement
  split
  next location name =>
    split
    next cell bound => exact ⟨free name cell bound, free⟩
    next => exact free
  next =>
    apply (concludes frame free).mapValues
    intro values plain value member
    cases List.mem_singleton.mp member
    exact .tuple plain
  next => exact concludes frame free

theorem evaluateElements_concludes {elements : List Expression}
    (each : ∀ element ∈ elements, run.ConcludesOn element) (free : frame.LambdaFree) :
    (evaluateElements run elements frame).Concludes Frame.LambdaFree := by
  induction elements generalizing frame with
  | nil => exact ⟨by simp, free⟩
  | cons element others ih =>
      apply (evaluateElement_concludes (each element List.mem_cons_self) free).andThen
      intro values middle plain halfway
      have rest := ih (fun other member => each other (List.mem_cons_of_mem element member)) halfway
      exact rest.mapValues fun results more => .append plain more

theorem applyOperator_concludes {operator : Operator} {right : Expression}
    (concludes : run.ConcludesOn right) (plain : ∀ value ∈ values, value.LambdaFree)
    (free : frame.LambdaFree) :
    (applyOperator run rounds operator values right frame).Concludes Frame.LambdaFree := by
  unfold applyOperator
  split
  next location name =>
    apply Outcome.Concludes.mapState (keepsCells_callNamed free plain)
    intro machine heap label cell bound
    rw [Frame.contents, heap]
    exact free label cell bound
  next => exact concludes frame free
  next => exact ⟨plain, free.define _ plain⟩
  next =>
    split
    next cell _ => exact ⟨plain, free.write cell plain⟩
    next => exact free
  next => exact free

end Rules

/-- Everything but lambdas may be evaluated. -/
def Policy.withoutLambdas : Policy :=
  ⟨fun node => node.tag ≠ .lambda, fun _ _ => True, fun _ => True⟩

/-- As many nested evaluations as the expression is deep are enough. -/
theorem evaluate_concludesOn {expression : Expression} {steps : Nat}
    (runs : Policy.withoutLambdas.Runs expression) (enough : expression.depth ≤ steps) :
    Evaluator.ConcludesOn (evaluate steps) expression := by
  induction expression generalizing steps with
  | number | string | boolean =>
      obtain ⟨steps, rfl⟩ := Nat.exists_eq_add_of_le' enough
      intro frame free
      refine ⟨?_, free⟩
      intro value member closure holds
      cases List.mem_singleton.mp member
      cases holds
  | reference location name =>
      obtain ⟨steps, rfl⟩ := Nat.exists_eq_add_of_le' enough
      exact fun frame free => free
  | tuple location elements ih =>
      obtain ⟨steps, rfl⟩ :=
        Nat.exists_eq_add_of_le' (Nat.le_trans (Expression.depth_pos _) enough)
      have inner := Nat.le_of_succ_le_succ enough
      intro frame free
      refine evaluateElements_concludes (fun element member => ?_) free
      have shallower := Nat.le_trans (Expression.depth_le_depthOfEach member) inner
      exact ih element member (runs.element member) shallower
  | lambda location parameters body => exact absurd rfl runs.self
  | binary location operator left right leftIH rightIH =>
      obtain ⟨steps, rfl⟩ :=
        Nat.exists_eq_add_of_le' (Nat.le_trans (Expression.depth_pos _) enough)
      have inner := Nat.max_le.mp (Nat.le_of_succ_le_succ enough)
      intro frame free
      apply (leftIH runs.left inner.1 frame free).andThen
      intro values middle plain halfway
      exact applyOperator_concludes (rightIH runs.right inner.2) plain halfway

theorem pipeline_callback_fails {left : Expression} {name : String} {steps : Nat} {frame : Frame}
    (callback : name ∈ ["loop", "if"]) (runs : Policy.withoutLambdas.Runs left)
    (enough : left.depth ≤ steps) (free : frame.LambdaFree) (location place : Location) :
    ∃ fault after, evaluate (steps + 1)
      (.binary location .pipeline left (.reference place name)) frame = .failed fault after := by
  have concluded := evaluate_concludesOn runs enough frame free
  simp only [evaluate, evaluateWith]
  cases first : evaluate steps left frame with
  | returned values middle =>
      rw [first] at concluded
      obtain ⟨cause, fails⟩ :=
        callNamed_callback_fails callback concluded.2 concluded.1 place
      exact ⟨_, _, by simp only [Outcome.andThen, applyOperator, fails]; rfl⟩
  | failed fault after => exact ⟨fault, after, rfl⟩
  | outOfSteps =>
      rw [first] at concluded
      exact concluded.elim

/-- Evaluation without lambdas comes to an end with as many nested evaluations as the expression
is deep, whatever the values are. No lambda can be reached afterwards. The functions that call
back fail, whatever evaluates lambdas, and so does every pipeline into one of them. -/
theorem evaluate_lambdaFree_concludes {expression : Expression} {frame : Frame}
    (free : ∀ node ∈ expression.nodes, node.tag ≠ .lambda)
    (unreached : ∀ closure, ¬ frame.scope.ReachesClosure frame.machine.heap closure) :
    (∃ outcome : Outcome Fault Frame,
      (∀ steps, expression.depth ≤ steps → evaluate steps expression frame = outcome) ∧
      outcome.Concludes fun after =>
        ∀ closure, ¬ after.scope.ReachesClosure after.machine.heap closure) ∧
    (∀ name ∈ ["loop", "if"], ∀ location arguments, (∀ value ∈ arguments, value.LambdaFree) →
      ∃ cause, ∀ run rounds,
        callNamed run rounds name location arguments frame.scope frame.machine =
          frame.machine.fail location cause) ∧
    ∀ location left place, ∀ name ∈ ["loop", "if"],
      expression = .binary location .pipeline left (.reference place name) →
      ∃ fault after, ∀ steps, expression.depth ≤ steps →
        evaluate steps expression frame = .failed fault after := by
  have start : frame.LambdaFree := Frame.LambdaFree.iff_not_reachesClosure.mpr unreached
  have concluded := evaluate_concludesOn free (Nat.le_refl _) frame start
  have same (steps : Nat) (enough : expression.depth ≤ steps) :
      evaluate steps expression frame = evaluate expression.depth expression frame := by
    apply (evaluate_below enough expression frame).eq
    intro exhausted
    rw [exhausted] at concluded
    exact concluded
  refine ⟨⟨_, same, ?_⟩, ?_, ?_⟩
  · exact concluded.mono fun after => Frame.LambdaFree.iff_not_reachesClosure.mp
  · intro name callback location arguments supplied
    exact callNamed_callback_fails callback start supplied location
  · intro location left place name callback shape
    subst shape
    have runs : Policy.withoutLambdas.Runs _ := free
    obtain ⟨fault, after, fails⟩ := pipeline_callback_fails callback runs.left
      (Nat.le_max_left left.depth _) start location place
    exact ⟨fault, after, fun steps enough => (same steps enough).trans fails⟩

/-- The program `(x, ("a" -> y)) |> if`. -/
def choosingTuple : Expression :=
  .binary ⟨1, 17⟩ .pipeline
    (.tuple ⟨1, 1⟩ [.reference ⟨1, 2⟩ "x",
      .tuple ⟨1, 5⟩ [.binary ⟨1, 10⟩ .assign (.string ⟨1, 6⟩ "a") (.reference ⟨1, 13⟩ "y")]])
    (.reference ⟨1, 20⟩ "if")

/-- A state in which `x` is `true`. -/
def choosing : Frame :=
  Frame.define ⟨.empty, .fresh .unlimited⟩ "x" [.boolean true]

def chosen : Frame :=
  choosing.define "y" [.string "a"]

/-- The program is five nodes deep. It stores a value and then fails at the call, which would need
a lambda. -/
theorem evaluate_lambdaFree_concludes_choosing :
    (∀ node ∈ choosingTuple.nodes, node.tag ≠ .lambda) ∧
      (∀ closure, ¬ choosing.scope.ReachesClosure choosing.machine.heap closure) ∧
      choosingTuple.depth = 5 ∧
      (∀ steps, 5 ≤ steps → evaluate steps choosingTuple choosing =
        .failed (.runtime ⟨⟨1, 20⟩, .typeMismatch .lambda .tuple⟩) chosen) ∧
      ∀ closure, ¬ chosen.scope.ReachesClosure chosen.machine.heap closure := by
  have free : ∀ node ∈ choosingTuple.nodes, node.tag ≠ .lambda := by decide
  have unreached : ∀ closure, ¬ choosing.scope.ReachesClosure choosing.machine.heap closure := by
    have nothing : Frame.LambdaFree ⟨.empty, .fresh .unlimited⟩ := nofun
    apply Frame.LambdaFree.iff_not_reachesClosure.mp
    apply nothing.define "x"
    intro value member closure holds
    cases List.mem_singleton.mp member
    cases holds
  have last : evaluate 5 choosingTuple choosing =
      .failed (.runtime ⟨⟨1, 20⟩, .typeMismatch .lambda .tuple⟩) chosen := rfl
  obtain ⟨⟨outcome, same, concluded⟩, -⟩ := evaluate_lambdaFree_concludes free unreached
  have failed := (same 5 (Nat.le_refl 5)).symm.trans last
  subst failed
  exact ⟨free, unreached, rfl, same, concluded⟩

end PipeLang
