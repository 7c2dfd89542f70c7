import PipeLang.Proofs.Answers
import PipeLang.Proofs.Jobs
import PipeLang.Proofs.Relocation

namespace PipeLang

/-! # Moving a run

Evaluation passes locations on without looking at them. If all locations in a program and in the
state it starts from are moved, then the run is the same except that the locations in its error
and in the lambdas it leaves behind are moved as well.
-/

def Closure.relocate (move : Location → Location) (closure : Closure) : Closure :=
  { closure with body := closure.body.relocate move }

def Closure.MovesTo (move : Location → Location) (closure moved : Closure) : Prop :=
  moved = closure.relocate move

namespace Value

mutual

/-- Moves the locations in the bodies of all lambdas of a value. -/
def relocate (move : Location → Location) : Value → Value
  | .number value => .number value
  | .string text => .string text
  | .boolean value => .boolean value
  | .tuple elements => .tuple (relocateEach move elements)
  | .lambda closure => .lambda (closure.relocate move)

def relocateEach (move : Location → Location) : List Value → List Value
  | [] => []
  | value :: others => relocate move value :: relocateEach move others

end

variable {move : Location → Location}

theorem relocateEach_eq_map (values : List Value) :
    relocateEach move values = values.map (relocate move) := by
  induction values with
  | nil => rfl
  | cons value others ih => rw [relocateEach, ih, List.map_cons]

end Value

theorem Value.relocate_cancel {move back : Location → Location}
    (undone : ∀ location, back (move location) = location) (value : Value) :
    (value.relocate move).relocate back = value := by
  induction value with
  | tuple elements ih =>
      simp only [relocate, relocateEach_eq_map, List.map_map]
      exact congrArg tuple ((List.map_congr_left ih).trans (List.map_id _))
  | lambda closure =>
      simp only [relocate, Closure.relocate, Expression.relocate_cancel undone]
  | _ => rfl

namespace Alike

variable {move : Location → Location} {value : Value} {values others : List Value}

theorem cons_relocate (rest : Alike (Closure.MovesTo move) values others) :
    Alike (Closure.MovesTo move) (value :: values) (value.relocate move :: others) := by
  induction value generalizing values others with
  | number value => exact .number value rest
  | string text => exact .string text rest
  | boolean value => exact .boolean value rest
  | tuple elements ih =>
      rw [Value.relocate, Value.relocateEach_eq_map]
      exact .tuple (map _ fun part member => ih part member) rest
  | lambda closure => exact .lambda rfl rest

theorem relocate (move : Location → Location) (values : List Value) :
    Alike (Closure.MovesTo move) values (values.map (Value.relocate move)) :=
  map _ fun _ _ => cons_relocate

theorem eq_relocate (alike : Alike (Closure.MovesTo move) values others) :
    others = values.map (Value.relocate move) := by
  induction alike with
  | nil => rfl
  | number _ _ ih | string _ _ ih | boolean _ _ ih => rw [ih, List.map_cons, Value.relocate]
  | tuple _ _ insideIH ih =>
      rw [ih, insideIH, List.map_cons, Value.relocate, Value.relocateEach_eq_map]
  | lambda moves _ ih =>
      cases moves
      rw [ih, List.map_cons, Value.relocate]

end Alike

/-- Only values are moved: the identities of cells and closures have no locations in them. -/
def Heap.relocate (move : Location → Location) (heap : Heap) : Heap :=
  { heap with cells := heap.cells.map (List.map (Value.relocate move)) }

def Machine.relocate (move : Location → Location) (machine : Machine) : Machine :=
  { machine with heap := machine.heap.relocate move }

def Frame.relocate (move : Location → Location) (frame : Frame) : Frame :=
  { frame with machine := frame.machine.relocate move }

def Fault.relocate (move : Location → Location) : Fault → Fault
  | .runtime error => .runtime (error.relocate move)
  | .output failure => .output failure

section States

variable (move : Location → Location)

@[simp] theorem Heap.contents_relocate (heap : Heap) (cell : Cell) :
    (heap.relocate move).contents cell = (heap.contents cell).map (Value.relocate move) := by
  cases found : heap.cells[cell.index]? <;> simp [contents, contents?, relocate, found]

theorem Frame.define_relocate (frame : Frame) (name : String) (values : List Value) :
    (frame.relocate move).define name (values.map (Value.relocate move)) =
      (frame.define name values).relocate move := by
  simp [define, Heap.define, relocate, Machine.relocate, Heap.relocate, Heap.next, Heap.allocate]

theorem Frame.defineEach_relocate (frame : Frame) (parameters : List String)
    (arguments : List Value) :
    (frame.relocate move).defineEach parameters (arguments.map (Value.relocate move)) =
      (frame.defineEach parameters arguments).relocate move := by
  induction parameters generalizing frame arguments with
  | nil => rfl
  | cons parameter parameters ih =>
      cases arguments with
      | nil => rfl
      | cons argument arguments =>
          rw [List.map_cons, defineEach, defineEach, ← ih, ← define_relocate move]
          rfl

theorem Frame.write_relocate (frame : Frame) (cell : Cell) (values : List Value) :
    (frame.relocate move).write cell (values.map (Value.relocate move)) =
      (frame.write cell values).relocate move := by
  simp [write, relocate, Machine.relocate, Heap.relocate, Heap.write]

theorem Frame.relocate_cancel {move back : Location → Location}
    (undone : ∀ location, back (move location) = location) (frame : Frame) :
    (frame.relocate move).relocate back = frame := by
  have each (values : List Value) :
      (values.map (Value.relocate move)).map (Value.relocate back) = values := by
    rw [List.map_map]
    exact (List.map_congr_left fun value _ => Value.relocate_cancel undone value).trans
      (List.map_id values)
  obtain ⟨scope, ⟨⟨cells, closures⟩, sink⟩⟩ := frame
  simp [relocate, Machine.relocate, Heap.relocate, Function.comp_def, each]

end States

namespace Outcome

variable {Failure State Other : Type} {move : Location → Location} {failures : Failure → Failure}
  {states : State → State} {others : Other → Other}

/-- Moves the locations of an outcome, given how failures and states are moved. -/
def relocateWith (move : Location → Location) (failures : Failure → Failure)
    (states : State → State) : Outcome Failure State → Outcome Failure State
  | .returned values after => .returned (values.map (Value.relocate move)) (states after)
  | .failed failure after => .failed (failures failure) (states after)
  | .outOfSteps => .outOfSteps

theorem andThen_relocateWith (first : Outcome Failure State)
    {next later : List Value → State → Outcome Failure State}
    (continues : ∀ values after, later (values.map (Value.relocate move)) (states after) =
      (next values after).relocateWith move failures states) :
    (first.relocateWith move failures states).andThen later =
      (first.andThen next).relocateWith move failures states := by
  cases first with
  | returned values after => exact continues values after
  | failed failure after => rfl
  | outOfSteps => rfl

theorem mapValues_relocateWith (outcome : Outcome Failure State)
    {change changed : List Value → List Value}
    (commutes : ∀ values, changed (values.map (Value.relocate move)) =
      (change values).map (Value.relocate move)) :
    (outcome.relocateWith move failures states).mapValues changed =
      (outcome.mapValues change).relocateWith move failures states :=
  andThen_relocateWith outcome fun values after => congrArg (returned · (states after)) (commutes values)

theorem mapState_relocateWith (outcome : Outcome Failure State) {change changed : State → Other}
    (commutes : ∀ after, changed (states after) = others (change after)) :
    (outcome.relocateWith move failures states).mapState changed =
      (outcome.mapState change).relocateWith move failures others := by
  cases outcome with
  | returned values after => exact congrArg (returned _) (commutes after)
  | failed failure after => exact congrArg (failed _) (commutes after)
  | outOfSteps => rfl

def relocateFrame (move : Location → Location) : Outcome Fault Frame → Outcome Fault Frame :=
  relocateWith move (Fault.relocate move) (Frame.relocate move)

def relocateMachine (move : Location → Location) : Outcome Fault Machine → Outcome Fault Machine :=
  relocateWith move (Fault.relocate move) (Machine.relocate move)

end Outcome

/-- Moving what the evaluator starts from moves its outcome and changes nothing else. -/
def Evaluator.Follows (move : Location → Location) (run : Evaluator) : Prop :=
  ∀ expression frame, run (expression.relocate move) (frame.relocate move) =
    (run expression frame).relocateFrame move

namespace Evaluator.Follows

variable {run : Evaluator} {move : Location → Location} {rounds : Nat} {name : String}
  {location : Location} {arguments values : List Value} {machine : Machine} {frame : Frame}

theorem callClosure {closure : Closure} (follows : run.Follows move) (arguments : List Value) :
    callClosure run name (move location) (closure.relocate move)
        (arguments.map (Value.relocate move)) (machine.relocate move) =
      (callClosure run name location closure arguments machine).relocateMachine move := by
  have entered := Frame.defineEach_relocate move ⟨closure.scope, machine⟩ closure.parameters arguments
  simp only [PipeLang.callClosure, Closure.relocate, List.length_map]
  split
  · have moved := follows closure.body
      (Frame.defineEach ⟨closure.scope, machine⟩ closure.parameters arguments)
    rw [← entered] at moved
    have machines (after : Frame) : (after.relocate move).machine = after.machine.relocate move := rfl
    exact (congrArg _ moved).trans (Outcome.mapState_relocateWith _ machines)
  · rfl

theorem iterate {condition body testing repeating : Machine → Outcome Fault Machine}
    (tests : ∀ machine, testing (machine.relocate move) = (condition machine).relocateMachine move)
    (repeats : ∀ machine, repeating (machine.relocate move) = (body machine).relocateMachine move)
    (values : List Value) :
    iterate (move location) testing repeating rounds (values.map (Value.relocate move))
        (machine.relocate move) =
      (iterate location condition body rounds values machine).relocateMachine move := by
  induction rounds generalizing values machine with
  | zero => rfl
  | succ rounds ih =>
      rw [PipeLang.iterate, PipeLang.iterate, tests]
      refine Outcome.andThen_relocateWith _ fun answer tested => ?_
      rw [← (Alike.relocate move answer).conditionAnswer_eq]
      match conditionAnswer answer with
      | .error cause => rfl
      | .ok false => rfl
      | .ok true =>
          dsimp only
          rw [repeats]
          exact Outcome.andThen_relocateWith _ fun result repeated => ih result

theorem print (line : String) :
    (machine.relocate move).print line = (machine.print line).relocateMachine move := by
  simp only [Machine.print, Machine.relocate]
  split <;> rfl

theorem perform {job moved : Job} (follows : run.Follows move)
    (alike : job.Alike (Closure.MovesTo move) moved) :
    moved.perform run rounds (move location) (machine.relocate move) =
      (job.perform run rounds location machine).relocateMachine move := by
  -- A callback gets no arguments.
  have calls (name : String) (closure : Closure) (machine : Machine) :
      PipeLang.callClosure run name (move location) (closure.relocate move) []
          (machine.relocate move) =
        (PipeLang.callClosure run name location closure [] machine).relocateMachine move :=
    follows.callClosure []
  cases alike with
  | answer alike =>
      rw [alike.eq_relocate]
      rfl
  | reject cause => rfl
  | print line => exact print line
  | @repeatWhile condition body _ _ tests repeats =>
      cases tests
      cases repeats
      exact iterate (calls "condition" condition) (calls "body" body) []
  | runOnce called =>
      cases called
      rw [Job.perform, calls]
      exact Outcome.mapValues_relocateWith _ fun _ => rfl

theorem callNamed {scope : Scope} (follows : run.Follows move) :
    callNamed run rounds name (move location) (arguments.map (Value.relocate move)) scope
        (machine.relocate move) =
      (callNamed run rounds name location arguments scope machine).relocateMachine move := by
  unfold PipeLang.callNamed
  match scope.get? name with
  | some cell =>
      have held : (machine.relocate move).heap.contents cell =
          (machine.heap.contents cell).map (Value.relocate move) :=
        Heap.contents_relocate move machine.heap cell
      dsimp only
      rw [held]
      match machine.heap.contents cell with
      | [.lambda closure] => exact follows.callClosure arguments
      | [] | [.number _] | [.string _] | [.boolean _] | [.tuple _] => rfl
      | first :: second :: others => cases first <;> rfl
  | none =>
      match Builtin.named? name with
      | some builtin =>
          simp only [applyBuiltin_eq_perform]
          have jobs := builtin.job_alike (.relocate move arguments) fun _ _ moves => moves ▸ rfl
          exact follows.perform jobs
      | none => rfl

theorem evaluateElement {element : Expression} (follows : run.Follows move) :
    evaluateElement run (element.relocate move) (frame.relocate move) =
      (evaluateElement run element frame).relocateFrame move := by
  cases element with
  | reference location name =>
      simp only [Expression.relocate, PipeLang.evaluateElement, Frame.relocate, Frame.contents]
      cases frame.scope.get? name with
      | some cell =>
          exact congrArg (Outcome.returned · (frame.relocate move))
            (Heap.contents_relocate move frame.machine.heap cell)
      | none => rfl
  | tuple location elements =>
      have moved := follows (.tuple location elements) frame
      simp only [Expression.relocate, PipeLang.evaluateElement] at moved ⊢
      rw [moved]
      refine Outcome.mapValues_relocateWith _ fun values => ?_
      simp [Value.relocate, Value.relocateEach_eq_map]
  | number | string | boolean | lambda | binary => exact follows _ frame

theorem evaluateElements {elements : List Expression} (follows : run.Follows move) :
    evaluateElements run (elements.map (Expression.relocate move)) (frame.relocate move) =
      (evaluateElements run elements frame).relocateFrame move := by
  induction elements generalizing frame with
  | nil => rfl
  | cons element others ih =>
      rw [List.map_cons, PipeLang.evaluateElements, PipeLang.evaluateElements,
        follows.evaluateElement]
      refine Outcome.andThen_relocateWith _ fun values middle => ?_
      rw [ih]
      exact Outcome.mapValues_relocateWith _ fun rest => (List.map_append ..).symm

theorem applyOperator {operator : Operator} {right : Expression} (follows : run.Follows move) :
    applyOperator run rounds operator (values.map (Value.relocate move)) (right.relocate move)
        (frame.relocate move) =
      (applyOperator run rounds operator values right frame).relocateFrame move := by
  cases right with
  | reference location name =>
      simp only [Expression.relocate]
      cases operator with
      | pipeline =>
          simp only [PipeLang.applyOperator]
          exact (congrArg _ follows.callNamed).trans (Outcome.mapState_relocateWith _ fun _ => rfl)
      | assign =>
          exact congrArg (Outcome.returned _) (Frame.define_relocate move frame name values)
      | mutate =>
          simp only [PipeLang.applyOperator, Frame.relocate]
          cases frame.scope.get? name with
          | some cell => exact congrArg (Outcome.returned _) (Frame.write_relocate move frame cell values)
          | none => rfl
  | number | string | boolean | tuple | lambda | binary =>
      cases operator with
      | pipeline => exact follows _ frame
      | assign | mutate => rfl

theorem evaluateWith (follows : run.Follows move) :
    Evaluator.Follows move (evaluateWith run rounds) := by
  intro expression frame
  cases expression with
  | number | string | boolean | reference | lambda => rfl
  | tuple location elements =>
      simp only [Expression.relocate, PipeLang.evaluateWith, Expression.relocateEach_eq_map]
      exact follows.evaluateElements
  | binary location operator left right =>
      simp only [Expression.relocate, PipeLang.evaluateWith]
      rw [follows]
      exact Outcome.andThen_relocateWith _ fun values middle => follows.applyOperator

end Evaluator.Follows

theorem evaluate_relocate (move : Location → Location) (steps : Nat) :
    Evaluator.Follows move (evaluate steps) :=
  evaluate_induction (fun _ _ => rfl) (fun _ _ => Evaluator.Follows.evaluateWith) steps

end PipeLang
