import PipeLang.Evaluation.Builtin

namespace PipeLang

/-!
# Evaluation

Evaluating an expression yields a list of values. A tuple yields the values of all its
elements one after the other, except that a tuple inside a tuple stays one value; a
pipeline hands the values on its left to the function on its right as arguments.

Each rule takes the evaluator that it uses for the parts of an expression and the bodies of
lambdas. `evaluate` ties the rules together and counts how deep they nest.
-/

/-- Evaluates an expression in a scope, which it may extend. -/
abbrev Evaluator := Expression → Frame → Outcome Fault Frame

namespace Frame

def fail (frame : Frame) (location : Location) (cause : RuntimeCause) : Outcome Fault Frame :=
  .failed (.runtime ⟨location, cause⟩) frame

/-- Binds a name to a new cell that holds the values. -/
def define (frame : Frame) (name : String) (values : List Value) : Frame :=
  let (scope, heap) := frame.machine.heap.define frame.scope name values
  ⟨scope, { frame.machine with heap }⟩

/-- Replaces the contents of a cell. -/
def write (frame : Frame) (cell : Cell) (values : List Value) : Frame :=
  { frame with machine := { frame.machine with heap := frame.machine.heap.write cell values } }

def contents (frame : Frame) (cell : Cell) : List Value :=
  frame.machine.heap.contents cell

/-- A new closure over the bindings of this scope. -/
def close (frame : Frame) (parameters : List String) (body : Expression) : Closure × Frame :=
  let (closure, heap) := frame.machine.heap.close parameters frame.scope body
  (closure, { frame with machine := { frame.machine with heap } })

/-- Binds each parameter to a new cell that holds its argument, in order. -/
def defineEach (frame : Frame) : List String → List Value → Frame
  | parameter :: parameters, argument :: arguments =>
      (frame.define parameter [argument]).defineEach parameters arguments
  | _, _ => frame

end Frame

namespace Machine

def fail (machine : Machine) (location : Location) (cause : RuntimeCause) : Outcome Fault Machine :=
  .failed (.runtime ⟨location, cause⟩) machine

/-- A result that was computed without touching the machine. -/
def answer (machine : Machine) (location : Location) (result : Except RuntimeCause (List Value)) :
    Outcome Fault Machine :=
  match result with
  | .ok values => .returned values machine
  | .error cause => machine.fail location cause

/-- Writes one line of output. -/
def print : Machine → String → Outcome Fault Machine
  | ⟨heap, sink⟩, line =>
      match sink.writeLine line with
      | (none, sink) => .returned [] ⟨heap, sink⟩
      | (some failure, sink) => .failed (.output failure) ⟨heap, sink⟩

end Machine

/-- Calls a lambda: its body is evaluated in a copy of the scope that the lambda kept, with
each parameter bound to a new cell. The scope of the caller plays no part. -/
def callClosure (run : Evaluator) (name : String) (location : Location) (closure : Closure)
    (arguments : List Value) (machine : Machine) : Outcome Fault Machine :=
  if closure.parameters.length = arguments.length then
    let frame := Frame.defineEach ⟨closure.scope, machine⟩ closure.parameters arguments
    (run closure.body frame).mapState Frame.machine
  else
    machine.fail location (.arityMismatch name closure.parameters.length arguments.length)

/-- The answer of a condition, which has to be exactly one truth value. -/
def conditionAnswer : List Value → Except RuntimeCause Bool
  | [value] => value.asBoolean
  | values => .error (.expectedSingleValue "loop condition" values.length)

/-- Calls the body as long as the condition answers `true`. The result is that of the last
call of the body, or what `latest` holds if there is none. -/
def iterate (location : Location) (condition body : Machine → Outcome Fault Machine) :
    Nat → List Value → Machine → Outcome Fault Machine
  | 0, _, _ => .outOfSteps
  | rounds + 1, latest, machine =>
      (condition machine).andThen fun answer machine =>
        match conditionAnswer answer with
        | .error cause => machine.fail location cause
        | .ok false => .returned latest machine
        | .ok true =>
            (body machine).andThen fun result machine =>
              iterate location condition body rounds result machine

/-- Calls a builtin function. A loop makes at most `rounds` rounds. -/
def applyBuiltin (run : Evaluator) (rounds : Nat) (builtin : Builtin) (location : Location)
    (arguments : List Value) (machine : Machine) : Outcome Fault Machine :=
  match builtin with
  | .identity => .returned arguments machine
  | .toText => .returned (arguments.map fun value => .string value.render) machine
  | .print => machine.print (Value.renderLine arguments)
  | .arithmetic operation => machine.answer location (operation.apply arguments)
  | .comparison relation => machine.answer location (relation.apply arguments)
  | .repeatWhile =>
      match arguments with
      | [condition, body] =>
          match condition.asLambda, body.asLambda with
          | .ok condition, .ok body =>
              iterate location (callClosure run "condition" location condition [])
                (callClosure run "body" location body []) rounds [] machine
          | .error cause, _ => machine.fail location cause
          | .ok _, .error cause => machine.fail location cause
      | _ => machine.fail location (.arityMismatch builtin.name 2 arguments.length)
  | .runWhen =>
      match arguments with
      | [flag, body] =>
          match flag.asBoolean, body.asLambda with
          | .ok true, .ok body =>
              (callClosure run "body" location body [] machine).mapValues fun _ => []
          | .ok false, .ok _ => .returned [] machine
          | .error cause, _ => machine.fail location cause
          | .ok _, .error cause => machine.fail location cause
      | _ => machine.fail location (.arityMismatch builtin.name 2 arguments.length)

/-- Calls the function with the given name: a lambda that the scope binds, or else a builtin
function. A bound name hides a builtin function even if it cannot be called. -/
def callNamed (run : Evaluator) (rounds : Nat) (name : String) (location : Location)
    (arguments : List Value) (scope : Scope) (machine : Machine) : Outcome Fault Machine :=
  match scope.get? name with
  | some cell =>
      match machine.heap.contents cell with
      | [.lambda closure] => callClosure run name location closure arguments machine
      | _ => machine.fail location (.notCallable name)
  | none =>
      match Builtin.named? name with
      | some builtin => applyBuiltin run rounds builtin location arguments machine
      | none => machine.fail location (.unknownFunction name)

/-- Evaluates one element of a tuple. Only here a variable stands for its values. -/
def evaluateElement (run : Evaluator) (element : Expression) (frame : Frame) :
    Outcome Fault Frame :=
  match element with
  | .reference location name =>
      match frame.scope.get? name with
      | some cell => .returned (frame.contents cell) frame
      | none => frame.fail location (.unknownVariable name)
  | .tuple .. => (run element frame).mapValues fun values => [.tuple values]
  | _ => run element frame

/-- Evaluates the elements of a tuple from left to right. -/
def evaluateElements (run : Evaluator) : List Expression → Frame → Outcome Fault Frame
  | [], frame => .returned [] frame
  | element :: others, frame =>
      (evaluateElement run element frame).andThen fun values frame =>
        (evaluateElements run others frame).mapValues (values ++ ·)

/-- Applies an operator to the values of its left operand. -/
def applyOperator (run : Evaluator) (rounds : Nat) (operator : Operator) (values : List Value)
    (right : Expression) (frame : Frame) : Outcome Fault Frame :=
  match operator, right with
  | .pipeline, .reference location name =>
      (callNamed run rounds name location values frame.scope frame.machine).mapState
        fun machine => { frame with machine }
  | .pipeline, _ => run right frame
  | .assign, .reference _ name => .returned values (frame.define name values)
  | .mutate, .reference location name =>
      match frame.scope.get? name with
      | some cell => .returned values (frame.write cell values)
      | none => frame.fail location (.unknownVariable name)
  | _, _ => frame.fail right.location (.notAVariable right.tag)

/-- One step of evaluation: the rule for each shape of expression. -/
def evaluateWith (run : Evaluator) (rounds : Nat) (expression : Expression) (frame : Frame) :
    Outcome Fault Frame :=
  match expression with
  | .number _ value => .returned [.number value] frame
  | .string _ text => .returned [.string text] frame
  | .boolean _ value => .returned [.boolean value] frame
  | .reference location name => frame.fail location (.bareVariable name)
  | .tuple _ elements => evaluateElements run elements frame
  | .lambda _ parameters body =>
      let (closure, frame) := frame.close parameters body
      .returned [.lambda closure] frame
  | .binary _ operator left right =>
      (run left frame).andThen fun values frame =>
        applyOperator run rounds operator values right frame

/-- Evaluates an expression, with at most `steps` evaluations inside one another and at most
as many rounds of each loop. -/
def evaluate : Nat → Expression → Frame → Outcome Fault Frame
  | 0, _, _ => .outOfSteps
  | steps + 1, expression, frame => evaluateWith (evaluate steps) steps expression frame

end PipeLang
