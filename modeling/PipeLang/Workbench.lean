import PipeLang.Session

namespace PipeLang

/-!
# The workbench

A workbench holds one machine and any number of scopes, which are numbered in the order in
which they were added. It gives access to the operations that sessions are made of, one by
one: on scopes and cells, on values, and on evaluation in any of the scopes.
-/

structure Workbench where
  scopes : Array Scope
  machine : Machine

/-- A value as it is handed to the workbench from outside. -/
inductive Operand where
  | number (value : Float)
  | string (text : String)
  | boolean (value : Bool)
  | tuple (elements : List Operand)
  /-- A new lambda over a copy of the scope with the given number. -/
  | lambda (parameters : List String) (scope : Nat) (body : Expression)
  /-- All values that a variable holds at the time. -/
  | variableValues (scope : Nat) (name : String)

namespace Workbench

/-- A workbench with one empty scope. -/
def start (sink : Sink) : Workbench :=
  ⟨#[.empty], .fresh sink⟩

def scope (bench : Workbench) (number : Nat) : Scope :=
  bench.scopes.getD number .empty

/-- Adds a scope and tells its number. -/
def addScope (bench : Workbench) (scope : Scope) : Nat × Workbench :=
  (bench.scopes.size, { bench with scopes := bench.scopes.push scope })

/-- Adds an empty scope. -/
def addEmpty (bench : Workbench) : Nat × Workbench :=
  bench.addScope .empty

/-- Adds a copy of a scope. Both bind the same names to the same cells at first. -/
def addChild (bench : Workbench) (number : Nat) : Nat × Workbench :=
  bench.addScope (bench.scope number)

/-- The cell that a name is bound to in a scope. -/
def cell? (bench : Workbench) (number : Nat) (name : String) : Option Cell :=
  (bench.scope number).get? name

/-- The values of a variable, if it is bound. -/
def get? (bench : Workbench) (number : Nat) (name : String) : Option (List Value) :=
  (bench.cell? number name).map bench.machine.heap.contents

def frame (bench : Workbench) (number : Nat) : Frame :=
  ⟨bench.scope number, bench.machine⟩

/-- Puts the scope and the machine of a frame back. -/
def update (bench : Workbench) (number : Nat) (frame : Frame) : Workbench :=
  ⟨bench.scopes.setIfInBounds number frame.scope, frame.machine⟩

/-- Binds a name in a scope to a new cell. -/
def define (bench : Workbench) (number : Nat) (name : String) (values : List Value) : Workbench :=
  bench.update number ((bench.frame number).define name values)

/-- Replaces the values of a variable, if it is bound. -/
def replace? (bench : Workbench) (number : Nat) (name : String) (values : List Value) :
    Option Workbench :=
  (bench.cell? number name).map fun cell =>
    bench.update number ((bench.frame number).write cell values)

/-- Whether two variables share one cell, if both are bound. -/
def sameCell? (bench : Workbench) (first second : Nat × String) : Option Bool := do
  let left ← bench.cell? first.1 first.2
  let right ← bench.cell? second.1 second.2
  return left = right

mutual

/-- The values that an operand stands for. Each lambda is made anew. -/
def resolve (bench : Workbench) : Operand → List Value × Workbench
  | .number value => ([.number value], bench)
  | .string text => ([.string text], bench)
  | .boolean value => ([.boolean value], bench)
  | .tuple elements =>
      let (values, bench) := bench.resolveAll elements
      ([.tuple values], bench)
  | .lambda parameters number body =>
      let (closure, frame) := (bench.frame number).close parameters body
      ([.lambda closure], { bench with machine := frame.machine })
  | .variableValues number name => ((bench.get? number name).getD [], bench)

/-- The values of several operands, one after the other. -/
def resolveAll (bench : Workbench) : List Operand → List Value × Workbench
  | [] => ([], bench)
  | operand :: others =>
      let (values, bench) := bench.resolve operand
      let (more, bench) := bench.resolveAll others
      (values ++ more, bench)

end

/-- Evaluates an expression in a scope. -/
def evaluate (bench : Workbench) (steps number : Nat) (expression : Expression) :
    Outcome Error Workbench :=
  ((PipeLang.evaluate steps expression (bench.frame number)).mapState (bench.update number)).mapFailure
    .ofFault

/-- Calls the function that a name stands for in a scope. -/
def call (bench : Workbench) (steps number : Nat) (name : String) (location : Location)
    (arguments : List Value) : Outcome Error Workbench :=
  ((callNamed (PipeLang.evaluate steps) steps name location arguments (bench.scope number)
    bench.machine).mapState fun machine => { bench with machine }).mapFailure .ofFault

/-- Calls a closure under a name of the caller's choice. -/
def callLambda (bench : Workbench) (steps : Nat) (name : String) (location : Location)
    (closure : Closure) (arguments : List Value) : Outcome Error Workbench :=
  ((callClosure (PipeLang.evaluate steps) name location closure arguments bench.machine).mapState
    fun machine => { bench with machine }).mapFailure .ofFault

/-- The values of a variable in the scope that a closure keeps, if it is bound there. -/
def captured? (bench : Workbench) (closure : Closure) (name : String) : Option (List Value) :=
  (closure.scope.get? name).map bench.machine.heap.contents

end Workbench

end PipeLang
