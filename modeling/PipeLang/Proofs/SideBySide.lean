import PipeLang.Proofs.Answers
import PipeLang.Proofs.Confinement
import PipeLang.Proofs.Jobs

namespace PipeLang

/-! # Two runs side by side

A correspondence says which cells, scopes, lambdas and heaps of one run stand for which of
another, and that the operations on heaps and scopes respect this. Then the two runs stay
together: they end in the same way, with values that are alike, the same error and the same output.
-/

namespace Expression

/-- All names that are looked up in the expression or in a lambda in it are among these. -/
def LooksUp (names : String → Prop) (expression : Expression) : Prop :=
  ∀ location name, .reference location name ∈ expression.nodes → names name

variable {names : String → Prop} {location : Location}

theorem LooksUp.name {name : String} (looks : LooksUp names (.reference location name)) :
    names name :=
  looks location name (self_mem_nodesWith true _)

theorem LooksUp.element {element : Expression} {elements : List Expression}
    (looks : LooksUp names (.tuple location elements)) (member : element ∈ elements) :
    LooksUp names element :=
  fun place name inside => looks place name (mem_nodesWith_tuple.mpr (.inr ⟨element, member, inside⟩))

theorem LooksUp.body {parameters : List String} {body : Expression}
    (looks : LooksUp names (.lambda location parameters body)) : LooksUp names body :=
  fun place name inside => looks place name (mem_nodes_lambda.mpr (.inr inside))

theorem LooksUp.left {operator : Operator} {left right : Expression}
    (looks : LooksUp names (.binary location operator left right)) : LooksUp names left :=
  fun place name inside => looks place name (mem_nodesWith_binary.mpr (.inr (.inl inside)))

theorem LooksUp.right {operator : Operator} {left right : Expression}
    (looks : LooksUp names (.binary location operator left right)) : LooksUp names right :=
  fun place name inside => looks place name (mem_nodesWith_binary.mpr (.inr (.inr inside)))

end Expression

/-- What stands for what in two runs. Two scopes need to correspond only as far as names are
looked up in them. -/
structure Correspondence where
  Cells : Cell → Cell → Prop
  Scopes : (String → Prop) → Scope → Scope → Prop
  Closures : Closure → Closure → Prop
  Heaps : Heap → Heap → Prop
  lookup : ∀ {names scope other name}, Scopes names scope other → names name →
    (scope.get? name = none ∧ other.get? name = none) ∨
      ∃ cell place, scope.get? name = some cell ∧ other.get? name = some place ∧ Cells cell place
  enter : ∀ {closure other}, Closures closure other →
    closure.parameters = other.parameters ∧ closure.body = other.body ∧
      ∃ names, closure.body.LooksUp names ∧ Scopes names closure.scope other.scope
  contents : ∀ {heap store cell place}, Heaps heap store → Cells cell place →
    Alike Closures (heap.contents cell) (store.contents place)
  define : ∀ {names scope other heap store values results} (name : String),
    Scopes names scope other → Heaps heap store → Alike Closures values results →
    Scopes names (heap.define scope name values).1 (store.define other name results).1 ∧
      Heaps (heap.define scope name values).2 (store.define other name results).2
  write : ∀ {heap store cell place values results}, Heaps heap store → Cells cell place →
    Alike Closures values results → Heaps (heap.write cell values) (store.write place results)
  close : ∀ {names scope other heap store body} (parameters : List String),
    Scopes names scope other → Heaps heap store → body.LooksUp names →
    Closures (heap.close parameters scope body).1 (store.close parameters other body).1 ∧
      Heaps (heap.close parameters scope body).2 (store.close parameters other body).2

namespace Outcome

variable {Failure State Other Before Later : Type}
  {returns : List Value → State → List Value → Other → Prop} {fails : State → Other → Prop}
  {outcome : Outcome Failure State} {twin : Outcome Failure Other}

/-- Both evaluations return, both fail with the same failure, or both run out of steps. -/
inductive Parallel (returns : List Value → State → List Value → Other → Prop)
    (fails : State → Other → Prop) : Outcome Failure State → Outcome Failure Other → Prop
  | returned {values others : List Value} {after : State} {later : Other}
      (left : returns values after others later) :
      Parallel returns fails (.returned values after) (.returned others later)
  | failed {failure : Failure} {after : State} {later : Other} (left : fails after later) :
      Parallel returns fails (.failed failure after) (.failed failure later)
  | outOfSteps : Parallel returns fails .outOfSteps .outOfSteps

theorem Parallel.andThen {results : List Value → State → List Value → Other → Prop}
    {next : List Value → State → Outcome Failure State}
    {go : List Value → Other → Outcome Failure Other}
    (parallel : Parallel returns fails outcome twin)
    (continues : ∀ values after others later, returns values after others later →
      Parallel results fails (next values after) (go others later)) :
    Parallel results fails (outcome.andThen next) (twin.andThen go) := by
  cases parallel with
  | returned left => exact continues _ _ _ _ left
  | failed left => exact .failed left
  | outOfSteps => exact .outOfSteps

theorem Parallel.mono {results : List Value → State → List Value → Other → Prop}
    {faults : State → Other → Prop} (parallel : Parallel returns fails outcome twin)
    (returned : ∀ values after others later, returns values after others later →
      results values after others later)
    (failed : ∀ after later, fails after later → faults after later) :
    Parallel results faults outcome twin := by
  cases parallel with
  | returned left => exact .returned (returned _ _ _ _ left)
  | failed left => exact .failed (failed _ _ left)
  | outOfSteps => exact .outOfSteps

theorem Parallel.mapState {results : List Value → Before → List Value → Later → Prop}
    {faults : Before → Later → Prop} {change : State → Before} {shift : Other → Later}
    (parallel : Parallel returns fails outcome twin)
    (returned : ∀ values after others later, returns values after others later →
      results values (change after) others (shift later))
    (failed : ∀ after later, fails after later → faults (change after) (shift later)) :
    Parallel results faults (outcome.mapState change) (twin.mapState shift) := by
  cases parallel with
  | returned left => exact .returned (returned _ _ _ _ left)
  | failed left => exact .failed (failed _ _ left)
  | outOfSteps => exact .outOfSteps

end Outcome

namespace Correspondence

variable {bond : Correspondence} {names : String → Prop} {frame twin : Frame}
  {machine other : Machine} {values others : List Value}

structure Machines (bond : Correspondence) (machine other : Machine) : Prop where
  heap : bond.Heaps machine.heap other.heap
  sink : machine.sink = other.sink

structure Frames (bond : Correspondence) (names : String → Prop) (frame twin : Frame) : Prop where
  scope : bond.Scopes names frame.scope twin.scope
  machine : bond.Machines frame.machine twin.machine

/-- The evaluations end in the same way, with corresponding values and states. -/
def Together {State : Type} (bond : Correspondence) (states : State → State → Prop) :
    Outcome Fault State → Outcome Fault State → Prop :=
  Outcome.Parallel
    (fun values after others later => Alike bond.Closures values others ∧ states after later) states

theorem Frames.define (frames : bond.Frames names frame twin) (name : String)
    (alike : Alike bond.Closures values others) :
    bond.Frames names (frame.define name values) (twin.define name others) := by
  obtain ⟨scopes, heaps⟩ := bond.define name frames.scope frames.machine.heap alike
  exact ⟨scopes, heaps, frames.machine.sink⟩

theorem Frames.defineEach (frames : bond.Frames names frame twin) (parameters : List String)
    (alike : Alike bond.Closures values others) :
    bond.Frames names (frame.defineEach parameters values) (twin.defineEach parameters others) := by
  induction parameters generalizing frame twin values others with
  | nil => exact frames
  | cons parameter parameters ih =>
      cases values with
      | nil =>
          cases alike
          exact frames
      | cons value values =>
          obtain ⟨other, rest, rfl, first, later⟩ := alike.uncons
          exact ih (frames.define parameter first) later

theorem Frames.write {cell place : Cell} (frames : bond.Frames names frame twin)
    (cells : bond.Cells cell place) (alike : Alike bond.Closures values others) :
    bond.Frames names (frame.write cell values) (twin.write place others) :=
  ⟨frames.scope, bond.write frames.machine.heap cells alike, frames.machine.sink⟩

theorem Machines.print (machines : bond.Machines machine other) (line : String) :
    bond.Together bond.Machines (machine.print line) (other.print line) := by
  obtain ⟨heap, sink⟩ := machine
  obtain ⟨store, output⟩ := other
  obtain ⟨heaps, rfl⟩ := machines
  simp only [Machine.print]
  rcases sink.writeLine line with ⟨_ | failure, after⟩
  · exact .returned ⟨.nil, heaps, rfl⟩
  · exact .failed ⟨heaps, rfl⟩

end Correspondence

/-- Whatever corresponds at the start of an evaluation corresponds at its end. -/
def Evaluator.Respects (bond : Correspondence) (run : Evaluator) : Prop :=
  ∀ ⦃names expression frame twin⦄, expression.LooksUp names → bond.Frames names frame twin →
    bond.Together (bond.Frames names) (run expression frame) (run expression twin)

namespace Evaluator.Respects

variable {bond : Correspondence} {run : Evaluator} {rounds : Nat} {location : Location}
  {names : String → Prop} {frame twin : Frame} {machine other : Machine}
  {arguments parameters values others : List Value}

theorem callClosure {closure peer : Closure} (respects : run.Respects bond) (name : String)
    (location : Location) (closures : bond.Closures closure peer)
    (alike : Alike bond.Closures arguments parameters) (machines : bond.Machines machine other) :
    bond.Together bond.Machines (callClosure run name location closure arguments machine)
      (callClosure run name location peer parameters other) := by
  obtain ⟨sameParameters, sameBody, names, looks, scopes⟩ := bond.enter closures
  simp only [PipeLang.callClosure, ← sameParameters, ← sameBody, ← alike.length_eq]
  split
  · have entered : bond.Frames names ⟨closure.scope, machine⟩ ⟨peer.scope, other⟩ :=
      ⟨scopes, machines⟩
    exact (respects looks (entered.defineEach closure.parameters alike)).mapState
      (fun _ _ _ _ ended => ⟨ended.1, ended.2.machine⟩) fun _ _ ended => ended.machine
  · exact .failed machines

theorem iterate {condition body testing repeating : Machine → Outcome Fault Machine}
    (tests : ∀ {machine other}, bond.Machines machine other →
      bond.Together bond.Machines (condition machine) (testing other))
    (repeats : ∀ {machine other}, bond.Machines machine other →
      bond.Together bond.Machines (body machine) (repeating other))
    (machines : bond.Machines machine other) (alike : Alike bond.Closures values others) :
    bond.Together bond.Machines (iterate location condition body rounds values machine)
      (iterate location testing repeating rounds others other) := by
  induction rounds generalizing values others machine other with
  | zero => exact .outOfSteps
  | succ rounds ih =>
      refine (tests machines).andThen fun answer tested reply retested ⟨answers, machines⟩ => ?_
      rw [answers.conditionAnswer_eq]
      match conditionAnswer reply with
      | .error cause => exact .failed machines
      | .ok false => exact .returned ⟨alike, machines⟩
      | .ok true =>
          exact (repeats machines).andThen fun result repeated outcome rerepeated
            ⟨results, machines⟩ => ih machines results

theorem perform {job twin : Job} (respects : run.Respects bond)
    (alike : job.Alike bond.Closures twin) (machines : bond.Machines machine other) :
    bond.Together bond.Machines (job.perform run rounds location machine)
      (twin.perform run rounds location other) := by
  cases alike with
  | answer alike => exact .returned ⟨alike, machines⟩
  | reject cause => exact .failed machines
  | print line => exact machines.print line
  | repeatWhile tests repeats =>
      exact iterate (respects.callClosure "condition" location tests .nil)
        (respects.callClosure "body" location repeats .nil) machines .nil
  | runOnce calls =>
      exact (respects.callClosure "body" location calls .nil machines).andThen
        fun _ _ _ _ ended => .returned ⟨.nil, ended.2⟩

theorem callNamed {name : String} {scope peer : Scope} (respects : run.Respects bond)
    (scopes : bond.Scopes names scope peer) (named : names name)
    (alike : Alike bond.Closures arguments parameters) (machines : bond.Machines machine other) :
    bond.Together bond.Machines (callNamed run rounds name location arguments scope machine)
      (callNamed run rounds name location parameters peer other) := by
  unfold PipeLang.callNamed
  obtain ⟨unbound, alsoUnbound⟩ | ⟨cell, place, bound, alsoBound, cells⟩ := bond.lookup scopes named
  · simp only [unbound, alsoUnbound]
    match Builtin.named? name with
    | some builtin =>
        simp only [applyBuiltin_eq_perform]
        have jobs := builtin.job_alike alike fun _ _ twins => (bond.enter twins).1
        exact respects.perform jobs machines
    | none => exact .failed machines
  · simp only [bound, alsoBound]
    have held := bond.contents machines.heap cells
    match machine.heap.contents cell, other.heap.contents place, held with
    | [.lambda closure], [.lambda peer], .lambda closures .nil =>
        exact respects.callClosure name location closures alike machines
    | [], [], _ => exact .failed machines
    | [.number _], [.number _], _ => exact .failed machines
    | [.string _], [.string _], _ => exact .failed machines
    | [.boolean _], [.boolean _], _ => exact .failed machines
    | [.tuple _], [.tuple _], _ => exact .failed machines
    | first :: second :: values, head :: next :: others, _ =>
        cases first <;> cases head <;> exact .failed machines

theorem evaluateElement {element : Expression} (respects : run.Respects bond)
    (looks : element.LooksUp names) (frames : bond.Frames names frame twin) :
    bond.Together (bond.Frames names) (evaluateElement run element frame)
      (evaluateElement run element twin) := by
  cases element with
  | reference location name =>
      simp only [PipeLang.evaluateElement]
      obtain ⟨unbound, alsoUnbound⟩ | ⟨cell, place, bound, alsoBound, cells⟩ :=
        bond.lookup frames.scope looks.name
      · simp only [unbound, alsoUnbound]
        exact .failed frames
      · simp only [bound, alsoBound]
        exact .returned ⟨bond.contents frames.machine.heap cells, frames⟩
  | tuple location elements =>
      exact (respects looks frames).andThen fun _ _ _ _ ended =>
        .returned ⟨.tuple ended.1 .nil, ended.2⟩
  | number | string | boolean | lambda | binary => exact respects looks frames

theorem evaluateElements {elements : List Expression} (respects : run.Respects bond)
    (looks : ∀ element ∈ elements, element.LooksUp names)
    (frames : bond.Frames names frame twin) :
    bond.Together (bond.Frames names) (evaluateElements run elements frame)
      (evaluateElements run elements twin) := by
  induction elements generalizing frame twin with
  | nil => exact .returned ⟨.nil, frames⟩
  | cons element others ih =>
      have first := respects.evaluateElement (looks element (List.mem_cons_self ..)) frames
      refine first.andThen fun values middle _ _ ⟨front, frames⟩ => ?_
      have rest := ih (fun other member => looks other (List.mem_cons_of_mem element member)) frames
      exact rest.andThen fun _ _ _ _ ended => .returned ⟨front.append ended.1, ended.2⟩

theorem applyOperator {operator : Operator} {right : Expression} (respects : run.Respects bond)
    (looks : right.LooksUp names) (alike : Alike bond.Closures values others)
    (frames : bond.Frames names frame twin) :
    bond.Together (bond.Frames names) (applyOperator run rounds operator values right frame)
      (applyOperator run rounds operator others right twin) := by
  cases right with
  | reference location name =>
      cases operator with
      | pipeline =>
          exact (respects.callNamed frames.scope looks.name alike frames.machine).mapState
            (fun _ _ _ _ ended => ⟨ended.1, frames.scope, ended.2⟩) fun _ _ ended =>
              ⟨frames.scope, ended⟩
      | assign => exact .returned ⟨alike, frames.define name alike⟩
      | mutate =>
          simp only [PipeLang.applyOperator]
          obtain ⟨unbound, alsoUnbound⟩ | ⟨cell, place, bound, alsoBound, cells⟩ :=
            bond.lookup frames.scope looks.name
          · simp only [unbound, alsoUnbound]
            exact .failed frames
          · simp only [bound, alsoBound]
            exact .returned ⟨alike, frames.write cells alike⟩
  | number | string | boolean | tuple | lambda | binary =>
      cases operator with
      | pipeline => exact respects looks frames
      | assign | mutate => exact .failed frames

theorem evaluateWith (respects : run.Respects bond) :
    Evaluator.Respects bond (evaluateWith run rounds) := by
  intro names expression frame twin looks frames
  cases expression with
  | number _ value => exact .returned ⟨.number value .nil, frames⟩
  | string _ text => exact .returned ⟨.string text .nil, frames⟩
  | boolean _ value => exact .returned ⟨.boolean value .nil, frames⟩
  | reference location name => exact .failed frames
  | tuple location elements =>
      exact respects.evaluateElements (fun _ member => looks.element member) frames
  | lambda location parameters body =>
      obtain ⟨closures, heaps⟩ :=
        bond.close parameters frames.scope frames.machine.heap looks.body
      exact .returned ⟨.lambda closures .nil, frames.scope, heaps, frames.machine.sink⟩
  | binary location operator left right =>
      exact (respects looks.left frames).andThen fun _ _ _ _ ended =>
        respects.applyOperator looks.right ended.1 ended.2

end Evaluator.Respects

theorem evaluate_respects (bond : Correspondence) (steps : Nat) :
    Evaluator.Respects bond (evaluate steps) :=
  evaluate_induction (fun _ _ _ _ _ _ => .outOfSteps) (fun _ _ => Evaluator.Respects.evaluateWith)
    steps

end PipeLang
