import Mathlib.Logic.Relation
import PipeLang.Proofs.Admission
import PipeLang.Proofs.Jobs

namespace PipeLang

/-! # The effects of a run

A run changes the heap in three ways: it binds a name to a new cell, it overwrites a cell under a
name that stands for it, and it makes closures. A world is a heap together with what the names may
stand for in it. The effects of a run lead from one world to the next, so whatever each of them
keeps is kept by every run, whether it returns or fails.
-/

/-- A heap in which names lead to nothing that the policy does not admit. -/
structure World where
  policy : Policy
  heap : Heap
  admitted : ∀ name cell, policy.Binds name cell → policy.AdmitsValues (heap.contents cell)

namespace World

variable {world middle later : World} {values : List Value}

def define (world : World) (name : String) (supplied : world.policy.AdmitsValues values) :
    World where
  policy := world.policy.give name world.heap.next
  heap := world.heap.allocate values
  admitted := by
    have extended := world.policy.extends_give name world.heap.next
    intro other cell binds
    by_cases new : cell = world.heap.next
    · rw [new, Heap.contents_allocate_next]
      exact supplied.mono extended
    · rw [Heap.contents_allocate_of_ne values new]
      rcases binds with before | ⟨_, same⟩
      · exact (world.admitted other cell before).mono extended
      · exact absurd same new

def write (world : World) (cell : Cell) (supplied : world.policy.AdmitsValues values) :
    World where
  policy := world.policy
  heap := world.heap.write cell values
  admitted := by
    intro name other binds
    by_cases written : other = cell ∧ world.heap.Allocated cell
    · rw [written.1, Heap.contents_write_self values written.2]
      exact supplied
    · have kept : (world.heap.write cell values).contents other = world.heap.contents other := by
        by_cases present : world.heap.Allocated cell
        · exact Heap.contents_write_of_ne values fun same => written ⟨same, present⟩
        · rw [Heap.write_of_not_allocated values present]
      rw [kept]
      exact world.admitted name other binds

def close (world : World) : World where
  policy := world.policy
  heap := { world.heap with closures := world.heap.closures + 1 }
  admitted := world.admitted

/-- One effect of a run. -/
inductive Step : World → World → Prop
  | define {world : World} {values : List Value} (name : String)
      (supplied : world.policy.AdmitsValues values) : Step world (world.define name supplied)
  | write {world : World} {values : List Value} {name : String} {cell : Cell}
      (mutates : world.policy.Mutates name) (binds : world.policy.Binds name cell)
      (supplied : world.policy.AdmitsValues values) : Step world (world.write cell supplied)
  | close {world : World} : Step world world.close

def Evolves : World → World → Prop :=
  Relation.ReflTransGen Step

theorem Evolves.refl (world : World) : world.Evolves world :=
  Relation.ReflTransGen.refl

theorem Evolves.trans (first : world.Evolves middle) (second : middle.Evolves later) :
    world.Evolves later :=
  Relation.ReflTransGen.trans first second

theorem Step.evolves (step : world.Step later) : world.Evolves later :=
  Relation.ReflTransGen.single step

theorem Step.extends (step : world.Step later) : world.policy.Extends later.policy := by
  cases step with
  | define name supplied => exact world.policy.extends_give name world.heap.next
  | write mutates binds supplied => exact .refl world.policy
  | close => exact .refl world.policy

theorem Evolves.extends (evolves : world.Evolves later) : world.policy.Extends later.policy := by
  induction evolves with
  | refl => exact .refl world.policy
  | tail _ step ih => exact ih.trans step.extends

/-- What every effect keeps is kept by all of them together. -/
theorem Evolves.keeps {holds : World → Prop} (evolves : world.Evolves later)
    (steps : ∀ {world later : World}, world.Step later → holds world → holds later)
    (start : holds world) : holds later := by
  induction evolves with
  | refl => exact start
  | tail _ step ih => exact steps step ih

/-- The machine works on the heap of the world. -/
def Drives (world : World) (machine : Machine) : Prop :=
  machine.heap = world.heap

structure Carries (world : World) (frame : Frame) : Prop where
  heap : world.Drives frame.machine
  scope : world.policy.AdmitsScope frame.scope

section Leads

variable {Failure State Other : Type} {holds : World → State → Prop}
  {outcome : Outcome Failure State} {failure : Failure} {after : State}

/-- The evaluation ends in a later world, which admits the values that it returns. -/
def Leads (world : World) (holds : World → State → Prop) (outcome : Outcome Failure State) : Prop :=
  outcome.Ensures
    (fun values after =>
      ∃ later, world.Evolves later ∧ later.policy.AdmitsValues values ∧ holds later after)
    (fun _ after => ∃ later, world.Evolves later ∧ holds later after)

theorem leads_returned (supplied : world.policy.AdmitsValues values) (state : holds world after) :
    world.Leads holds (.returned values after : Outcome Failure State) :=
  ⟨world, .refl world, supplied, state⟩

theorem leads_failed (state : holds world after) : world.Leads holds (.failed failure after) :=
  ⟨world, .refl world, state⟩

theorem Leads.since (leads : middle.Leads holds outcome) (evolves : world.Evolves middle) :
    world.Leads holds outcome := by
  apply leads.mono
  · rintro values state ⟨later, further, admitted, state⟩
    exact ⟨later, evolves.trans further, admitted, state⟩
  · rintro failure state ⟨later, further, state⟩
    exact ⟨later, evolves.trans further, state⟩

theorem Step.leads_returned (step : world.Step later)
    (supplied : world.policy.AdmitsValues values) (state : holds later after) :
    world.Leads holds (.returned values after : Outcome Failure State) :=
  ⟨later, step.evolves, supplied.mono step.extends, state⟩

theorem Leads.andThen {next : List Value → State → Outcome Failure State}
    (leads : world.Leads holds outcome)
    (continues : ∀ middle values state, world.Evolves middle → middle.policy.AdmitsValues values →
      holds middle state → middle.Leads holds (next values state)) :
    world.Leads holds (outcome.andThen next) := by
  apply Outcome.Ensures.andThen leads
  rintro values state ⟨middle, evolves, admitted, state⟩
  exact (continues middle values _ evolves admitted state).since evolves

theorem Leads.mapValues {change : List Value → List Value} (leads : world.Leads holds outcome)
    (changed : ∀ later values, world.Evolves later → later.policy.AdmitsValues values →
      later.policy.AdmitsValues (change values)) :
    world.Leads holds (outcome.mapValues change) := by
  apply leads.andThen
  intro later values state evolves admitted state
  exact leads_returned (changed later values evolves admitted) state

theorem Leads.mapState {kept : World → Other → Prop} {change : State → Other}
    (leads : world.Leads holds outcome)
    (changed : ∀ later state, world.Evolves later → holds later state → kept later (change state)) :
    world.Leads kept (outcome.mapState change) := by
  apply Outcome.Ensures.mapState leads
  · rintro values state ⟨later, evolves, admitted, state⟩
    exact ⟨later, evolves, admitted, changed later _ evolves state⟩
  · rintro failure state ⟨later, evolves, state⟩
    exact ⟨later, evolves, changed later _ evolves state⟩

theorem Leads.mapFailure {Changed : Type} {change : Failure → Changed}
    (leads : world.Leads holds outcome) : world.Leads holds (outcome.mapFailure change) := by
  cases outcome with
  | returned | failed => exact leads
  | outOfSteps => trivial

end Leads

theorem Carries.resume {frame : Frame} {machine : Machine} (carries : world.Carries frame)
    (evolves : world.Evolves later) (drives : later.Drives machine) :
    later.Carries { frame with machine } :=
  ⟨drives, carries.scope.mono evolves.extends⟩

theorem Carries.define {frame : Frame} (carries : world.Carries frame) (name : String)
    (supplied : world.policy.AdmitsValues values) :
    (world.define name supplied).Carries (frame.define name values) := by
  have heap : frame.machine.heap = world.heap := carries.heap
  constructor
  · exact congrArg (Heap.allocate · values) heap
  · have visible := carries.scope.mono (world.policy.extends_give name world.heap.next)
    rw [Frame.define, Heap.define, heap]
    exact visible.bind (.inr ⟨rfl, rfl⟩)

theorem Carries.write {frame : Frame} (carries : world.Carries frame) (cell : Cell)
    (supplied : world.policy.AdmitsValues values) :
    (world.write cell supplied).Carries (frame.write cell values) := by
  have heap : frame.machine.heap = world.heap := carries.heap
  exact ⟨congrArg (Heap.write · cell values) heap, carries.scope⟩

theorem Carries.close {frame : Frame} (carries : world.Carries frame) (parameters : List String)
    (body : Expression) : world.close.Carries (frame.close parameters body).2 := by
  have heap : frame.machine.heap = world.heap := carries.heap
  constructor
  · exact congrArg (fun heap : Heap => { heap with closures := heap.closures + 1 }) heap
  · exact carries.scope

theorem Carries.defineEach {frame : Frame} {arguments : List Value}
    (carries : world.Carries frame) (parameters : List String)
    (supplied : world.policy.AdmitsValues arguments) :
    ∃ later, world.Evolves later ∧ later.Carries (frame.defineEach parameters arguments) := by
  induction parameters generalizing world frame arguments with
  | nil => exact ⟨world, .refl world, carries⟩
  | cons parameter parameters ih =>
      cases arguments with
      | nil => exact ⟨world, .refl world, carries⟩
      | cons argument arguments =>
          have first : world.policy.AdmitsValues [argument] := by
            intro value member
            exact supplied value (List.mem_cons.mpr (.inl (List.mem_singleton.mp member)))
          have rest : world.policy.AdmitsValues arguments := by
            intro value member
            exact supplied value (List.mem_cons_of_mem argument member)
          have step := Step.define parameter first
          obtain ⟨later, evolves, ended⟩ :=
            ih (carries.define parameter first) (rest.mono step.extends)
          exact ⟨later, step.evolves.trans evolves, ended⟩

end World

/-- Whatever the evaluator does to a world are effects that the policy allows. -/
def Evaluator.Acts (run : Evaluator) : Prop :=
  ∀ (world : World) expression frame, world.policy.Runs expression → world.Carries frame →
    world.Leads World.Carries (run expression frame)

namespace World

variable {world : World} {values arguments : List Value} {run : Evaluator} {rounds : Nat}
  {name : String} {location : Location} {machine : Machine} {frame : Frame}

theorem leads_print (drives : world.Drives machine) (line : String) :
    world.Leads Drives (machine.print line) := by
  obtain ⟨heap, sink⟩ := machine
  simp only [Machine.print]
  split
  · exact leads_returned .nil drives
  · exact leads_failed drives

theorem leads_callClosure {closure : Closure} (acts : run.Acts)
    (admitted : world.policy.AdmitsClosure closure)
    (supplied : world.policy.AdmitsValues arguments) (drives : world.Drives machine) :
    world.Leads Drives (callClosure run name location closure arguments machine) := by
  unfold callClosure
  split
  · have entered : world.Carries ⟨closure.scope, machine⟩ := ⟨drives, admitted.2⟩
    obtain ⟨inner, evolves, carries⟩ := entered.defineEach closure.parameters supplied
    have runs := admitted.1.mono evolves.extends
    exact ((acts inner _ _ runs carries).mapState fun _ _ _ ended => ended.heap).since evolves
  · exact leads_failed drives

theorem leads_iterate {condition body : Machine → Outcome Fault Machine}
    {latest : List Value}
    (tests : ∀ later machine, world.Evolves later → later.Drives machine →
      later.Leads Drives (condition machine))
    (repeats : ∀ later machine, world.Evolves later → later.Drives machine →
      later.Leads Drives (body machine))
    (returned : world.policy.AdmitsValues latest) (drives : world.Drives machine) :
    world.Leads Drives (iterate location condition body rounds latest machine) := by
  induction rounds generalizing world latest machine with
  | zero => trivial
  | succ rounds ih =>
      unfold iterate
      apply (tests world machine (.refl world) drives).andThen
      intro tested answer middle evolves _ drives
      split
      · exact leads_failed drives
      · exact leads_returned (returned.mono evolves.extends) drives
      · apply (repeats tested middle evolves drives).andThen
        intro repeated result last further admitted drives
        have whole := evolves.trans further
        exact ih (fun later machine after => tests later machine (whole.trans after))
          (fun later machine after => repeats later machine (whole.trans after)) admitted drives

theorem leads_perform {builtin : Builtin} {job : Job} (acts : run.Acts)
    (takesOn : builtin.TakesOn world.policy.AdmitsClosure job) (drives : world.Drives machine) :
    world.Leads Drives (job.perform run rounds location machine) := by
  -- A callback stays admitted, and it gets no arguments.
  have calls {name : String} {closure : Closure} (admitted : world.policy.AdmitsClosure closure)
      (later : World) (machine : Machine) (evolves : world.Evolves later)
      (drives : later.Drives machine) :
      later.Leads Drives (callClosure run name location closure [] machine) :=
    leads_callClosure acts (admitted.mono evolves.extends) .nil drives
  cases takesOn with
  | answer _ admitted => exact leads_returned admitted drives
  | reject => exact leads_failed drives
  | print => exact leads_print drives _
  | repeatWhile tested repeated =>
      exact leads_iterate (calls tested) (calls repeated) .nil drives
  | skip => exact leads_returned .nil drives
  | runOnce called =>
      exact (calls called world machine (.refl world) drives).mapValues fun _ _ _ _ => .nil

theorem Drives.contents (drives : world.Drives machine) {cell : Cell}
    (binds : world.policy.Binds name cell) :
    world.policy.AdmitsValues (machine.heap.contents cell) := by
  have heap : machine.heap = world.heap := drives
  rw [heap]
  exact world.admitted name cell binds

theorem leads_callNamed {scope : Scope} (acts : run.Acts)
    (visible : world.policy.AdmitsScope scope) (supplied : world.policy.AdmitsValues arguments)
    (drives : world.Drives machine) :
    world.Leads Drives (callNamed run rounds name location arguments scope machine) := by
  unfold callNamed
  split
  next cell bound =>
    split
    next closure held =>
      have admitted := drives.contents (visible name cell bound)
      rw [held] at admitted
      have callable := admitted.closure (List.mem_singleton_self _)
      exact leads_callClosure acts callable supplied drives
    next => exact leads_failed drives
  next =>
    split
    · rw [applyBuiltin_eq_perform]
      exact leads_perform acts (Builtin.takesOn_job _ supplied) drives
    · exact leads_failed drives

theorem leads_evaluateElement {element : Expression} (acts : run.Acts)
    (runs : world.policy.Runs element) (carries : world.Carries frame) :
    world.Leads Carries (evaluateElement run element frame) := by
  unfold evaluateElement
  split
  next location name =>
    split
    next cell bound =>
      exact leads_returned (carries.heap.contents (carries.scope name cell bound)) carries
    next => exact leads_failed carries
  next => exact (acts world _ _ runs carries).mapValues fun _ _ _ admitted => admitted.tuple
  next => exact acts world _ _ runs carries

theorem leads_evaluateElements {elements : List Expression} (acts : run.Acts)
    (runs : ∀ element ∈ elements, world.policy.Runs element) (carries : world.Carries frame) :
    world.Leads Carries (evaluateElements run elements frame) := by
  induction elements generalizing world frame with
  | nil => exact leads_returned .nil carries
  | cons element others ih =>
      have first := leads_evaluateElement acts (runs element (List.mem_cons_self ..)) carries
      apply first.andThen
      intro middle values after evolves admitted carries
      have rest := ih (fun other member =>
        (runs other (List.mem_cons_of_mem element member)).mono evolves.extends) carries
      exact rest.mapValues fun later results further returned =>
        (admitted.mono further.extends).append returned

theorem leads_applyOperator {operator : Operator} {left right : Expression} (acts : run.Acts)
    (runs : world.policy.Runs (.binary location operator left right))
    (supplied : world.policy.AdmitsValues values) (carries : world.Carries frame) :
    world.Leads Carries (applyOperator run rounds operator values right frame) := by
  unfold applyOperator
  split
  next =>
    exact (leads_callNamed acts carries.scope supplied carries.heap).mapState
      fun later machine evolves drives => carries.resume evolves drives
  next => exact acts world _ _ runs.right carries
  next place name =>
    exact (Step.define name supplied).leads_returned supplied (carries.define name supplied)
  next place name =>
    split
    next cell bound =>
      have binds := carries.scope name cell bound
      have step := Step.write ⟨location, left, place, runs.self⟩ binds supplied
      exact step.leads_returned supplied (carries.write cell supplied)
    next => exact leads_failed carries
  next => exact leads_failed carries

theorem acts_evaluateWith (acts : run.Acts) : Evaluator.Acts (evaluateWith run rounds) := by
  intro world expression frame runs carries
  cases expression with
  | number | string | boolean =>
      apply leads_returned _ carries
      apply Policy.AdmitsValues.of_plain
      intro value member closure holds
      cases List.mem_singleton.mp member
      cases holds
  | reference location name => exact leads_failed carries
  | tuple location elements =>
      exact leads_evaluateElements acts (fun element member => runs.element member) carries
  | lambda location parameters body =>
      have made := carries.close parameters body
      exact Step.close.leads_returned (.lambda ⟨runs.body, carries.scope⟩) made
  | binary location operator left right =>
      apply (acts world left frame runs.left carries).andThen
      intro middle values after evolves admitted carries
      exact leads_applyOperator acts (runs.mono evolves.extends) admitted carries

end World

/-- Evaluation has no other effects on a world. -/
theorem evaluate_acts (steps : Nat) : Evaluator.Acts (evaluate steps) :=
  evaluate_induction (fun _ _ _ _ _ => trivial) (fun _ _ => World.acts_evaluateWith) steps

end PipeLang
