import PipeLang.Proofs.Confinement
import PipeLang.Session

namespace PipeLang

/-! # Which cells a run can change

A cell that existed before a run changes only if the run can reach it and some expression
that the run can reach overwrites a name that the cell has there. The proof is by a policy
that is read off the start of the run: old cells keep the names under which they were
reachable, and no lambda comes up whose body overwrites other names than those of the
expression and of the lambdas that were reachable.
-/

/-- The name is overwritten by the expression or by a lambda that can be reached. -/
def Frame.Overwrites (start : Frame) (expression : Expression) (name : String) : Prop :=
  name ∈ expression.overwritten ∨
    ∃ closure, start.scope.ReachesClosure start.machine.heap closure ∧
      name ∈ closure.body.overwritten

/-- The cell has the name in a scope that can be reached. -/
def Frame.Names (start : Frame) (name : String) (cell : Cell) : Prop :=
  ∃ scope, start.scope.Reaches start.machine.heap scope ∧ scope.get? name = some cell

namespace Policy

theorem admitsFrame_of_names {policy : Policy} {start : Frame}
    (names : ∀ name cell, policy.Binds name cell ↔
      (start.machine.heap.Allocated cell → start.Names name cell))
    (runs : ∀ closure, start.scope.ReachesClosure start.machine.heap closure →
      policy.Runs closure.body) :
    policy.AdmitsFrame start.machine.heap start := by
  have admitsScope {scope : Scope} (reached : start.scope.Reaches start.machine.heap scope) :
      policy.AdmitsScope scope :=
    fun name cell bound => (names name cell).mpr fun _ => ⟨scope, reached, bound⟩
  refine ⟨admitsScope .root, Nat.le_refl _, fun _ _ => .inl rfl, ?_⟩
  intro name cell binds value member closure holds
  obtain ⟨scope, reached, bound⟩ := (names name cell).mp binds (Heap.allocated_of_mem_contents member)
  have held : scope.Holds start.machine.heap closure := ⟨name, cell, value, bound, member, holds⟩
  exact ⟨runs closure ⟨scope, reached, held⟩, admitsScope (reached.captured held)⟩

/-- What a run of the expression can do to the cells that exist at its start. -/
def ofStart (start : Frame) (expression : Expression) : Policy where
  Allows node := ∀ name, node.target? .mutate = some name → start.Overwrites expression name
  Binds name cell := start.machine.heap.Allocated cell → start.Names name cell
  Writes cell := start.machine.heap.Allocated cell →
    ∃ name, start.Names name cell ∧ start.Overwrites expression name

variable {start : Frame} {expression : Expression}

theorem ofStart_feasible : (ofStart start expression).Feasible start.machine.heap where
  fresh _ _ absent allocated := absurd allocated absent
  overwrite allows binds allocated := ⟨_, binds allocated, allows _ rfl⟩

theorem ofStart_runs : (ofStart start expression).Runs expression :=
  fun node inside _ found => .inl (Expression.mem_overwritten.mpr ⟨node, inside, found⟩)

theorem ofStart_admitsFrame : (ofStart start expression).AdmitsFrame start.machine.heap start := by
  refine admitsFrame_of_names (fun _ _ => Iff.rfl) fun closure reached node inside other found => ?_
  have overwritten := Expression.mem_overwritten.mpr ⟨node, inside, found⟩
  exact .inr ⟨closure, reached, overwritten⟩

end Policy

theorem evaluate_keeps_contents {steps : Nat} {expression : Expression} {before after : Frame}
    {cell : Cell} (left : (evaluate steps expression before).Leaves after)
    (allocated : before.machine.heap.Allocated cell)
    (changed : after.machine.heap.contents cell ≠ before.machine.heap.contents cell) :
    ∃ name, before.Names name cell ∧ before.Overwrites expression name := by
  have kept := Policy.governs_evaluate Policy.ofStart_feasible steps expression before
    Policy.ofStart_runs Policy.ofStart_admitsFrame
  have confined : (Policy.ofStart before expression).AdmitsFrame before.machine.heap after :=
    Outcome.Ensures.of_leaves (kept.mono (fun _ _ done => done.2) (fun _ _ done => done)) left
  rcases confined.heap.kept cell allocated with same | writes
  · exact absurd same changed
  · exact writes allocated

namespace Frame

/-- The frame has come about from `start` by binding names to new cells, and those hold values
from the given list only. -/
structure Supplies (start : Frame) (arguments : List Value) (frame : Frame) : Prop where
  grown : start.machine.heap.cells.size ≤ frame.machine.heap.cells.size
  kept : ∀ cell, start.machine.heap.Allocated cell →
    frame.machine.heap.contents cell = start.machine.heap.contents cell
  held : ∀ cell value, value ∈ frame.machine.heap.contents cell →
    value ∈ start.machine.heap.contents cell ∨ value ∈ arguments

variable {start frame : Frame} {parameters : List String} {arguments supplied : List Value}

theorem Supplies.define {argument : Value} (supplies : start.Supplies arguments frame)
    (member : argument ∈ arguments) (name : String) :
    start.Supplies arguments (frame.define name [argument]) := by
  have grown := supplies.grown
  refine ⟨?_, ?_, ?_⟩
  · simp only [Frame.define, Heap.define, Heap.allocate, Array.size_push]
    omega
  · intro cell allocated
    have present : frame.machine.heap.Allocated cell := Nat.lt_of_lt_of_le allocated grown
    exact (Heap.contents_allocate_of_allocated _ present).trans (supplies.kept cell allocated)
  · intro cell value inside
    simp only [Frame.define, Heap.define] at inside
    by_cases new : cell = frame.machine.heap.next
    · subst new
      rw [Heap.contents_allocate_next] at inside
      exact .inr (List.mem_singleton.mp inside ▸ member)
    · rw [Heap.contents_allocate_of_ne _ new] at inside
      exact supplies.held cell value inside

theorem Supplies.defineEach (supplies : start.Supplies arguments frame)
    (members : ∀ argument ∈ supplied, argument ∈ arguments) :
    start.Supplies arguments (frame.defineEach parameters supplied) := by
  induction parameters generalizing frame supplied with
  | nil => exact supplies
  | cons parameter parameters ih =>
      cases supplied with
      | nil => exact supplies
      | cons argument others =>
          have first := supplies.define (members argument (List.mem_cons_self ..)) parameter
          exact ih first fun other member => members other (List.mem_cons_of_mem argument member)

/-- A parameter hides the variable of the same name, and its own cell is new. -/
theorem defineEach_get?_of_allocated {name : String} {cell : Cell}
    (matching : parameters.length = supplied.length)
    (bound : (frame.defineEach parameters supplied).scope.get? name = some cell)
    (allocated : frame.machine.heap.Allocated cell) :
    name ∉ parameters ∧ frame.scope.get? name = some cell := by
  induction parameters generalizing frame supplied with
  | nil => exact ⟨List.not_mem_nil, bound⟩
  | cons parameter parameters ih =>
      cases supplied with
      | nil => cases matching
      | cons argument others =>
          have present : (frame.define parameter [argument]).machine.heap.Allocated cell := by
            have inside : cell.index < frame.machine.heap.cells.size := allocated
            simp only [Heap.Allocated, define, Heap.define, Heap.allocate, Array.size_push]
            omega
          obtain ⟨notLater, found⟩ := ih (Nat.succ.inj matching) bound present
          by_cases same : name = parameter
          · subst same
            have new : frame.machine.heap.next = cell :=
              Option.some.inj ((Scope.get?_bind_self ..).symm.trans found)
            subst new
            exact absurd allocated (Nat.lt_irrefl _)
          · refine ⟨?_, (Scope.get?_bind_of_ne _ _ same).symm.trans found⟩
            rw [List.mem_cons]
            exact not_or.mpr ⟨same, notLater⟩

end Frame

/-- The frame in which the body of a lambda starts to run. -/
def Closure.entered (closure : Closure) (arguments : List Value) (machine : Machine) : Frame :=
  Frame.defineEach ⟨closure.scope, machine⟩ closure.parameters arguments

/-- The closures that a call can get at: those in the variables that the lambda captured, those
in the arguments, and those in the variables that one of these captured. The scope of the
caller is not among the ways to get at a closure. -/
inductive Closure.Obtains (closure : Closure) (heap : Heap) (arguments : List Value) :
    Closure → Prop
  | captured {other : Closure} (held : closure.scope.Holds heap other) :
      Obtains closure heap arguments other
  | argument {other : Closure} {value : Value} (member : value ∈ arguments)
      (inside : value.Holds other) : Obtains closure heap arguments other
  | nested {other inner : Closure} (obtained : Obtains closure heap arguments other)
      (held : other.scope.Holds heap inner) : Obtains closure heap arguments inner

section Calls

variable {closure : Closure} {arguments : List Value} {machine : Machine} {scope : Scope}

theorem entered_supplies :
    Frame.Supplies ⟨closure.scope, machine⟩ arguments (closure.entered arguments machine) :=
  Frame.Supplies.defineEach ⟨Nat.le_refl _, fun _ _ => rfl, fun _ _ => .inl⟩ fun _ member => member

variable (matching : closure.parameters.length = arguments.length)
include matching

theorem obtains_of_holds {inner : Closure}
    (origin : scope = (closure.entered arguments machine).scope ∨
      ∃ other, closure.Obtains machine.heap arguments other ∧ scope = other.scope)
    (held : scope.Holds
      (closure.entered arguments machine).machine.heap inner) :
    closure.Obtains machine.heap arguments inner := by
  obtain ⟨name, cell, value, bound, member, inside⟩ := held
  rcases entered_supplies.held cell value member with before | supplied
  · have allocated : machine.heap.Allocated cell := Heap.allocated_of_mem_contents before
    rcases origin with rfl | ⟨other, obtained, rfl⟩
    · obtain ⟨_, visible⟩ := Frame.defineEach_get?_of_allocated matching bound allocated
      exact .captured ⟨name, cell, value, visible, before, inside⟩
    · exact .nested obtained ⟨name, cell, value, bound, before, inside⟩
  · exact .argument supplied inside

theorem obtains_of_reaches
    (reached : (closure.entered arguments machine).scope.Reaches
      (closure.entered arguments machine).machine.heap scope) :
    scope = (closure.entered arguments machine).scope ∨
      ∃ other, closure.Obtains machine.heap arguments other ∧ scope = other.scope := by
  induction reached with
  | root => exact .inl rfl
  | captured _ held ih => exact .inr ⟨_, obtains_of_holds matching ih held, rfl⟩

/-- A call changes no cell of its caller through a parameter: the name under which the cell is
overwritten belongs to a variable that a lambda captured, and not to a parameter. -/
theorem call_keeps_contents {steps : Nat} {name : String} {location : Location} {after : Machine}
    {cell : Cell}
    (left : (callClosure (evaluate steps) name location closure arguments machine).Leaves after)
    (allocated : machine.heap.Allocated cell)
    (changed : after.heap.contents cell ≠ machine.heap.contents cell) :
    ∃ target,
      (target ∉ closure.parameters ∧ closure.scope.get? target = some cell ∨
        ∃ other, closure.Obtains machine.heap arguments other ∧
          other.scope.get? target = some cell) ∧
      (target ∈ closure.body.overwritten ∨
        ∃ other, closure.Obtains machine.heap arguments other ∧
          target ∈ other.body.overwritten) := by
  rw [callClosure, if_pos matching] at left
  obtain ⟨final, ended, rfl⟩ := left.of_mapState
  have entry : Frame.Supplies ⟨closure.scope, machine⟩ arguments
      (closure.entered arguments machine) := entered_supplies
  have present : (closure.entered arguments machine).machine.heap.Allocated cell :=
    Nat.lt_of_lt_of_le allocated entry.grown
  rw [← entry.kept cell allocated] at changed
  obtain ⟨target, ⟨scope, reached, bound⟩, overwrites⟩ :=
    evaluate_keeps_contents ended present changed
  refine ⟨target, ?_, ?_⟩
  · rcases obtains_of_reaches matching reached with rfl | ⟨other, obtained, rfl⟩
    · exact .inl (Frame.defineEach_get?_of_allocated matching bound allocated)
    · exact .inr ⟨other, obtained, bound⟩
  · rcases overwrites with direct | ⟨other, ⟨holder, reached, held⟩, inside⟩
    · exact .inl direct
    · have obtained := obtains_of_holds matching (obtains_of_reaches matching reached) held
      exact .inr ⟨other, obtained, inside⟩

end Calls

/-- A cell that existed before a run changes only if it is reachable from the scope of the run
under a name that the expression, or a reachable lambda, overwrites. A call sees the captured
variables and the arguments in place of the scope of its caller, and its parameters are
no names of cells that existed before. -/
theorem evaluate_changes_only_overwritten_reachable (steps : Nat) :
    (∀ expression (before after : Frame), (evaluate steps expression before).Leaves after →
      ∀ cell, before.machine.heap.Allocated cell →
        after.machine.heap.contents cell ≠ before.machine.heap.contents cell →
        ∃ scope name, before.scope.Reaches before.machine.heap scope ∧
          scope.get? name = some cell ∧
          (name ∈ expression.overwritten ∨
            ∃ closure, before.scope.ReachesClosure before.machine.heap closure ∧
              name ∈ closure.body.overwritten)) ∧
    (∀ name location closure arguments (before after : Machine),
      (callClosure (evaluate steps) name location closure arguments before).Leaves after →
      ∀ cell, before.heap.Allocated cell →
        after.heap.contents cell ≠ before.heap.contents cell →
        ∃ target,
          (target ∉ closure.parameters ∧ closure.scope.get? target = some cell ∨
            ∃ other, closure.Obtains before.heap arguments other ∧
              other.scope.get? target = some cell) ∧
          (target ∈ closure.body.overwritten ∨
            ∃ other, closure.Obtains before.heap arguments other ∧
              target ∈ other.body.overwritten)) := by
  refine ⟨?_, ?_⟩
  · intro expression before after left cell allocated changed
    obtain ⟨name, ⟨scope, reached, bound⟩, overwrites⟩ :=
      evaluate_keeps_contents left allocated changed
    exact ⟨scope, name, reached, bound, overwrites⟩
  · intro name location closure arguments before after left cell allocated changed
    by_cases matching : closure.parameters.length = arguments.length
    · exact call_keeps_contents matching left allocated changed
    · rw [callClosure, if_neg matching] at left
      obtain ⟨_, same⟩ | ⟨_, same⟩ := left
      · cases same
      · cases same
        exact absurd rfl changed

/-- A frame in which the lambda `() => true ->> i` shares the cell of `i`. -/
def sharedFlag : Frame :=
  ((Session.start .unlimited).define "i" [.boolean false]).define "set"
    [.lambda ⟨0, [], Scope.empty.bind "i" ⟨0⟩,
      .binary ⟨1, 12⟩ .mutate (.boolean ⟨1, 7⟩ true) (.reference ⟨1, 16⟩ "i")⟩]

/-- Calling the lambda changes the cell, although the calling program overwrites nothing. -/
theorem evaluate_changes_only_overwritten_reachable_call :
    ∃ after name,
      (evaluate 3 (.binary ⟨1, 4⟩ .pipeline (.tuple ⟨1, 1⟩ []) (.reference ⟨1, 7⟩ "set"))
        sharedFlag).Leaves after ∧
      sharedFlag.machine.heap.Allocated ⟨0⟩ ∧
      after.machine.heap.contents ⟨0⟩ ≠ sharedFlag.machine.heap.contents ⟨0⟩ ∧
      ∃ closure, sharedFlag.scope.ReachesClosure sharedFlag.machine.heap closure ∧
        name ∈ closure.body.overwritten := by
  have changed : [Value.boolean true] ≠ [.boolean false] := by
    intro same
    cases same
  obtain ⟨_, name, _, _, overwrites⟩ := (evaluate_changes_only_overwritten_reachable 3).1
    (.binary ⟨1, 4⟩ .pipeline (.tuple ⟨1, 1⟩ []) (.reference ⟨1, 7⟩ "set")) sharedFlag _
    (.inl ⟨_, rfl⟩) ⟨0⟩ (by decide) changed
  refine ⟨_, name, .inl ⟨_, rfl⟩, by decide, changed, ?_⟩
  rcases overwrites with direct | reachable
  · have empty : name ∈ [] := direct
    cases empty
  · exact reachable

end PipeLang
