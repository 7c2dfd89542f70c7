import PipeLang.Proofs.Bindings
import PipeLang.Proofs.Locality
import PipeLang.Proofs.Naming

namespace PipeLang

/-! # Unrelated bindings

A binding that an expression does not mention has no influence on its evaluation. The cell of
the binding stands between the cells that existed before and those that the run allocates, so the
run with the binding names its cells differently: all that it allocates itself are one place
further on. The lambdas that it makes capture the binding, but they do not look it up. Lambdas
from before may, and what they find is what they captured, which is not the new cell.
-/

theorem Expression.LooksUp.assigned {names : String → Prop} {expression : Expression}
    {name : String} (looks : expression.LooksUp names) (member : name ∈ expression.assigned) :
    names name := by
  induction expression with
  | number | string | boolean | reference => cases member
  | lambda => cases member
  | tuple location elements ih =>
      obtain ⟨element, inside, member⟩ := mem_assigned_tuple.mp member
      exact ih element inside (looks.element inside) member
  | binary location operator left right leftIH rightIH =>
      rcases mem_assigned_binary.mp member with target | member | member
      · cases right with
        | reference place found =>
            simp only [target?] at target
            split at target <;> cases target
            exact looks.right.name
        | _ => cases target
      · exact leftIH looks.left member
      · exact rightIH looks.right member

namespace Heap

/-- Where the cells of a run are in another run from the same heap with one cell more. -/
def displace (first : Heap) (cell : Cell) : Cell :=
  if first.Allocated cell then cell else ⟨cell.index + 1⟩

/-- The scopes correspond in all names of a kind. -/
def DisplacesScope (first : Heap) (names : String → Prop) (scope other : Scope) : Prop :=
  ∀ label, names label → other.get? label = (scope.get? label).map first.displace

/-- The lambdas captured the same, or they were made by the runs, captured the same but for one
name, and do not look that name up. -/
structure Displaced (first : Heap) (name : String) (closure other : Closure) : Prop where
  identity : closure.identity = other.identity
  parameters : closure.parameters = other.parameters
  body : closure.body = other.body
  captured : first.DisplacesScope (fun _ => True) closure.scope other.scope ∨
    first.closures ≤ closure.identity ∧ closure.body.LooksUp (· ≠ name) ∧
      first.DisplacesScope (· ≠ name) closure.scope other.scope

/-- Heaps during two runs from `first`, the second of which starts with a cell more for `name`. -/
structure Displaces (first : Heap) (name : String) (values : List Value) (heap store : Heap) :
    Prop where
  grown : first.cells.size ≤ heap.cells.size
  cells : store.cells.size = heap.cells.size + 1
  made : first.closures ≤ heap.closures
  closures : store.closures = heap.closures
  added : store.contents first.next = values
  contents : ∀ cell,
    Alike (first.Displaced name) (heap.contents cell) (store.contents (first.displace cell))

variable {first heap store : Heap} {name : String} {values results others : List Value}
  {cell : Cell}

theorem displace_of_allocated (allocated : first.Allocated cell) : first.displace cell = cell :=
  if_pos allocated

theorem displace_of_not_allocated (absent : ¬ first.Allocated cell) :
    first.displace cell = ⟨cell.index + 1⟩ :=
  if_neg absent

theorem displace_index (first : Heap) (cell : Cell) :
    (first.displace cell).index =
      if cell.index < first.cells.size then cell.index else cell.index + 1 :=
  apply_ite Cell.index ..

theorem displace_ne_next (first : Heap) (cell : Cell) : first.displace cell ≠ first.next := by
  intro same
  have index : (first.displace cell).index = first.cells.size := congrArg Cell.index same
  rw [displace_index] at index
  split at index <;> omega

theorem displace_injective (first : Heap) : Function.Injective first.displace := by
  intro cell other same
  have index := congrArg Cell.index same
  simp only [displace_index] at index
  have equal : cell.index = other.index := by grind
  cases cell
  cases other
  exact congrArg Cell.mk equal

namespace Displaces

variable (displaces : first.Displaces name values heap store)
include displaces

theorem displace_next : first.displace heap.next = store.next := by
  have absent : ¬ first.Allocated heap.next := Nat.not_lt.mpr displaces.grown
  rw [displace_of_not_allocated absent, next, next, displaces.cells]

theorem allocated_iff (cell : Cell) :
    heap.Allocated cell ↔ store.Allocated (first.displace cell) := by
  have grown := displaces.grown
  rw [Allocated, Allocated, displace_index, displaces.cells]
  split <;> omega

theorem allocate (alike : Alike (first.Displaced name) results others) :
    first.Displaces name values (heap.allocate results) (store.allocate others) := by
  have older : first.next ≠ store.next :=
    displaces.displace_next ▸ (displace_ne_next first heap.next).symm
  refine ⟨?_, ?_, displaces.made, displaces.closures, ?_, ?_⟩
  · simpa [Heap.allocate] using Nat.le_succ_of_le displaces.grown
  · simp [Heap.allocate, displaces.cells]
  · rw [contents_allocate_of_ne others older, displaces.added]
  · intro cell
    exact alike_allocate (displace_injective first) displaces.displace_next alike
      (displaces.contents cell)

theorem write (cell : Cell) (alike : Alike (first.Displaced name) results others) :
    first.Displaces name values (heap.write cell results)
      (store.write (first.displace cell) others) := by
  refine ⟨?_, ?_, displaces.made, displaces.closures, ?_, ?_⟩
  · simpa [Heap.write] using displaces.grown
  · simp [Heap.write, displaces.cells]
  · rw [contents_write_of_ne others (displace_ne_next first cell).symm, displaces.added]
  · intro other
    exact alike_write (displace_injective first) (displaces.allocated_iff cell) alike
      (displaces.contents other)

end Displaces

/-- Everything that the heap holds leads to cells that exist. -/
def Closed (heap : Heap) : Prop :=
  ∀ cell scope, Value.Captured (heap.contents cell) scope → scope.Within heap.Allocated

theorem displacesScope_self {scope : Scope} (within : scope.Within first.Allocated)
    (names : String → Prop) : first.DisplacesScope names scope scope := by
  intro label _
  cases bound : scope.get? label with
  | none => rfl
  | some cell => rw [Option.map_some, displace_of_allocated (within label cell bound)]

theorem Closed.displaces (closed : first.Closed) (name : String) (values : List Value) :
    first.Displaces name values first (first.allocate values) := by
  refine ⟨Nat.le_refl _, Array.size_push .., Nat.le_refl _, rfl, contents_allocate_next .., ?_⟩
  intro cell
  by_cases allocated : first.Allocated cell
  · rw [displace_of_allocated allocated, contents_allocate_of_allocated values allocated]
    refine .refl fun value member closure holds => ⟨rfl, rfl, rfl, .inl ?_⟩
    exact displacesScope_self (closed cell _ ⟨value, member, closure, holds, rfl⟩) _
  · have absent : ¬ (first.allocate values).Allocated (first.displace cell) := by
      rw [displace_of_not_allocated allocated]
      simpa [Allocated, Heap.allocate] using allocated
    rw [contents_of_not_allocated allocated, contents_of_not_allocated absent]
    exact .nil

end Heap

/-- Cells stand for displaced ones. Scopes correspond in all names but the one that was bound, and
in that one too where it is looked up. -/
def Correspondence.displacing (first : Heap) (name : String) (values : List Value) :
    Correspondence where
  Cells cell place := place = first.displace cell
  Scopes names := first.DisplacesScope fun label => label ≠ name ∨ names label
  Closures := first.Displaced name
  Heaps := first.Displaces name values
  lookup := by
    intro names scope other label scopes named
    rw [scopes label (.inr named)]
    cases bound : scope.get? label with
    | none => exact .inl ⟨rfl, rfl⟩
    | some cell => exact .inr ⟨cell, _, rfl, rfl, rfl⟩
  enter := by
    intro closure other displaced
    obtain ⟨_, parameters, body, all | ⟨_, looks, others⟩⟩ := displaced
    · exact ⟨parameters, body, fun _ => True, fun _ _ _ => trivial, fun label _ =>
        all label trivial⟩
    · exact ⟨parameters, body, (· ≠ name), looks, fun label named =>
        others label (or_self_iff.mp named)⟩
  contents := by
    intro heap store cell place displaces moved
    subst moved
    exact displaces.contents cell
  define := by
    intro names scope other heap store results others label scopes displaces alike
    refine ⟨fun found named => ?_, displaces.allocate alike⟩
    by_cases same : found = label
    · subst same
      simp only [Heap.define, Scope.get?_bind_self, Option.map_some, displaces.displace_next]
    · simp only [Heap.define, Scope.get?_bind_of_ne _ _ same, scopes found named]
  write := by
    intro heap store cell place results others displaces moved alike
    subst moved
    exact displaces.write cell alike
  close := by
    intro names scope other heap store body parameters scopes displaces looks
    refine ⟨⟨displaces.closures.symm, rfl, rfl, ?_⟩, ?_⟩
    · by_cases named : names name
      · refine .inl fun label _ => scopes label ?_
        by_cases same : label = name
        · exact .inr (same ▸ named)
        · exact .inl same
      · refine .inr ⟨displaces.made, fun place label inside same => ?_, fun label other => ?_⟩
        · exact named (same ▸ looks place label inside)
        · exact scopes label (.inl other)
    · exact ⟨displaces.grown, displaces.cells, Nat.le_succ_of_le displaces.made,
        congrArg Nat.succ displaces.closures, displaces.added, displaces.contents⟩

theorem Outcome.Parallel.leaving {State Other : Type}
    {returns : List Value → State → List Value → Other → Prop} {fails : State → Other → Prop}
    {outcome : Outcome Fault State} {twin : Outcome Fault Other}
    (parallel : Parallel returns fails outcome twin) :
    Parallel
      (fun values after others later => returns values after others later ∧ twin.Leaves later)
      (fun after later => fails after later ∧ twin.Leaves later) outcome twin := by
  cases parallel with
  | returned left => exact .returned ⟨left, .inl ⟨_, rfl⟩⟩
  | failed left => exact .failed ⟨left, .inr ⟨_, rfl⟩⟩
  | outOfSteps => exact .outOfSteps

theorem evaluate_keeps_binding {steps : Nat} {expression : Expression} {name : String}
    {before after : Frame} (absent : expression.LooksUp (· ≠ name))
    (left : (evaluate steps expression before).Leaves after) :
    after.scope.get? name = before.scope.get? name := by
  have rebinds : before.Rebinds expression.assigned after :=
    ((evaluate_bindsAssigned steps expression before).mono (fun _ _ all => all.toRebinds)
      fun _ _ some => some).of_leaves left
  rcases rebinds.each name with same | ⟨member, _⟩
  · exact same
  · exact absurd rfl (absent.assigned member)

structure Frame.Closed (frame : Frame) : Prop where
  scope : frame.scope.Within frame.machine.heap.Allocated
  heap : frame.machine.heap.Closed

namespace World

def Named (world : World) : Prop :=
  ∀ cell, world.heap.Allocated cell → ∃ name, world.policy.Binds name cell

variable {world later : World}

theorem Step.named (step : world.Step later) (named : world.Named) : later.Named := by
  cases step with
  | define name supplied =>
      intro cell allocated
      rcases Heap.allocated_allocate.mp allocated with old | new
      · obtain ⟨label, binds⟩ := named cell old
        exact ⟨label, .inl binds⟩
      · exact ⟨name, .inr ⟨rfl, new⟩⟩
  | write mutates binds supplied =>
      exact fun cell allocated => named cell (Heap.allocated_write.mp allocated)
  | close => exact named

theorem initial_named : initial.Named := by
  intro cell allocated
  exact absurd allocated (Nat.not_lt_zero cell.index)

theorem Labels.within {scope : Scope} (labels : world.Labels)
    (admitted : world.policy.AdmitsScope scope) : scope.Within world.heap.Allocated :=
  fun name cell bound => labels.allocated name cell (admitted name cell bound)

theorem Labels.closed (labels : world.Labels) (named : world.Named) : world.heap.Closed := by
  intro cell scope captured
  obtain ⟨value, member, closure, holds, rfl⟩ := captured
  obtain ⟨name, binds⟩ := named cell (Heap.allocated_of_mem_contents member)
  exact labels.within (world.admitted name cell binds value member closure holds).2

end World

/-- Whatever a client does, and whether it fails or not, leaves nothing that leads to a cell that
does not exist. -/
theorem Client.closed_of_operate {sink : Sink} {actions : List Client.Action} {client : Client}
    (operated : (Client.start sink).operate actions = some client) (number : Nat) :
    (client.bench.frame number).Closed := by
  obtain ⟨world, evolves, serves⟩ := Client.world_of_operate operated
  have labels : world.Labels := evolves.keeps World.Step.labels World.initial_labels
  have named : world.Named := evolves.keeps World.Step.named World.initial_named
  have heap : client.bench.machine.heap = world.heap := serves.bench.drives
  constructor
  · rw [Workbench.frame, heap]
    exact labels.within (serves.bench.admits number)
  · rw [Workbench.frame, heap]
    exact labels.closed named

/-- The frames correspond, and the second one still has the binding that it started with. -/
structure Frame.Displaces (first : Heap) (name : String) (values : List Value)
    (frame twin : Frame) : Prop where
  scope : first.DisplacesScope (· ≠ name) frame.scope twin.scope
  binding : twin.scope.get? name = some first.next
  heap : first.Displaces name values frame.machine.heap twin.machine.heap
  sink : frame.machine.sink = twin.machine.sink

/-- A binding that is added under a name that an expression does not mention changes nothing: the
evaluation comes to the same end, with the same error, the same output, and the same values and
contents of cells, apart from the numbers of cells and from what lambdas that it makes captured
under this name. The binding and its values are kept. -/
theorem evaluate_ignores_unrelated {frame : Frame} {expression : Expression} {name : String}
    (closed : frame.Closed) (absent : expression.LooksUp (· ≠ name)) (values : List Value)
    (steps : Nat) :
    Outcome.Parallel
      (fun results after others later =>
        Alike (frame.machine.heap.Displaced name) results others ∧
          after.Displaces frame.machine.heap name values later)
      (fun after later => after.Displaces frame.machine.heap name values later)
      (evaluate steps expression frame) (evaluate steps expression (frame.define name values)) := by
  have start : (Correspondence.displacing frame.machine.heap name values).Frames (· ≠ name) frame
      (frame.define name values) := by
    refine ⟨fun label named => ?_, closed.heap.displaces name values, rfl⟩
    rw [Frame.define, Heap.define, Scope.get?_bind_of_ne _ _ (or_self_iff.mp named)]
    exact Heap.displacesScope_self closed.scope (fun _ => True) label trivial
  have ended {after later : Frame}
      (frames : (Correspondence.displacing frame.machine.heap name values).Frames (· ≠ name) after
        later)
      (left : (evaluate steps expression (frame.define name values)).Leaves later) :
      after.Displaces frame.machine.heap name values later := by
    have binding : later.scope.get? name = some frame.machine.heap.next := by
      rw [evaluate_keeps_binding absent left]
      exact Scope.get?_bind_self ..
    exact ⟨fun label other => frames.scope label (.inl other), binding, frames.machine.heap,
      frames.machine.sink⟩
  refine (evaluate_respects _ steps absent start).leaving.mono ?_ ?_
  · intro results after others later both
    obtain ⟨⟨alike, frames⟩, left⟩ := both
    exact ⟨alike, ended frames left⟩
  · intro after later both
    exact ended both.1 both.2

/-- The lambda `() => "a" |> show`, made where nothing is bound. -/
def announcing : Closure :=
  ⟨0, [], .empty, .binary ⟨1, 12⟩ .pipeline (.string ⟨1, 8⟩ "a") (.reference ⟨1, 15⟩ "show")⟩

/-- Stores the lambda in `f`. -/
def announcingActions : List Client.Action :=
  [.evaluate 3 0 (.binary ⟨1, 21⟩ .assign (.tuple ⟨1, 1⟩ [.lambda ⟨1, 2⟩ [] announcing.body])
    (.reference ⟨1, 24⟩ "f"))]

def announcingClient : Client :=
  ⟨⟨#[Scope.empty.bind "f" ⟨0⟩], ⟨⟨#[[.lambda announcing]], 1⟩, .unlimited⟩⟩, [.lambda announcing]⟩

/-- The program `() |> f |> (() => (f))`. -/
def callingAnnouncing : Expression :=
  .binary ⟨1, 9⟩ .pipeline
    (.binary ⟨1, 4⟩ .pipeline (.tuple ⟨1, 1⟩ []) (.reference ⟨1, 7⟩ "f"))
    (.tuple ⟨1, 12⟩ [.lambda ⟨1, 13⟩ [] (.tuple ⟨1, 19⟩ [.reference ⟨1, 20⟩ "f"])])

/-- The program calls a lambda that calls `show`, and binding that name leaves the output as it
is. The lambda that the program makes captures the binding. -/
theorem evaluate_ignores_unrelated_builtin :
    let frame := announcingClient.bench.frame 0
    let made (scope : Scope) : Value :=
      .lambda ⟨1, [], scope, .tuple ⟨1, 19⟩ [.reference ⟨1, 20⟩ "f"]⟩
    (Client.start .unlimited).operate announcingActions = some announcingClient ∧
      callingAnnouncing.LooksUp (· ≠ "show") ∧
      ∃ after later,
        evaluate 5 callingAnnouncing frame = .returned [made frame.scope] after ∧
        evaluate 5 callingAnnouncing (frame.define "show" [.boolean true]) =
          .returned [made (frame.scope.bind "show" ⟨1⟩)] later ∧
        after.machine.sink = later.machine.sink ∧ later.scope.get? "show" = some ⟨1⟩ ∧
        later.contents ⟨1⟩ = [.boolean true] := by
  intro frame made
  have operated : (Client.start .unlimited).operate announcingActions = some announcingClient := rfl
  have absent : callingAnnouncing.LooksUp (· ≠ "show") := by
    intro location name inside
    have only : name = "f" := by
      simp [callingAnnouncing, Expression.nodes, Expression.nodesWith,
        Expression.nodesOfEach] at inside
      exact inside.elim And.right And.right
    rw [only]
    decide
  have parallel := evaluate_ignores_unrelated (Client.closed_of_operate operated 0) absent
    [.boolean true] 5
  refine ⟨operated, absent, ?_⟩
  cases parallel with
  | returned left =>
      exact ⟨_, _, rfl, rfl, left.2.sink, left.2.binding, left.2.heap.added⟩

end PipeLang
