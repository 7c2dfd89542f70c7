import PipeLang.Proofs.Naming

namespace PipeLang

/-! # Heaps without cycles

A lambda can only capture what is there when it is made, and it is made before it is stored. So
as long as no cell is overwritten, the lambdas in a cell captured older cells only, and whoever
follows captured scopes gets to older and older cells. It takes `->>` to close a cycle.
-/

def Expression.isMutation : Expression → Bool
  | .binary _ .mutate _ _ => true
  | _ => false

namespace Heap

variable {heap : Heap} {scope inner : Scope} {cell : Cell} {limit : Nat}

/-- The lambdas in a cell captured only cells that were allocated before it. Cells are numbered
in the order of their allocation. -/
def CapturesOlder (heap : Heap) : Prop :=
  ∀ cell, ∀ value ∈ heap.contents cell, ∀ closure, value.Holds closure →
    ∀ name captured, closure.scope.get? name = some captured → captured.index < cell.index

/-- The contents of the first cell lead to the second one. -/
def Leads (heap : Heap) (cell other : Cell) : Prop :=
  ∃ value ∈ heap.contents cell, ∃ closure, value.Holds closure ∧
    ∃ scope name, closure.scope.Reaches heap scope ∧ scope.get? name = some other

theorem CapturesOlder.lt_of_reaches (older : heap.CapturesOlder)
    (below : ∀ name cell, scope.get? name = some cell → cell.index < limit)
    (reached : scope.Reaches heap inner) :
    ∀ name cell, inner.get? name = some cell → cell.index < limit := by
  induction reached with
  | root => exact below
  | captured _ held ih =>
      obtain ⟨label, holder, value, bound, member, holds⟩ := held
      intro name cell captured
      exact Nat.lt_trans (older holder value member _ holds name cell captured)
        (ih label holder bound)

theorem CapturesOlder.lt_of_leads {other : Cell} (older : heap.CapturesOlder)
    (leads : heap.Leads cell other) : other.index < cell.index := by
  obtain ⟨value, member, closure, holds, scope, name, reached, bound⟩ := leads
  exact older.lt_of_reaches (older cell value member closure holds) reached name other bound

/-- A lambda that reached itself would be in a cell that is older than itself. -/
theorem CapturesOlder.not_reachesClosure (older : heap.CapturesOlder) (closure : Closure) :
    ¬ closure.scope.ReachesClosure heap closure := by
  intro reaches
  obtain ⟨scope, reached, name, cell, value, bound, member, holds⟩ := reaches
  have below := older cell value member closure holds
  exact Nat.lt_irrefl _ (older.lt_of_reaches below reached name cell bound)

end Heap

namespace World

variable {world later : World}

/-- Nothing may be overwritten, and no cell captures a younger one. -/
structure Layered (world : World) : Prop where
  labels : world.Labels
  lasts : ∀ name, ¬ world.policy.Mutates name
  older : world.heap.CapturesOlder

theorem Step.layered (step : world.Step later) (layered : world.Layered) : later.Layered := by
  have labels := step.labels layered.labels
  cases step with
  | @define values name supplied =>
      refine ⟨labels, layered.lasts, ?_⟩
      intro cell value member closure holds label captured bound
      by_cases new : cell = world.heap.next
      · -- What is stored was there before the cell, and so was all that it captured.
        subst new
        rw [World.define, Heap.contents_allocate_next] at member
        exact layered.labels.allocated label captured
          ((supplied value member closure holds).2 label captured bound)
      · rw [World.define, Heap.contents_allocate_of_ne values new] at member
        exact layered.older cell value member closure holds label captured bound
  | write mutates binds supplied => exact absurd mutates (layered.lasts _)
  | close => exact ⟨labels, layered.lasts, layered.older⟩

/-- The world in which nothing has happened, and nothing may be overwritten. -/
def lasting : World :=
  allowing fun node => node.isMutation = false

theorem lasting_lasts (name : String) : ¬ lasting.policy.Mutates name := by
  intro mutates
  obtain ⟨location, left, place, allowed⟩ := mutates
  cases allowed

theorem lasting_layered : lasting.Layered where
  labels := allowing_labels _
  lasts := lasting_lasts
  older := by
    intro cell value member
    simp [lasting, allowing, Heap.empty, Heap.contents, Heap.contents?] at member

end World

/-- Whatever a client does without `->>` and without overwriting a variable itself, and whether
it fails or not: the lambdas in each cell captured older cells only. So no cell can be reached
from its contents, and no lambda from the scope that it captured. -/
theorem operate_without_mutation_acyclic {sink : Sink} {actions : List Client.Action}
    {client : Client} (within : ∀ action ∈ actions, action.Within World.lasting.policy)
    (operated : (Client.start sink).operate actions = some client) :
    (∀ cell, ∀ value ∈ client.bench.machine.heap.contents cell, ∀ closure, value.Holds closure →
      ∀ name captured, closure.scope.get? name = some captured → captured.index < cell.index) ∧
    (∀ cell, ¬ client.bench.machine.heap.Leads cell cell) ∧
    ∀ closure : Closure, ¬ closure.scope.ReachesClosure client.bench.machine.heap closure := by
  obtain ⟨world, evolves, serves⟩ :=
    (World.allowing_serves _ sink).operate within operated
  have layered : world.Layered := evolves.keeps World.Step.layered World.lasting_layered
  have older : client.bench.machine.heap.CapturesOlder := by
    have heap : client.bench.machine.heap = world.heap := serves.bench.drives
    rw [heap]
    exact layered.older
  refine ⟨older, ?_, older.not_reachesClosure⟩
  intro cell leads
  exact Nat.lt_irrefl _ (older.lt_of_leads leads)

/-- The lambda `() => (i)`, made where only `i` is bound. -/
def readingFirst : Closure :=
  ⟨0, [], Scope.empty.bind "i" ⟨0⟩, .tuple ⟨1, 8⟩ [.reference ⟨1, 9⟩ "i"]⟩

/-- The lambda `(g) => (g, missing)`, made where `i` is bound to a value and `f` to a lambda. -/
def failingLater : Closure :=
  ⟨1, ["g"], readingFirst.scope.bind "f" ⟨1⟩,
    .tuple ⟨1, 9⟩ [.reference ⟨1, 10⟩ "g", .reference ⟨1, 13⟩ "missing"]⟩

/-- Stores a value in `i`, the first lambda in `f` and the second one in `h`, and hands the first
one to the second, which fails. -/
def layeringActions : List Client.Action :=
  [.evaluate 3 0 (.binary ⟨1, 6⟩ .assign (.string ⟨1, 1⟩ "one") (.reference ⟨1, 9⟩ "i")),
    .evaluate 3 0 (.binary ⟨1, 13⟩ .assign (.lambda ⟨1, 1⟩ [] readingFirst.body)
      (.reference ⟨1, 16⟩ "f")),
    .evaluate 3 0 (.binary ⟨1, 23⟩ .assign (.lambda ⟨1, 1⟩ ["g"] failingLater.body)
      (.reference ⟨1, 26⟩ "h")),
    .call 3 0 "h" ⟨1, 1⟩ [1]]

def layeredClient : Client where
  bench := ⟨#[failingLater.scope.bind "h" ⟨2⟩],
    ⟨⟨#[[.string "one"], [.lambda readingFirst], [.lambda failingLater],
      [.lambda readingFirst]], 2⟩, .unlimited⟩⟩
  held := [.string "one", .lambda readingFirst, .lambda failingLater]

/-- The call fails after it has bound its parameter to the first lambda. Neither the cell of the
parameter nor the cell of the second lambda, which captured the first one, leads back to itself. -/
theorem operate_without_mutation_acyclic_parameter :
    (∀ action ∈ layeringActions, action.Within World.lasting.policy) ∧
      (Client.start .unlimited).operate layeringActions = some layeredClient ∧
      layeredClient.bench.machine.heap.contents ⟨3⟩ = [.lambda readingFirst] ∧
      (∀ name captured, readingFirst.scope.get? name = some captured → captured.index < 3) ∧
      (∀ name captured, failingLater.scope.get? name = some captured → captured.index < 2) ∧
      ¬ layeredClient.bench.machine.heap.Leads ⟨2⟩ ⟨2⟩ ∧
      ¬ failingLater.scope.ReachesClosure layeredClient.bench.machine.heap failingLater := by
  have within : ∀ action ∈ layeringActions, action.Within World.lasting.policy := by
    have runs (expression : Expression)
        (free : ∀ node ∈ expression.nodes, node.isMutation = false) :
        World.lasting.policy.Runs expression := free
    intro action member
    simp only [layeringActions, List.mem_cons, List.not_mem_nil, or_false] at member
    obtain rfl | rfl | rfl | rfl := member
    · exact runs _ (by decide)
    · exact runs _ (by decide)
    · exact runs _ (by decide)
    · trivial
  have operated : (Client.start .unlimited).operate layeringActions = some layeredClient := rfl
  obtain ⟨older, leads, reaches⟩ := operate_without_mutation_acyclic within operated
  exact ⟨within, operated, rfl, older ⟨3⟩ _ (List.mem_singleton_self _) readingFirst .lambda,
    older ⟨2⟩ _ (List.mem_singleton_self _) failingLater .lambda, leads ⟨2⟩, reaches failingLater⟩

end PipeLang
