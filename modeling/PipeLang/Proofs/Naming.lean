import PipeLang.Proofs.Client

namespace PipeLang

/-! # One cell, one name

A cell is allocated for a name and never gets another one: copies of scopes, captured scopes and
parameters pass on the names as they are. So two variables share a cell only if they have the
same name, and overwriting one variable is not seen under another name.
-/

namespace World

variable {world later : World}

/-- Every name stands for cells that exist, and no two names for the same one. -/
structure Labels (world : World) : Prop where
  unique : ∀ name label cell, world.policy.Binds name cell → world.policy.Binds label cell →
    name = label
  allocated : ∀ name cell, world.policy.Binds name cell → world.heap.Allocated cell

theorem Step.labels (step : world.Step later) (labels : world.Labels) : later.Labels := by
  cases step with
  | define name supplied =>
      -- The new cell did not exist before, so it had no name.
      have nameless (label : String) : ¬ world.policy.Binds label world.heap.next :=
        fun binds => Nat.lt_irrefl _ (labels.allocated label _ binds)
      constructor
      · rintro first second cell (old | ⟨rfl, new⟩) (other | ⟨rfl, same⟩)
        · exact labels.unique first second cell old other
        · exact absurd (same ▸ old) (nameless first)
        · exact absurd (new ▸ other) (nameless second)
        · rfl
      · rintro label cell (old | ⟨_, new⟩)
        · exact Heap.allocated_allocate.mpr (.inl (labels.allocated label cell old))
        · exact Heap.allocated_allocate.mpr (.inr new)
  | write mutates binds supplied =>
      exact ⟨labels.unique, fun name cell bound =>
        Heap.allocated_write.mpr (labels.allocated name cell bound)⟩
  | close => exact ⟨labels.unique, labels.allocated⟩

/-- The world in which nothing has happened, and only such nodes may be evaluated. -/
def allowing (allows : Expression → Prop) : World where
  policy := ⟨allows, fun _ _ => False, fun _ => True⟩
  heap := .empty
  admitted _ _ binds := binds.elim

theorem allowing_labels (allows : Expression → Prop) : (allowing allows).Labels :=
  ⟨fun _ _ _ binds => binds.elim, fun _ _ binds => binds.elim⟩

theorem allowing_serves (allows : Expression → Prop) (sink : Sink) :
    (allowing allows).Serves (Client.start sink) := by
  refine ⟨⟨rfl, fun scope member => ?_⟩, .nil⟩
  cases List.mem_singleton.mp (Array.mem_toList_iff.mpr member)
  exact .empty

/-- The world in which nothing has happened, and everything may. -/
def initial : World where
  policy := ⟨fun _ => True, fun _ _ => False, fun _ => True⟩
  heap := .empty
  admitted _ _ binds := binds.elim

theorem initial_labels : initial.Labels :=
  allowing_labels fun _ => True

theorem initial_serves (sink : Sink) : initial.Serves (Client.start sink) :=
  allowing_serves (fun _ => True) sink

end World

theorem Client.Action.within_of_allows {policy : Policy}
    (all : ∀ expression, policy.Allows expression) (action : Client.Action) :
    action.Within policy := by
  have runs (expression : Expression) : policy.Runs expression := fun node _ => all node
  cases action with
  | make operand => exact fun body _ => runs body
  | replace number name chosen => exact ⟨⟨1, 1⟩, .tuple ⟨1, 1⟩ [], ⟨1, 1⟩, all _⟩
  | evaluate steps number expression => exact runs expression
  | serve steps number request =>
      cases request with
      | source text => exact fun program _ => runs program
      | file contents? => exact fun text program _ _ => runs program
  | _ => trivial

theorem contents_of_mutate {run : Evaluator} {rounds : Nat} {values : List Value}
    {location : Location} {name : String} {frame after : Frame} {cell : Cell}
    (left : (applyOperator run rounds .mutate values (.reference location name) frame).Leaves after)
    (apart : frame.scope.get? name ≠ some cell) :
    after.machine.heap.contents cell = frame.machine.heap.contents cell := by
  simp only [applyOperator] at left
  split at left
  next written bound =>
    obtain ⟨_, same⟩ | ⟨_, same⟩ := left <;> cases same
    exact Heap.contents_write_of_ne values fun same => apart (same ▸ bound)
  next =>
    obtain ⟨_, same⟩ | ⟨_, same⟩ := left <;> cases same
    rfl

theorem Client.world_of_operate {sink : Sink} {actions : List Client.Action} {client : Client}
    (operated : (Client.start sink).operate actions = some client) :
    ∃ world : World, World.initial.Evolves world ∧ world.Serves client :=
  (World.initial_serves sink).operate
    (fun action _ => action.within_of_allows fun _ => trivial) operated

theorem Client.labels_of_operate {sink : Sink} {actions : List Client.Action} {client : Client}
    (operated : (Client.start sink).operate actions = some client) :
    ∃ world : World, world.Labels ∧ world.Serves client := by
  obtain ⟨world, evolves, serves⟩ := Client.world_of_operate operated
  exact ⟨world, evolves.keeps World.Step.labels World.initial_labels, serves⟩

/-- Whatever a client does, and whether it fails or not: variables of live scopes that share a
cell have the same name, their cells exist, and `->>` on one of them changes no variable of
another name. -/
theorem operate_names_cells_once {sink : Sink} {actions : List Client.Action} {client : Client}
    (operated : (Client.start sink).operate actions = some client) :
    (∀ scope other name label cell, client.Live scope → client.Live other →
      scope.get? name = some cell → other.get? label = some cell → name = label) ∧
    (∀ scope name cell, client.Live scope → scope.get? name = some cell →
      client.bench.machine.heap.Allocated cell) ∧
    ∀ scope other name label cell, client.Live scope → client.Live other → name ≠ label →
      other.get? label = some cell →
      ∀ run rounds values location after,
        (applyOperator run rounds .mutate values (.reference location name)
          ⟨scope, client.bench.machine⟩).Leaves after →
        after.machine.heap.contents cell = client.bench.machine.heap.contents cell := by
  obtain ⟨world, labels, serves⟩ := Client.labels_of_operate operated
  have binds {scope : Scope} {name : String} {cell : Cell} (live : client.Live scope)
      (bound : scope.get? name = some cell) : world.policy.Binds name cell :=
    serves.live live name cell bound
  refine ⟨?_, ?_, ?_⟩
  · intro scope other name label cell live alive bound shared
    exact labels.unique name label cell (binds live bound) (binds alive shared)
  · intro scope name cell live bound
    have allocated := labels.allocated name cell (binds live bound)
    rwa [← serves.bench.drives] at allocated
  · intro scope other name label cell live alive different shared _ _ _ _ _ left
    apply contents_of_mutate left
    intro bound
    exact different (labels.unique name label cell (binds live bound) (binds alive shared))

/-- The lambda `() => "new" ->> i`, made where only `i` is bound. -/
def renewing : Closure :=
  ⟨0, [], Scope.empty.bind "i" ⟨0⟩,
    .binary ⟨1, 14⟩ .mutate (.string ⟨1, 8⟩ "new") (.reference ⟨1, 18⟩ "i")⟩

/-- Binds `i`, stores the lambda in `f`, fails after `j` is bound, and calls the lambda. -/
def renewingActions : List Client.Action :=
  [.evaluate 3 0 (.binary ⟨1, 7⟩ .assign (.string ⟨1, 1⟩ "old") (.reference ⟨1, 10⟩ "i")),
    .evaluate 3 0 (.binary ⟨1, 21⟩ .assign (.lambda ⟨1, 2⟩ [] renewing.body)
      (.reference ⟨1, 24⟩ "f")),
    .evaluate 3 0 (.tuple ⟨1, 1⟩
      [.binary ⟨1, 7⟩ .assign (.boolean ⟨1, 2⟩ true) (.reference ⟨1, 10⟩ "j"),
        .reference ⟨1, 13⟩ "missing"]),
    .call 3 0 "f" ⟨1, 1⟩ []]

def renewedClient : Client where
  bench := ⟨#[((renewing.scope.bind "f" ⟨1⟩).bind "j" ⟨2⟩)],
    ⟨⟨#[[.string "new"], [.lambda renewing], [.boolean true]], 1⟩, .unlimited⟩⟩
  held := [.string "old", .lambda renewing, .string "new"]

/-- The scope that the lambda captured shares a cell with the scope of the client, and there no
name but `i` leads to that cell. What the failed evaluation bound is there. -/
theorem operate_names_cells_once_renewed :
    (Client.start .unlimited).operate renewingActions = some renewedClient ∧
      renewedClient.Live renewing.scope ∧
      (∀ label, renewedClient.bench.cell? 0 label = some ⟨0⟩ → "i" = label) ∧
      renewedClient.bench.cell? 0 "j" = some ⟨2⟩ ∧
      renewedClient.bench.machine.heap.Allocated ⟨2⟩ := by
  have operated : (Client.start .unlimited).operate renewingActions = some renewedClient := rfl
  obtain ⟨unique, allocated, _⟩ := operate_names_cells_once operated
  have captured : renewedClient.Live renewing.scope := by
    have member : Value.lambda renewing ∈ renewedClient.held :=
      List.mem_cons_of_mem _ (List.mem_cons_self ..)
    exact ⟨_, .inr ⟨_, member, renewing, .lambda, rfl⟩, .root⟩
  have live : renewedClient.Live (renewedClient.bench.scope 0) :=
    ⟨_, .inl (Array.mem_singleton_self _), .root⟩
  exact ⟨operated, captured, fun label bound => unique _ _ "i" label ⟨0⟩ captured live rfl bound,
    rfl, allocated _ "j" ⟨2⟩ live rfl⟩

end PipeLang
