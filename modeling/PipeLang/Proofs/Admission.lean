import PipeLang.Proofs.Answers
import PipeLang.Proofs.Nodes
import PipeLang.Proofs.Reach

namespace PipeLang

/-! # Policies

A policy restricts what a run may do: which nodes it evaluates, under which names it binds a
cell, and which cells it overwrites. A value is admitted if its lambdas keep to the policy: their
bodies are made of allowed nodes, and they captured names together with cells they may stand for.
-/

structure Policy where
  /-- The node may occur in what is evaluated. -/
  Allows : Expression → Prop
  /-- The name may stand for the cell. -/
  Binds : String → Cell → Prop
  /-- The contents of the cell may be replaced. -/
  Writes : Cell → Prop

namespace Policy

variable {policy later last : Policy} {scope : Scope} {values : List Value}

def Runs (policy : Policy) (expression : Expression) : Prop :=
  ∀ node ∈ expression.nodes, policy.Allows node

def AdmitsScope (policy : Policy) (scope : Scope) : Prop :=
  ∀ name cell, scope.get? name = some cell → policy.Binds name cell

def AdmitsClosure (policy : Policy) (closure : Closure) : Prop :=
  policy.Runs closure.body ∧ policy.AdmitsScope closure.scope

def AdmitsValues (policy : Policy) (values : List Value) : Prop :=
  ∀ value ∈ values, ∀ closure, value.Holds closure → policy.AdmitsClosure closure

section Parts

variable {location : Location}

theorem Runs.self {expression : Expression} (runs : policy.Runs expression) :
    policy.Allows expression :=
  runs expression (Expression.self_mem_nodesWith true expression)

theorem Runs.element {element : Expression} {elements : List Expression}
    (runs : policy.Runs (.tuple location elements)) (member : element ∈ elements) :
    policy.Runs element :=
  fun node inside => runs node (Expression.mem_nodesWith_tuple.mpr (.inr ⟨element, member, inside⟩))

theorem Runs.body {parameters : List String} {body : Expression}
    (runs : policy.Runs (.lambda location parameters body)) : policy.Runs body :=
  fun node inside => runs node (Expression.mem_nodes_lambda.mpr (.inr inside))

theorem Runs.left {operator : Operator} {left right : Expression}
    (runs : policy.Runs (.binary location operator left right)) : policy.Runs left :=
  fun node inside => runs node (Expression.mem_nodesWith_binary.mpr (.inr (.inl inside)))

theorem Runs.right {operator : Operator} {left right : Expression}
    (runs : policy.Runs (.binary location operator left right)) : policy.Runs right :=
  fun node inside => runs node (Expression.mem_nodesWith_binary.mpr (.inr (.inr inside)))

end Parts

theorem AdmitsValues.nil : policy.AdmitsValues [] := by
  intro value member
  cases member

theorem AdmitsValues.append {others : List Value} (first : policy.AdmitsValues values)
    (second : policy.AdmitsValues others) : policy.AdmitsValues (values ++ others) := by
  intro value member
  rcases List.mem_append.mp member with member | member
  · exact first value member
  · exact second value member

theorem AdmitsValues.of_plain (plain : ∀ value ∈ values, ∀ closure, ¬ value.Holds closure) :
    policy.AdmitsValues values := by
  intro value member closure holds
  exact absurd holds (plain value member closure)

theorem AdmitsValues.tuple (admitted : policy.AdmitsValues values) :
    policy.AdmitsValues [.tuple values] := by
  intro value member closure holds
  cases List.mem_singleton.mp member
  cases holds with
  | tuple member inside => exact admitted _ member closure inside

theorem AdmitsValues.lambda {closure : Closure} (admitted : policy.AdmitsClosure closure) :
    policy.AdmitsValues [.lambda closure] := by
  intro value member other holds
  cases List.mem_singleton.mp member
  cases holds
  exact admitted

theorem AdmitsValues.closure {closure : Closure} (admitted : policy.AdmitsValues values)
    (member : .lambda closure ∈ values) : policy.AdmitsClosure closure :=
  admitted _ member closure .lambda

theorem AdmitsScope.empty : policy.AdmitsScope .empty := by
  intro name cell bound
  cases bound

theorem AdmitsScope.bind {name : String} {cell : Cell} (admitted : policy.AdmitsScope scope)
    (binds : policy.Binds name cell) : policy.AdmitsScope (scope.bind name cell) := by
  intro other found bound
  by_cases same : other = name
  · subst same
    rw [Scope.get?_bind_self] at bound
    cases bound
    exact binds
  · rw [Scope.get?_bind_of_ne _ _ same] at bound
    exact admitted other found bound

/-- Something that may be evaluated overwrites the name. -/
def Mutates (policy : Policy) (name : String) : Prop :=
  ∃ location left place, policy.Allows (.binary location .mutate left (.reference place name))

/-- The name may stand for one more cell. -/
def give (policy : Policy) (name : String) (cell : Cell) : Policy :=
  { policy with Binds := fun other place => policy.Binds other place ∨ other = name ∧ place = cell }

structure Extends (policy later : Policy) : Prop where
  allows : later.Allows = policy.Allows
  binds : ∀ name cell, policy.Binds name cell → later.Binds name cell

theorem Extends.refl (policy : Policy) : policy.Extends policy :=
  ⟨rfl, fun _ _ binds => binds⟩

theorem Extends.trans (first : policy.Extends later) (second : later.Extends last) :
    policy.Extends last :=
  ⟨second.allows.trans first.allows, fun name cell binds =>
    second.binds name cell (first.binds name cell binds)⟩

theorem extends_give (policy : Policy) (name : String) (cell : Cell) :
    policy.Extends (policy.give name cell) :=
  ⟨rfl, fun _ _ => .inl⟩

theorem Mutates.mono {name : String} (mutates : policy.Mutates name)
    (extended : policy.Extends later) : later.Mutates name := by
  obtain ⟨location, left, place, allowed⟩ := mutates
  exact ⟨location, left, place, extended.allows ▸ allowed⟩

theorem Runs.mono {expression : Expression} (runs : policy.Runs expression)
    (extended : policy.Extends later) : later.Runs expression := by
  intro node inside
  rw [extended.allows]
  exact runs node inside

theorem AdmitsScope.mono (admitted : policy.AdmitsScope scope) (extended : policy.Extends later) :
    later.AdmitsScope scope :=
  fun name cell bound => extended.binds name cell (admitted name cell bound)

theorem AdmitsClosure.mono {closure : Closure} (admitted : policy.AdmitsClosure closure)
    (extended : policy.Extends later) : later.AdmitsClosure closure :=
  ⟨admitted.1.mono extended, admitted.2.mono extended⟩

theorem AdmitsValues.mono (admitted : policy.AdmitsValues values)
    (extended : policy.Extends later) : later.AdmitsValues values :=
  fun value member closure holds => (admitted value member closure holds).mono extended

end Policy

end PipeLang
