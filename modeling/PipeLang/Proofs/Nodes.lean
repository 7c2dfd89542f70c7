import PipeLang.Expression.Basic

namespace PipeLang.Expression

/-! # Nodes of an expression

Statements about "some node of an expression" come in two readings. A lambda only runs its
body when it is called, so the effect that an expression has on its own scope is decided by
the nodes outside all lambda bodies, whereas its effect on cells is decided by all nodes.
-/

/-- Induction over expressions in which the hypothesis covers every element of a tuple. -/
@[elab_as_elim, induction_eliminator]
theorem induction {motive : Expression → Prop}
    (number : ∀ location value, motive (.number location value))
    (string : ∀ location text, motive (.string location text))
    (boolean : ∀ location value, motive (.boolean location value))
    (reference : ∀ location name, motive (.reference location name))
    (tuple : ∀ location elements, (∀ element ∈ elements, motive element) →
      motive (.tuple location elements))
    (lambda : ∀ location parameters body, motive body → motive (.lambda location parameters body))
    (binary : ∀ location operator left right, motive left → motive right →
      motive (.binary location operator left right)) : ∀ expression, motive expression
  | .number location value => number location value
  | .string location text => string location text
  | .boolean location value => boolean location value
  | .reference location name => reference location name
  | .tuple location elements => tuple location elements fun element _ =>
      induction number string boolean reference tuple lambda binary element
  | .lambda location parameters body => lambda location parameters body
      (induction number string boolean reference tuple lambda binary body)
  | .binary location operator left right => binary location operator left right
      (induction number string boolean reference tuple lambda binary left)
      (induction number string boolean reference tuple lambda binary right)

mutual

/-- The nodes of an expression, the root first. Those in lambda bodies are listed on demand. -/
def nodesWith (bodies : Bool) : Expression → List Expression
  | .tuple location elements => .tuple location elements :: nodesOfEach bodies elements
  | .lambda location parameters body =>
      .lambda location parameters body :: if bodies then nodesWith bodies body else []
  | .binary location operator left right =>
      .binary location operator left right :: (nodesWith bodies left ++ nodesWith bodies right)
  | leaf => [leaf]

def nodesOfEach (bodies : Bool) : List Expression → List Expression
  | [] => []
  | element :: others => nodesWith bodies element ++ nodesOfEach bodies others

end

def nodes : Expression → List Expression := nodesWith true

def outerNodes : Expression → List Expression := nodesWith false

/-- The variable to the right of an operator. -/
def target? (operator : Operator) : Expression → Option String
  | .binary _ found _ (.reference _ name) => if found = operator then some name else none
  | _ => none

/-- The names that an expression assigns in its own scope. -/
def assigned (expression : Expression) : List String :=
  expression.outerNodes.filterMap (target? .assign)

/-- The names through which an expression, or a lambda in it, overwrites a cell. -/
def overwritten (expression : Expression) : List String :=
  expression.nodes.filterMap (target? .mutate)

variable {bodies : Bool} {node : Expression} {name : String}

theorem mem_nodesOfEach {elements : List Expression} :
    node ∈ nodesOfEach bodies elements ↔ ∃ element ∈ elements, node ∈ nodesWith bodies element := by
  induction elements with
  | nil => simp [nodesOfEach]
  | cons element others ih => simp [nodesOfEach, ih]

theorem self_mem_nodesWith (bodies : Bool) (expression : Expression) :
    expression ∈ nodesWith bodies expression := by
  cases expression <;> simp [nodesWith]

theorem mem_nodesWith_tuple {location : Location} {elements : List Expression} :
    node ∈ nodesWith bodies (.tuple location elements) ↔
      node = .tuple location elements ∨ ∃ element ∈ elements, node ∈ nodesWith bodies element := by
  simp [nodesWith, mem_nodesOfEach]

theorem mem_nodesWith_binary {location : Location} {operator : Operator} {left right : Expression} :
    node ∈ nodesWith bodies (.binary location operator left right) ↔
      node = .binary location operator left right ∨ node ∈ nodesWith bodies left ∨
        node ∈ nodesWith bodies right := by
  simp [nodesWith]

theorem mem_assigned_tuple {location : Location} {elements : List Expression} :
    name ∈ (Expression.tuple location elements).assigned ↔
      ∃ element ∈ elements, name ∈ element.assigned := by
  simp only [assigned, outerNodes, List.mem_filterMap, mem_nodesWith_tuple]
  constructor
  · rintro ⟨node, rfl | ⟨element, member, inside⟩, found⟩
    · cases found
    · exact ⟨element, member, node, inside, found⟩
  · rintro ⟨element, member, node, inside, found⟩
    exact ⟨node, .inr ⟨element, member, inside⟩, found⟩

theorem mem_assigned_binary {location : Location} {operator : Operator} {left right : Expression} :
    name ∈ (Expression.binary location operator left right).assigned ↔
      target? .assign (.binary location operator left right) = some name ∨
        name ∈ left.assigned ∨ name ∈ right.assigned := by
  simp only [assigned, outerNodes, List.mem_filterMap, mem_nodesWith_binary]
  constructor
  · rintro ⟨node, rfl | inside | inside, found⟩
    · exact .inl found
    · exact .inr (.inl ⟨node, inside, found⟩)
    · exact .inr (.inr ⟨node, inside, found⟩)
  · rintro (found | ⟨node, inside, found⟩ | ⟨node, inside, found⟩)
    · exact ⟨_, .inl rfl, found⟩
    · exact ⟨node, .inr (.inl inside), found⟩
    · exact ⟨node, .inr (.inr inside), found⟩

theorem mem_nodes_lambda {location : Location} {parameters : List String} {body : Expression} :
    node ∈ nodes (.lambda location parameters body) ↔
      node = .lambda location parameters body ∨ node ∈ nodes body := by
  simp [nodes, nodesWith]

theorem mem_overwritten {expression : Expression} :
    name ∈ expression.overwritten ↔ ∃ node ∈ expression.nodes, target? .mutate node = some name :=
  List.mem_filterMap

end PipeLang.Expression
