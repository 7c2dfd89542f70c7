import Mathlib
import PipeLang.Expression.Render
import PipeLang.Proofs.Nodes

namespace PipeLang.Expression

/-! # The walk that a tree form draws

The tree form is put together from below: the lines of a child are drawn first and moved to the
right afterwards, once for each of its ancestors. Read from above it is a walk through the
expression, in which the line of a node tells the turns that lead to it.
-/

/-- The parts of an expression, from left to right. -/
def children : Expression → List Expression
  | .tuple _ elements => elements
  | .lambda _ _ body => [body]
  | .binary _ _ left right => [left, right]
  | .number .. => []
  | .string .. => []
  | .boolean .. => []
  | .reference .. => []

/-- A way down to a child: its index, and how many children there are. -/
structure Turn where
  index : Nat
  count : Nat
deriving DecidableEq, Repr

def Turn.last (turn : Turn) : Bool :=
  turn.index + 1 == turn.count

/-- The turns lead from an expression to a node. -/
inductive Leads : Expression → List Turn → Expression → Prop where
  | here {expression : Expression} : Leads expression [] expression
  | down {expression child node : Expression} {index : Nat} {path : List Turn}
      (found : expression.children[index]? = some child) (onward : Leads child path node) :
      Leads expression (⟨index, expression.children.length⟩ :: path) node

/-- What stands in front of the line of a node. The last turn gives the line that connects it
to its parent, and each turn before that the line that passes by on its left. -/
def drawn : List Turn → String
  | [] => ""
  | [turn] => if turn.last then corner else branch
  | turn :: next :: path => (if turn.last then margin else trunk) ++ drawn (next :: path)

/-- A node, with the turns that lead to it. -/
abbrev Visit := List Turn × Expression

namespace Visit

def line (visit : Visit) : String :=
  drawn visit.1 ++ visit.2.nodeLine

/-- The visit as seen from one node higher up. -/
def below (turn : Turn) (visit : Visit) : Visit :=
  (turn :: visit.1, visit.2)

end Visit

mutual

/-- The nodes of an expression, each before its children and these from left to right. -/
def walk : Expression → List Visit
  | .tuple location elements =>
      ([], .tuple location elements) :: walkFrom 0 elements.length elements
  | .lambda location parameters body =>
      ([], .lambda location parameters body) :: (walk body).map (.below ⟨0, 1⟩)
  | .binary location operator left right =>
      ([], .binary location operator left right) ::
        ((walk left).map (.below ⟨0, 2⟩) ++ (walk right).map (.below ⟨1, 2⟩))
  | leaf => [([], leaf)]

/-- The walks through the children from the given index on, of so many in all. -/
def walkFrom (index count : Nat) : List Expression → List Visit
  | [] => []
  | child :: others => (walk child).map (.below ⟨index, count⟩) ++ walkFrom (index + 1) count others

end

/-- What holds of an expression if it holds of its children holds of all expressions. -/
theorem induction_children {motive : Expression → Prop}
    (step : ∀ expression : Expression, (∀ child ∈ expression.children, motive child) →
      motive expression) (expression : Expression) : motive expression := by
  induction expression with
  | number | string | boolean | reference => exact step _ (by simp [children])
  | tuple location elements ih => exact step _ ih
  | lambda location parameters body ih => exact step _ (by simpa [children] using ih)
  | binary location operator left right leftIH rightIH =>
      exact step _ (by simpa [children] using ⟨leftIH, rightIH⟩)

theorem treeLines_eq (expression : Expression) :
    expression.treeLines = expression.nodeLine :: childLines expression.children := by
  cases expression <;> rfl

theorem walk_eq (expression : Expression) :
    expression.walk =
      ([], expression) :: walkFrom 0 expression.children.length expression.children := by
  cases expression <;> simp [walk, walkFrom, children]

theorem nodes_eq (expression : Expression) :
    expression.nodes = expression :: nodesOfEach true expression.children := by
  cases expression <;> simp [nodes, nodesWith, nodesOfEach, children]

variable {expression child node : Expression} {elements : List Expression} {index count : Nat}
  {path : List Turn} {turn : Turn} {visit : Visit}

theorem drawn_cons (some : path ≠ []) :
    drawn (turn :: path) = (if turn.last then margin else trunk) ++ drawn path := by
  cases path with
  | nil => exact absurd rfl some
  | cons next path => rfl

theorem mem_walkFrom :
    visit ∈ walkFrom index count elements ↔ ∃ (place : Nat) (child : Expression) (inner : Visit),
      elements[place]? = some child ∧ inner ∈ child.walk ∧
        visit = .below ⟨index + place, count⟩ inner := by
  induction elements generalizing index with
  | nil => simp [walkFrom]
  | cons first others ih =>
      simp only [walkFrom, List.mem_append, List.mem_map, ih]
      constructor
      · rintro (⟨inner, member, rfl⟩ | ⟨place, child, inner, found, member, rfl⟩)
        · exact ⟨0, first, inner, rfl, member, rfl⟩
        · refine ⟨place + 1, child, inner, found, member, ?_⟩
          rw [Nat.add_right_comm, Nat.add_assoc]
      · rintro ⟨_ | place, child, inner, found, member, rfl⟩
        · cases found
          exact .inl ⟨inner, member, rfl⟩
        · refine .inr ⟨place, child, inner, found, member, ?_⟩
          rw [Nat.add_right_comm, Nat.add_assoc]

theorem path_ne_nil_of_mem_walkFrom (member : visit ∈ walkFrom index count elements) :
    visit.1 ≠ [] := by
  obtain ⟨place, child, inner, -, -, rfl⟩ := mem_walkFrom.mp member
  exact List.cons_ne_nil _ _

/-- Moving the lines of a child to the right draws the turn that leads to it. -/
theorem indent_lines (turn : Turn) (drawsChild : child.treeLines = child.walk.map Visit.line) :
    indent (if turn.last then corner else branch) (if turn.last then margin else trunk)
      child.treeLines = (child.walk.map (Visit.below turn)).map Visit.line := by
  have root : (if turn.last then corner else branch) ++ Visit.line ([], child) =
      Visit.line (.below turn ([], child)) := by
    simp [Visit.line, Visit.below, drawn]
  have others : ∀ visit ∈ walkFrom 0 child.children.length child.children,
      (if turn.last then margin else trunk) ++ visit.line = (visit.below turn).line := by
    intro visit member
    simp only [Visit.line, Visit.below, drawn_cons (path_ne_nil_of_mem_walkFrom member),
      String.append_assoc]
  rw [drawsChild, walk_eq]
  simp only [List.map_cons, indent, List.map_map]
  exact congrArg₂ List.cons root (List.map_congr_left others)

theorem childLines_eq (all : index + elements.length = count)
    (drawsEach : ∀ child ∈ elements, child.treeLines = child.walk.map Visit.line) :
    childLines elements = (walkFrom index count elements).map Visit.line := by
  induction elements generalizing index with
  | nil => simp [childLines, walkFrom]
  | cons child others ih =>
      have first := indent_lines ⟨index, count⟩ (drawsEach child List.mem_cons_self)
      have rest := @ih (index + 1) (by simp only [List.length_cons] at all; omega)
        fun other member => drawsEach other (List.mem_cons_of_mem child member)
      rw [walkFrom, List.map_append, ← first, ← rest]
      -- The first child is the last one exactly if there are no others.
      cases others with
      | nil =>
          have last : Turn.last ⟨index, count⟩ = true := by simpa [Turn.last] using all
          simp [childLines, last]
      | cons next others =>
          have notLast : Turn.last ⟨index, count⟩ = false := by
            simp only [List.length_cons] at all
            simp only [Turn.last, beq_eq_false_iff_ne]
            omega
          simp [childLines, notLast]

theorem treeLines_eq_walk (expression : Expression) :
    expression.treeLines = expression.walk.map Visit.line := by
  induction expression using induction_children with
  | step expression ih =>
      rw [treeLines_eq, walk_eq, List.map_cons, childLines_eq (Nat.zero_add _) ih]
      simp [Visit.line, drawn]

theorem leads_nil : expression.Leads [] node ↔ node = expression := by
  constructor
  · rintro ⟨⟩
    rfl
  · rintro rfl
    exact .here

theorem leads_cons :
    expression.Leads (turn :: path) node ↔ turn.count = expression.children.length ∧
      ∃ child, expression.children[turn.index]? = some child ∧ child.Leads path node := by
  constructor
  · intro leads
    cases leads with
    | down found onward => exact ⟨rfl, _, found, onward⟩
  · rintro ⟨same, child, found, onward⟩
    obtain ⟨index, count⟩ := turn
    subst same
    exact .down found onward

theorem mem_walk_iff_leads (expression : Expression) (path : List Turn) (node : Expression) :
    (path, node) ∈ expression.walk ↔ expression.Leads path node := by
  induction expression using induction_children generalizing path with
  | step expression ih =>
      rw [walk_eq, List.mem_cons, mem_walkFrom]
      cases path with
      | nil => simp [leads_nil, Visit.below]
      | cons turn path =>
          rw [leads_cons]
          constructor
          · rintro (same | ⟨place, child, inner, found, member, same⟩)
            · simp at same
            · cases same
              rw [Nat.zero_add]
              exact ⟨rfl, child, found,
                (ih child (List.mem_of_getElem? found) inner.1).mp member⟩
          · rintro ⟨same, child, found, onward⟩
            refine .inr ⟨turn.index, child, (path, node), found, ?_, ?_⟩
            · exact (ih child (List.mem_of_getElem? found) path).mpr onward
            · simp [Visit.below, ← same]

end PipeLang.Expression
