import PipeLang.Heap

namespace PipeLang

/-! # What can be reached from a scope

A name leads to a cell, the cell to values, a tuple to its elements, and a lambda to the scope
that it captured. A run that starts in a scope has no other way to get at a cell, except that
it can make new ones.
-/

/-- Induction over values in which the hypothesis covers every element of a tuple. -/
@[elab_as_elim, induction_eliminator]
theorem Value.induction {motive : Value → Prop} (number : ∀ value, motive (.number value))
    (string : ∀ text, motive (.string text)) (boolean : ∀ value, motive (.boolean value))
    (tuple : ∀ elements, (∀ element ∈ elements, motive element) → motive (.tuple elements))
    (lambda : ∀ closure, motive (.lambda closure)) : ∀ value, motive value
  | .number value => number value
  | .string text => string text
  | .boolean value => boolean value
  | .tuple elements => tuple elements fun element _ =>
      induction number string boolean tuple lambda element
  | .lambda closure => lambda closure

/-- The closures that are part of a value. -/
inductive Value.Holds (closure : Closure) : Value → Prop
  | lambda : Holds closure (.lambda closure)
  | tuple {elements : List Value} {value : Value} (member : value ∈ elements)
      (inside : Holds closure value) : Holds closure (.tuple elements)

namespace Scope

/-- Some variable of the scope has the closure among its values. -/
def Holds (scope : Scope) (heap : Heap) (closure : Closure) : Prop :=
  ∃ name cell value, scope.get? name = some cell ∧ value ∈ heap.contents cell ∧ value.Holds closure

inductive Reaches (heap : Heap) (root : Scope) : Scope → Prop
  | root : Reaches heap root root
  | captured {scope : Scope} {closure : Closure} (reached : Reaches heap root scope)
      (held : scope.Holds heap closure) : Reaches heap root closure.scope

def ReachesClosure (heap : Heap) (root : Scope) (closure : Closure) : Prop :=
  ∃ scope, Reaches heap root scope ∧ scope.Holds heap closure

end Scope

end PipeLang
