namespace PipeLang

/-!
# Scopes

A scope binds names to cells. Values are kept in the cells, so a copy of a scope sees
what is written through the other copy, but not the names that are bound there later.
-/

/-- A place in the heap that holds the values of a variable. -/
structure Cell where
  index : Nat
deriving DecidableEq, Repr

/-- The bindings of a scope, the latest first and at most one for each name. -/
structure Scope where
  bindings : List (String × Cell)
deriving DecidableEq, Repr

namespace Scope

def empty : Scope := ⟨[]⟩

def get? (scope : Scope) (name : String) : Option Cell :=
  scope.bindings.lookup name

/-- Binds a name to a cell in place of the one it was bound to before. -/
def bind (scope : Scope) (name : String) (cell : Cell) : Scope :=
  ⟨(name, cell) :: scope.bindings.filter (·.1 != name)⟩

private theorem lookup_filter_ne (bindings : List (String × Cell)) {name other : String}
    (different : other ≠ name) :
    (bindings.filter (·.1 != name)).lookup other = bindings.lookup other := by
  induction bindings with
  | nil => rfl
  | cons binding rest ih =>
      obtain ⟨bound, cell⟩ := binding
      by_cases same : bound = name
      · subst same
        have apart : (other == bound) = false := by simpa using different
        simp [List.lookup_cons, apart, ih]
      · simp [same, List.lookup_cons, ih]

@[simp] theorem get?_bind_self (scope : Scope) (name : String) (cell : Cell) :
    (scope.bind name cell).get? name = some cell := by
  simp [get?, bind]

theorem get?_bind_of_ne (scope : Scope) {name other : String} (cell : Cell)
    (different : other ≠ name) : (scope.bind name cell).get? other = scope.get? other := by
  have apart : (other == name) = false := by simpa using different
  simp [get?, bind, List.lookup_cons, apart, lookup_filter_ne _ different]

end Scope

end PipeLang
