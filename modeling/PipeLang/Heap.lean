import PipeLang.Value

namespace PipeLang

/-!
# The heap

The heap holds the contents of all cells that were ever allocated, in the order of
their allocation. A cell holds a list of values, and writing replaces the whole list.
-/

structure Heap where
  cells : Array (List Value)
  /-- How many closures have been made; the next one has this identity. -/
  closures : Nat

namespace Heap

def empty : Heap := ⟨#[], 0⟩

def contents? (heap : Heap) (cell : Cell) : Option (List Value) :=
  heap.cells[cell.index]?

/-- The values in a cell; a cell that is not allocated holds none. -/
def contents (heap : Heap) (cell : Cell) : List Value :=
  (heap.contents? cell).getD []

/-- The cell that the next allocation gives. -/
def next (heap : Heap) : Cell :=
  ⟨heap.cells.size⟩

def allocate (heap : Heap) (values : List Value) : Heap :=
  { heap with cells := heap.cells.push values }

/-- Replaces the contents of a cell. -/
def write (heap : Heap) (cell : Cell) (values : List Value) : Heap :=
  { heap with cells := heap.cells.setIfInBounds cell.index values }

/-- Binds a name to a new cell with the given contents. -/
def define (heap : Heap) (scope : Scope) (name : String) (values : List Value) : Scope × Heap :=
  (scope.bind name heap.next, heap.allocate values)

/-- Makes a closure that differs from all made before. -/
def close (heap : Heap) (parameters : List String) (scope : Scope) (body : Expression) :
    Closure × Heap :=
  (⟨heap.closures, parameters, scope, body⟩, { heap with closures := heap.closures + 1 })

/-- The cell exists. -/
def Allocated (heap : Heap) (cell : Cell) : Prop :=
  cell.index < heap.cells.size

instance (heap : Heap) (cell : Cell) : Decidable (heap.Allocated cell) :=
  inferInstanceAs (Decidable (cell.index < heap.cells.size))

@[simp] theorem contents_allocate_next (heap : Heap) (values : List Value) :
    (heap.allocate values).contents heap.next = values := by
  simp [contents, contents?, allocate, next]

theorem contents_allocate_of_ne {heap : Heap} {cell : Cell} (values : List Value)
    (different : cell ≠ heap.next) : (heap.allocate values).contents cell = heap.contents cell := by
  have apart : cell.index ≠ heap.cells.size := by
    intro same
    apply different
    cases cell
    simp_all [next]
  simp [contents, contents?, allocate, Array.getElem?_push, apart]

theorem contents_allocate_of_allocated {heap : Heap} {cell : Cell} (values : List Value)
    (allocated : heap.Allocated cell) :
    (heap.allocate values).contents cell = heap.contents cell := by
  apply contents_allocate_of_ne
  rintro rfl
  exact Nat.lt_irrefl _ allocated

theorem contents_write_self {heap : Heap} {cell : Cell} (values : List Value)
    (allocated : heap.Allocated cell) : (heap.write cell values).contents cell = values := by
  have inside : cell.index < heap.cells.size := allocated
  simp [contents, contents?, write, inside]

theorem write_of_not_allocated {heap : Heap} {cell : Cell} (values : List Value)
    (absent : ¬ heap.Allocated cell) : heap.write cell values = heap := by
  have outside : ¬ cell.index < heap.cells.size := absent
  simp [write, Array.setIfInBounds, outside]

theorem contents_of_not_allocated {heap : Heap} {cell : Cell} (absent : ¬ heap.Allocated cell) :
    heap.contents cell = [] := by
  have outside : heap.cells.size ≤ cell.index := Nat.le_of_not_lt absent
  simp [contents, contents?, outside]

theorem allocated_of_mem_contents {heap : Heap} {cell : Cell} {value : Value}
    (member : value ∈ heap.contents cell) : heap.Allocated cell := by
  apply Decidable.byContradiction
  intro absent
  rw [contents_of_not_allocated absent] at member
  cases member

theorem contents_write_of_ne {heap : Heap} {cell other : Cell} (values : List Value)
    (different : other ≠ cell) : (heap.write cell values).contents other = heap.contents other := by
  have apart : cell.index ≠ other.index := by
    intro same
    apply different
    cases other
    cases cell
    simp_all
  simp [contents, contents?, write, apart]

@[simp] theorem allocated_allocate {heap : Heap} {cell : Cell} {values : List Value} :
    (heap.allocate values).Allocated cell ↔ heap.Allocated cell ∨ cell = heap.next := by
  obtain ⟨index⟩ := cell
  simp [Allocated, allocate, next]
  omega

@[simp] theorem allocated_write {heap : Heap} {cell other : Cell} {values : List Value} :
    (heap.write cell values).Allocated other ↔ heap.Allocated other := by
  simp [Allocated, write]

end Heap

end PipeLang
