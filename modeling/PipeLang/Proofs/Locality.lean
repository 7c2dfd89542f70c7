import PipeLang.Proofs.SideBySide

namespace PipeLang

/-! # Evaluation is local

A run depends only on the cells that it can reach. If two heaps have the same cells and differ
only in what cannot be reached from the start, then the runs in them stay together, and all that
can be reached at their ends is the same in both. The cells that both runs may come across are
those that were reachable at the start and those that did not exist then. The lambdas that a run
makes are numbered from where its heap stands, so the two runs may number theirs differently.
-/

/-- The scope is the one that some closure in the values captured. -/
def Value.Captured (values : List Value) (scope : Scope) : Prop :=
  ∃ value ∈ values, ∃ closure, value.Holds closure ∧ closure.scope = scope

def Scope.Within (cells : Cell → Prop) (scope : Scope) : Prop :=
  ∀ name cell, scope.get? name = some cell → cells cell

theorem Scope.Within.bind {cells : Cell → Prop} {scope : Scope} {cell : Cell}
    (within : scope.Within cells) (inside : cells cell) (name : String) :
    (scope.bind name cell).Within cells := by
  intro other found bound
  by_cases same : other = name
  · subst same
    rw [get?_bind_self] at bound
    cases bound
    exact inside
  · rw [get?_bind_of_ne _ _ same] at bound
    exact within other found bound

namespace Heap

/-- The cell can be reached from one of the scopes. -/
def Reaches (heap : Heap) (roots : Scope → Prop) (cell : Cell) : Prop :=
  ∃ root scope name, roots root ∧ root.Reaches heap scope ∧ scope.get? name = some cell

/-- The closures are the same, or they are what two runs from these heaps make at the same time:
then only their numbers differ, and only as far as the numbers of closures in the heaps do. -/
def Twins (first second : Heap) (closure other : Closure) : Prop :=
  other = { closure with identity := other.identity } ∧
    (closure.identity = other.identity ∨
      ∃ made, closure.identity = first.closures + made ∧ other.identity = second.closures + made)

/-- The heaps have the same cells, and those that can be reached hold the same. -/
structure Agrees (heap store : Heap) (same : Closure → Closure → Prop) (roots : Scope → Prop) :
    Prop where
  cells : heap.cells.size = store.cells.size
  contents : ∀ cell, heap.Reaches roots cell → Alike same (heap.contents cell) (store.contents cell)

def SharedTwins (first second : Heap) (shared : Cell → Prop) (closure other : Closure) : Prop :=
  first.Twins second closure other ∧ closure.scope.Within shared

/-- Two heaps during runs from `first` and `second` that come across shared cells only. -/
structure Mirrors (first second : Heap) (shared : Cell → Prop) (heap store : Heap) : Prop where
  cells : heap.cells.size = store.cells.size
  fresh : ∀ cell, ¬ heap.Allocated cell → shared cell
  numbered : ∃ made, heap.closures = first.closures + made ∧ store.closures = second.closures + made
  contents : ∀ cell, shared cell →
    Alike (first.SharedTwins second shared) (heap.contents cell) (store.contents cell)

variable {first second heap store : Heap} {shared : Cell → Prop} {roots : Scope → Prop}
  {values others : List Value} {cell : Cell}

section Renaming

variable {same : Closure → Closure → Prop} {rename : Cell → Cell} {other : Cell}

/-- Heaps whose cells hold the like along a renaming still do if both allocate a cell. -/
theorem alike_allocate (injective : Function.Injective rename)
    (next : rename heap.next = store.next) (alike : Alike same values others)
    (held : Alike same (heap.contents cell) (store.contents (rename cell))) :
    Alike same ((heap.allocate values).contents cell)
      ((store.allocate others).contents (rename cell)) := by
  by_cases new : cell = heap.next
  · rw [new, next, contents_allocate_next, contents_allocate_next]
    exact alike
  · have apart : rename cell ≠ store.next := next ▸ injective.ne new
    rw [contents_allocate_of_ne values new, contents_allocate_of_ne others apart]
    exact held

theorem alike_write (injective : Function.Injective rename)
    (both : heap.Allocated cell ↔ store.Allocated (rename cell)) (alike : Alike same values others)
    (held : Alike same (heap.contents other) (store.contents (rename other))) :
    Alike same ((heap.write cell values).contents other)
      ((store.write (rename cell) others).contents (rename other)) := by
  by_cases present : heap.Allocated cell
  · by_cases written : other = cell
    · rw [written, contents_write_self values present,
        contents_write_self others (both.mp present)]
      exact alike
    · rw [contents_write_of_ne values written,
        contents_write_of_ne others (injective.ne written)]
      exact held
  · rw [write_of_not_allocated values present,
      write_of_not_allocated others (mt both.mpr present)]
    exact held

end Renaming

theorem twins_refl (closure : Closure) : first.Twins second closure closure :=
  ⟨rfl, .inl rfl⟩

theorem Twins.eq_of_closures_eq {closure other : Closure} (twins : first.Twins second closure other)
    (same : first.closures = second.closures) : closure = other := by
  obtain ⟨equal, numbers⟩ := twins
  have identities : closure.identity = other.identity := by
    obtain same | ⟨made, left, right⟩ := numbers
    · exact same
    · omega
  rw [equal, ← identities]

theorem Mirrors.next_eq (mirrors : first.Mirrors second shared heap store) :
    heap.next = store.next := by
  rw [next, next, mirrors.cells]

theorem Mirrors.allocate (mirrors : first.Mirrors second shared heap store)
    (alike : Alike (first.SharedTwins second shared) values others) :
    first.Mirrors second shared (heap.allocate values) (store.allocate others) := by
  refine ⟨?_, ?_, mirrors.numbered, ?_⟩
  · simp [Heap.allocate, mirrors.cells]
  · intro cell absent
    refine mirrors.fresh cell fun allocated => absent ?_
    simp only [Allocated, Heap.allocate, Array.size_push] at allocated ⊢
    omega
  · intro cell inside
    exact alike_allocate Function.injective_id mirrors.next_eq alike (mirrors.contents cell inside)

theorem Mirrors.allocated_iff (mirrors : first.Mirrors second shared heap store) (cell : Cell) :
    heap.Allocated cell ↔ store.Allocated cell := by
  rw [Allocated, Allocated, mirrors.cells]

theorem Mirrors.write (mirrors : first.Mirrors second shared heap store)
    (alike : Alike (first.SharedTwins second shared) values others) :
    first.Mirrors second shared (heap.write cell values) (store.write cell others) := by
  refine ⟨?_, ?_, mirrors.numbered, ?_⟩
  · simp [Heap.write, mirrors.cells]
  · intro other absent
    exact mirrors.fresh other fun allocated => absent (allocated_write.mpr allocated)
  · intro other inside
    exact alike_write Function.injective_id (mirrors.allocated_iff cell) alike
      (mirrors.contents other inside)

/-- Whatever can be reached from within the shared cells is shared. -/
theorem Mirrors.within_of_reaches {root scope : Scope}
    (mirrors : first.Mirrors second shared heap store) (within : root.Within shared)
    (reached : root.Reaches heap scope) : scope.Within shared := by
  induction reached with
  | root => exact within
  | captured _ held ih =>
      obtain ⟨name, cell, value, bound, member, holds⟩ := held
      obtain ⟨other, _, captured⟩ :=
        (mirrors.contents cell (ih name cell bound)).counterpart member holds
      exact captured

theorem Mirrors.agrees (mirrors : first.Mirrors second shared heap store)
    (within : ∀ root, roots root → root.Within shared) :
    heap.Agrees store (first.Twins second) roots := by
  refine ⟨mirrors.cells, ?_⟩
  rintro cell ⟨root, scope, name, start, reached, bound⟩
  have inside := mirrors.within_of_reaches (within root start) reached name cell bound
  exact (mirrors.contents cell inside).mono fun _ _ twins => twins.1

/-- The cells that runs from the roots may come across. -/
def Open (heap : Heap) (roots : Scope → Prop) (cell : Cell) : Prop :=
  heap.Allocated cell → heap.Reaches roots cell

theorem within_open {root scope : Scope} (start : roots root) (reached : root.Reaches heap scope) :
    scope.Within (heap.Open roots) :=
  fun name _ bound _ => ⟨root, scope, name, start, reached, bound⟩

theorem mirrors_of_agrees (cells : first.cells.size = second.cells.size)
    (contents : ∀ cell, first.Reaches roots cell → first.contents cell = second.contents cell) :
    first.Mirrors second (first.Open roots) first second := by
  refine ⟨cells, fun _ absent allocated => absurd allocated absent, ⟨0, rfl, rfl⟩, ?_⟩
  intro cell inside
  by_cases allocated : first.Allocated cell
  · -- What the lambdas in a reachable cell captured is reachable through them.
    obtain ⟨root, scope, name, start, reached, bound⟩ := inside allocated
    rw [← contents cell (inside allocated)]
    refine .refl fun value member closure holds => ⟨twins_refl closure, ?_⟩
    exact within_open start (reached.captured ⟨name, cell, value, bound, member, holds⟩)
  · have absent : ¬ second.Allocated cell := by
      rwa [Allocated, ← cells]
    rw [contents_of_not_allocated allocated, contents_of_not_allocated absent]
    exact .nil

end Heap

/-- Scopes and cells stand for themselves, as far as both runs may come across them. -/
def Correspondence.sharing (first second : Heap) (shared : Cell → Prop) : Correspondence where
  Cells cell place := cell = place ∧ shared cell
  Scopes _ scope other := scope = other ∧ scope.Within shared
  Closures := first.SharedTwins second shared
  Heaps := first.Mirrors second shared
  lookup := by
    rintro names scope _ name ⟨rfl, within⟩ _
    cases bound : scope.get? name with
    | none => exact .inl ⟨rfl, rfl⟩
    | some cell => exact .inr ⟨cell, cell, rfl, rfl, rfl, within name cell bound⟩
  enter := by
    rintro closure other ⟨⟨same, _⟩, within⟩
    rw [same]
    exact ⟨rfl, rfl, fun _ => True, fun _ _ _ => trivial, rfl, within⟩
  contents := by
    rintro heap store cell _ mirrors ⟨rfl, inside⟩
    exact mirrors.contents cell inside
  define := by
    rintro names scope _ heap store values results name ⟨rfl, within⟩ mirrors alike
    have same : scope.bind name heap.next = scope.bind name store.next := by rw [mirrors.next_eq]
    have unused : ¬ heap.Allocated heap.next := Nat.lt_irrefl _
    exact ⟨⟨same, within.bind (mirrors.fresh _ unused) name⟩, mirrors.allocate alike⟩
  write := by
    rintro heap store cell _ values results mirrors ⟨rfl, _⟩ alike
    exact mirrors.write alike
  close := by
    rintro names scope _ heap store body parameters ⟨rfl, within⟩ mirrors _
    obtain ⟨made, left, right⟩ := mirrors.numbered
    refine ⟨⟨⟨rfl, .inr ⟨made, left, right⟩⟩, within⟩, mirrors.cells, mirrors.fresh, ?_,
      mirrors.contents⟩
    exact ⟨made + 1, congrArg Nat.succ left, congrArg Nat.succ right⟩

/-- The frames have the same scope and output, and what can be reached in them is the same. -/
structure Frame.Agrees (first second : Heap) (roots : Scope → Prop) (frame twin : Frame) :
    Prop where
  scope : frame.scope = twin.scope
  sink : frame.machine.sink = twin.machine.sink
  heap : frame.machine.heap.Agrees twin.machine.heap (first.Twins second) roots

structure Machine.Agrees (first second : Heap) (roots : Scope → Prop) (machine other : Machine) :
    Prop where
  sink : machine.sink = other.sink
  heap : machine.heap.Agrees other.heap (first.Twins second) roots

theorem Alike.within_of_captured {first second : Heap} {shared : Cell → Prop}
    {values others : List Value} {scope : Scope}
    (alike : Alike (first.SharedTwins second shared) values others)
    (captured : Value.Captured values scope) : scope.Within shared := by
  obtain ⟨value, member, closure, holds, rfl⟩ := captured
  obtain ⟨other, _, within⟩ := alike.counterpart member holds
  exact within

/-- Two heaps with the same cells that hold the same wherever the start of an evaluation, or a
lambda and its arguments, can reach lead to the same end: the same values or the same error, the
same output and the same scope, and heaps that hold the same wherever the end can reach. -/
theorem evaluate_local_to_reachable {first second : Heap}
    (cells : first.cells.size = second.cells.size) (steps : Nat) (sink : Sink) :
    (∀ expression scope,
      (∀ cell, first.Reaches (· = scope) cell → first.contents cell = second.contents cell) →
      Outcome.Parallel
        (fun values after others later => Alike (first.Twins second) values others ∧
          after.Agrees first second
            (fun root => root = after.scope ∨ Value.Captured values root) later)
        (fun after later => after.Agrees first second (· = after.scope) later)
        (evaluate steps expression ⟨scope, first, sink⟩)
        (evaluate steps expression ⟨scope, second, sink⟩)) ∧
    ∀ name location closure arguments,
      (∀ cell, first.Reaches (Value.Captured (.lambda closure :: arguments)) cell →
        first.contents cell = second.contents cell) →
      Outcome.Parallel
        (fun values after others later => Alike (first.Twins second) values others ∧
          after.Agrees first second
            (Value.Captured (.lambda closure :: arguments ++ values)) later)
        (fun after later =>
          after.Agrees first second (Value.Captured (.lambda closure :: arguments)) later)
        (callClosure (evaluate steps) name location closure arguments ⟨first, sink⟩)
        (callClosure (evaluate steps) name location closure arguments ⟨second, sink⟩) := by
  refine ⟨fun expression scope contents => ?_, fun name location closure arguments contents => ?_⟩
  · have mirrors := Heap.mirrors_of_agrees cells contents
    have start : (Correspondence.sharing first second (first.Open (· = scope))).Frames
        (fun _ => True) ⟨scope, first, sink⟩ ⟨scope, second, sink⟩ :=
      ⟨⟨rfl, Heap.within_open rfl .root⟩, mirrors, rfl⟩
    refine (evaluate_respects _ steps (fun _ _ _ => trivial) start).mono ?_ ?_
    · rintro values after others later ⟨alike, scopes, heaps, sinks⟩
      refine ⟨alike.mono fun _ _ twins => twins.1, scopes.1, sinks, heaps.agrees ?_⟩
      rintro root (rfl | captured)
      · exact scopes.2
      · exact alike.within_of_captured captured
    · rintro after later ⟨scopes, heaps, sinks⟩
      exact ⟨scopes.1, sinks, heaps.agrees fun _ same => same ▸ scopes.2⟩
  · have mirrors := Heap.mirrors_of_agrees cells contents
    have start : (Correspondence.sharing first second _).Machines ⟨first, sink⟩ ⟨second, sink⟩ :=
      ⟨mirrors, rfl⟩
    have given : Alike (first.SharedTwins second
        (first.Open (Value.Captured (.lambda closure :: arguments))))
        (.lambda closure :: arguments) (.lambda closure :: arguments) :=
      .refl fun value member other holds =>
        ⟨Heap.twins_refl other, Heap.within_open ⟨value, member, other, holds, rfl⟩ .root⟩
    cases given with
    | lambda closures supplied =>
        have called := (evaluate_respects _ steps).callClosure name location closures supplied start
        refine called.mono ?_ ?_
        · rintro values after others later ⟨alike, heaps, sinks⟩
          exact ⟨alike.mono fun _ _ twins => twins.1, sinks, heaps.agrees fun _ =>
            (Alike.append (.lambda closures supplied) alike).within_of_captured⟩
        · rintro after later ⟨heaps, sinks⟩
          exact ⟨sinks, heaps.agrees fun _ => (Alike.lambda closures supplied).within_of_captured⟩

/-- Cell 1 is the variable `i`, and cell 0 holds something that no name leads to. -/
def hidingHeap (hidden : Bool) (text : String) (closures : Nat) : Heap :=
  ⟨#[[.boolean hidden], [.string text]], closures⟩

def onlyVariable : Scope := Scope.empty.bind "i" ⟨1⟩

/-- The program `("new" ->> i, () => i)`. -/
def overwriting : Expression :=
  .tuple ⟨1, 1⟩ [.binary ⟨1, 8⟩ .mutate (.string ⟨1, 2⟩ "new") (.reference ⟨1, 12⟩ "i"),
    .lambda ⟨1, 15⟩ [] (.reference ⟨1, 21⟩ "i")]

/-- The hidden cell stays different, while the variable changes in the same way in both heaps. -/
theorem evaluate_local_to_reachable_hidden :
    let values := [.string "new", .lambda ⟨7, [], onlyVariable, .reference ⟨1, 21⟩ "i"⟩]
    evaluate 3 overwriting ⟨onlyVariable, hidingHeap true "old" 7, .unlimited⟩ =
      .returned values ⟨onlyVariable, hidingHeap true "new" 8, .unlimited⟩ ∧
    evaluate 3 overwriting ⟨onlyVariable, hidingHeap false "old" 7, .unlimited⟩ =
      .returned values ⟨onlyVariable, hidingHeap false "new" 8, .unlimited⟩ ∧
    ∀ cell, (hidingHeap true "new" 8).Reaches
        (fun root => root = onlyVariable ∨ Value.Captured values root) cell →
      (hidingHeap true "new" 8).contents cell = (hidingHeap false "new" 8).contents cell := by
  have named : onlyVariable.Within (· = ⟨1⟩) := by
    intro name cell bound
    by_cases same : name = "i"
    · subst same
      exact (Option.some.inj bound).symm
    · rw [onlyVariable, Scope.get?_bind_of_ne _ _ same] at bound
      cases bound
  have alone {scope : Scope} (reached : onlyVariable.Reaches (hidingHeap true "old" 7) scope) :
      scope = onlyVariable := by
    induction reached with
    | root => rfl
    | captured _ held ih =>
        subst ih
        obtain ⟨name, cell, value, bound, member, holds⟩ := held
        cases named name cell bound
        cases List.mem_singleton.mp member
        cases holds
  have agree : ∀ cell, (hidingHeap true "old" 7).Reaches (· = onlyVariable) cell →
      (hidingHeap true "old" 7).contents cell = (hidingHeap false "old" 7).contents cell := by
    rintro cell ⟨_, scope, name, rfl, reached, bound⟩
    cases alone reached
    cases named name cell bound
    rfl
  have cells : (hidingHeap true "old" 7).cells.size = (hidingHeap false "old" 7).cells.size := rfl
  have parallel := (evaluate_local_to_reachable cells 3 .unlimited).1 overwriting onlyVariable agree
  refine ⟨rfl, rfl, fun cell reached => ?_⟩
  cases parallel with
  | returned left =>
      have held := left.2.heap.contents cell reached
      exact (held.mono fun _ _ twins => twins.eq_of_closures_eq rfl).eq

end PipeLang
