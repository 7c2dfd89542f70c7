import PipeLang.Workbench

namespace PipeLang

/-! # Histories of scopes and cells

Scopes and cells can be described without a heap, by what has been done to them. A variable
goes back to the definition that gave it its cell, directly or through copies of scopes, and
it holds what was last put into that cell through any variable that goes back to the same
definition. The heap follows this description after every history.
-/

namespace Workbench

/-- What can be done to the scopes of a workbench. -/
inductive Operation where
  | create
  | child (parent : Nat)
  | define (scope : Nat) (name : String) (values : List Value)
  | replace (scope : Nat) (name : String) (values : List Value)

def perform (bench : Workbench) : Operation → Workbench
  | .create => bench.addEmpty.2
  | .child parent => (bench.addChild parent).2
  | .define scope name values => bench.define scope name values
  | .replace scope name values => (bench.replace? scope name values).getD bench

/-- The operations on a workbench, the latest first. Operations are numbered from the first. -/
abbrev History := List Operation

namespace History

/-- The workbench after a history that starts without any scope. -/
def replay (machine : Machine) : History → Workbench
  | [] => ⟨#[], machine⟩
  | operation :: earlier => (replay machine earlier).perform operation

def scopeCount : History → Nat
  | [] => 0
  | .create :: earlier => scopeCount earlier + 1
  | .child _ :: earlier => scopeCount earlier + 1
  | _ :: earlier => scopeCount earlier

/-- The number of the definition that a variable goes back to: the latest in its own scope
since that was created, or else the one that the variable went back to in the copied scope. -/
def origin : History → Nat → String → Option Nat
  | [], _, _ => none
  | .create :: earlier, scope, name =>
      if scope = scopeCount earlier then none else origin earlier scope name
  | .child parent :: earlier, scope, name =>
      if scope = scopeCount earlier then origin earlier parent name else origin earlier scope name
  | .define changed bound _ :: earlier, scope, name =>
      if scope = changed ∧ name = bound ∧ scope < scopeCount earlier then some earlier.length
      else origin earlier scope name
  | .replace .. :: earlier, scope, name => origin earlier scope name

/-- What was last put into the cell of a definition. -/
def latest : History → Nat → List Value
  | [], _ => []
  | .define _ _ values :: earlier, event =>
      if event = earlier.length then values else latest earlier event
  | .replace scope name values :: earlier, event =>
      if origin earlier scope name = some event then values else latest earlier event
  | _ :: earlier, event => latest earlier event

def definitions : History → Nat
  | [] => 0
  | .define .. :: earlier => definitions earlier + 1
  | _ :: earlier => definitions earlier

/-- The cell that a definition allocated, where `first` is the first one to be allocated. -/
def cellOf (first : Nat) : History → Nat → Cell
  | [], _ => ⟨first⟩
  | .define .. :: earlier, event =>
      if event = earlier.length then ⟨first + definitions earlier⟩ else cellOf first earlier event
  | _ :: earlier, event => cellOf first earlier event

variable {history : History} {scope other : Nat} {name bound : String} {event : Nat}

/-- An origin is either the definition that was made last or an origin from before. -/
theorem origin_cons {operation : Operation}
    (found : origin (operation :: history) scope name = some event) :
    (∃ values, operation = .define scope name values ∧ event = history.length) ∨
      ∃ source, origin history source name = some event := by
  cases operation with
  | create =>
      rw [origin] at found
      split at found
      · cases found
      · exact .inr ⟨scope, found⟩
  | child parent =>
      rw [origin] at found
      split at found
      · exact .inr ⟨parent, found⟩
      · exact .inr ⟨scope, found⟩
  | define changed defined values =>
      rw [origin] at found
      split at found
      next same =>
        obtain ⟨rfl, rfl, _⟩ := same
        cases found
        exact .inl ⟨values, rfl, rfl⟩
      next => exact .inr ⟨scope, found⟩
  | replace changed replaced values => exact .inr ⟨scope, found⟩

theorem origin_lt (found : origin history scope name = some event) : event < history.length := by
  induction history generalizing scope with
  | nil => cases found
  | cons operation earlier ih =>
      rw [List.length_cons]
      rcases origin_cons found with ⟨values, rfl, rfl⟩ | ⟨source, before⟩
      · exact Nat.lt_succ_self _
      · exact Nat.lt_succ_of_lt (ih before)

theorem definitions_le_cons (operation : Operation) (history : History) :
    definitions history ≤ definitions (operation :: history) := by
  cases operation <;> simp [definitions]

theorem cellOf_cons {first : Nat} (operation : Operation) (before : event < history.length) :
    cellOf first (operation :: history) event = cellOf first history event := by
  cases operation with
  | define => exact if_neg (Nat.ne_of_lt before)
  | _ => rfl

theorem map_cellOf_cons (first : Nat) (operation : Operation) (history : History) (scope : Nat)
    (name : String) :
    (origin history scope name).map (cellOf first (operation :: history)) =
      (origin history scope name).map (cellOf first history) := by
  cases found : origin history scope name with
  | none => rfl
  | some event => exact congrArg some (cellOf_cons operation (origin_lt found))

theorem cellOf_new (first : Nat) (history : History) (scope : Nat) (name : String)
    (values : List Value) :
    cellOf first (.define scope name values :: history) history.length =
      ⟨first + definitions history⟩ :=
  if_pos rfl

theorem cellOf_lt (first : Nat) (found : origin history scope name = some event) :
    (cellOf first history event).index < first + definitions history := by
  induction history generalizing scope with
  | nil => cases found
  | cons operation earlier ih =>
      rcases origin_cons found with ⟨values, rfl, rfl⟩ | ⟨source, before⟩
      · rw [cellOf_new]
        exact Nat.lt_succ_self _
      · rw [cellOf_cons operation (origin_lt before)]
        have := definitions_le_cons operation earlier
        exact Nat.lt_of_lt_of_le (ih before) (by omega)

theorem cellOf_injective {first event' : Nat} (found : origin history scope name = some event)
    (found' : origin history other bound = some event')
    (same : cellOf first history event = cellOf first history event') : event = event' := by
  induction history generalizing scope other with
  | nil => cases found
  | cons operation earlier ih =>
      rcases origin_cons found with ⟨values, rfl, rfl⟩ | ⟨source, before⟩
      · rcases origin_cons found' with ⟨_, _, rfl⟩ | ⟨source', before'⟩
        · rfl
        · rw [cellOf_new, cellOf_cons _ (origin_lt before')] at same
          have older := cellOf_lt first before'
          rw [← same] at older
          exact absurd older (Nat.lt_irrefl _)
      · rcases origin_cons found' with ⟨values, rfl, rfl⟩ | ⟨source', before'⟩
        · rw [cellOf_new, cellOf_cons _ (origin_lt before)] at same
          have older := cellOf_lt first before
          rw [same] at older
          exact absurd older (Nat.lt_irrefl _)
        · rw [cellOf_cons _ (origin_lt before), cellOf_cons _ (origin_lt before')] at same
          exact ih before before' same

/-- Variables that go back to the same definition have the name that was defined. -/
theorem origin_name (found : origin history scope name = some event)
    (found' : origin history other bound = some event) : name = bound := by
  induction history generalizing scope other with
  | nil => cases found
  | cons operation earlier ih =>
      rcases origin_cons found with ⟨values, rfl, rfl⟩ | ⟨source, before⟩
      · rcases origin_cons found' with ⟨_, same, _⟩ | ⟨source', before'⟩
        · cases same
          rfl
        · exact absurd (origin_lt before') (Nat.lt_irrefl _)
      · rcases origin_cons found' with ⟨_, rfl, rfl⟩ | ⟨source', before'⟩
        · exact absurd (origin_lt before) (Nat.lt_irrefl _)
        · exact ih before before'

end History

theorem cell?_addScope (bench : Workbench) (added : Scope) (number : Nat) (name : String) :
    (bench.addScope added).2.cell? number name =
      if number = bench.scopes.size then added.get? name else bench.cell? number name := by
  simp only [cell?, scope, addScope, Array.getD_eq_getD_getElem?, Array.getElem?_push]
  split <;> rfl

theorem scope_update (bench : Workbench) (changed number : Nat) (frame : Frame) :
    (bench.update changed frame).scope number =
      if number = changed ∧ number < bench.scopes.size then frame.scope
      else bench.scope number := by
  simp only [scope, update, Array.getD_eq_getD_getElem?, Array.getElem?_setIfInBounds]
  by_cases same : changed = number
  · subst same
    by_cases inside : changed < bench.scopes.size <;> simp [inside]
  · simp [same, Ne.symm same]

/-- The workbench is as its history says, when `first` cells were allocated before it. -/
structure Follows (first : Nat) (history : History) (bench : Workbench) : Prop where
  scopes : bench.scopes.size = history.scopeCount
  cells : bench.machine.heap.cells.size = first + history.definitions
  bound : ∀ scope name,
    bench.cell? scope name = (history.origin scope name).map (history.cellOf first)
  contents : ∀ scope name event, history.origin scope name = some event →
    bench.machine.heap.contents (history.cellOf first event) = history.latest event

namespace Follows

variable {first : Nat} {history : History} {bench : Workbench}

theorem allocated {scope event : Nat} {name : String} (follows : Follows first history bench)
    (found : history.origin scope name = some event) :
    bench.machine.heap.Allocated (history.cellOf first event) := by
  rw [Heap.Allocated, follows.cells]
  exact History.cellOf_lt first found

theorem create (follows : Follows first history bench) :
    Follows first (.create :: history) (bench.perform .create) := by
  refine ⟨?_, follows.cells, ?_, ?_⟩
  · rw [History.scopeCount, ← follows.scopes]
    exact Array.size_push ..
  · intro scope name
    rw [perform, addEmpty, cell?_addScope, follows.scopes, History.origin, follows.bound]
    split <;> rfl
  · intro scope name event found
    rcases History.origin_cons found with ⟨_, different, _⟩ | ⟨source, before⟩
    · cases different
    · exact follows.contents source name event before

theorem child (follows : Follows first history bench) (parent : Nat) :
    Follows first (.child parent :: history) (bench.perform (.child parent)) := by
  refine ⟨?_, follows.cells, ?_, ?_⟩
  · rw [History.scopeCount, ← follows.scopes]
    exact Array.size_push ..
  · intro scope name
    have copied : (bench.scope parent).get? name = bench.cell? parent name := rfl
    rw [perform, addChild, cell?_addScope, copied, follows.scopes, History.origin, follows.bound,
      follows.bound]
    split <;> rfl
  · intro scope name event found
    rcases History.origin_cons found with ⟨_, different, _⟩ | ⟨source, before⟩
    · cases different
    · exact follows.contents source name event before

theorem define (follows : Follows first history bench) (changed : Nat) (defined : String)
    (values : List Value) :
    Follows first (.define changed defined values :: history)
      (bench.perform (.define changed defined values)) := by
  have next : bench.machine.heap.next = ⟨first + history.definitions⟩ := by
    rw [Heap.next, follows.cells]
  refine ⟨(Array.size_setIfInBounds ..).trans follows.scopes, ?_, ?_, ?_⟩
  · rw [History.definitions, ← Nat.add_assoc, ← follows.cells]
    exact Array.size_push ..
  · intro scope name
    rw [cell?, perform, Workbench.define, scope_update, History.origin, follows.scopes]
    by_cases inside : scope = changed ∧ scope < history.scopeCount
    · obtain ⟨rfl, present⟩ := inside
      rw [if_pos ⟨rfl, present⟩]
      by_cases same : name = defined
      · subst same
        rw [if_pos ⟨rfl, rfl, present⟩, Option.map_some, History.cellOf_new, ← next]
        exact Scope.get?_bind_self ..
      · rw [if_neg (fun both => same both.2.1), History.map_cellOf_cons, ← follows.bound]
        exact Scope.get?_bind_of_ne _ _ same
    · rw [if_neg inside, if_neg (fun all => inside ⟨all.1, all.2.2⟩), History.map_cellOf_cons]
      exact follows.bound scope name
  · intro scope name event found
    rcases History.origin_cons found with ⟨_, same, rfl⟩ | ⟨source, before⟩
    · cases same
      rw [History.cellOf_new, ← next, History.latest, if_pos rfl]
      exact Heap.contents_allocate_next ..
    · have older := History.origin_lt before
      rw [History.cellOf_cons _ older, History.latest, if_neg (Nat.ne_of_lt older),
        ← follows.contents source name event before]
      exact Heap.contents_allocate_of_allocated _ (follows.allocated before)

theorem replace (follows : Follows first history bench) (changed : Nat) (replaced : String)
    (values : List Value) :
    Follows first (.replace changed replaced values :: history)
      (bench.perform (.replace changed replaced values)) := by
  cases target : history.origin changed replaced with
  | none =>
      -- The name is not bound, so there is no cell to write to.
      have unchanged : bench.perform (.replace changed replaced values) = bench := by
        rw [perform, replace?, follows.bound, target]
        rfl
      rw [unchanged]
      refine ⟨follows.scopes, follows.cells, follows.bound, ?_⟩
      intro scope name event found
      rw [History.latest, target, if_neg (Option.some_ne_none event).symm]
      exact follows.contents scope name event found
  | some written =>
      have performed : bench.perform (.replace changed replaced values) =
          bench.update changed
            ((bench.frame changed).write (history.cellOf first written) values) := by
        rw [perform, replace?, follows.bound, target]
        rfl
      rw [performed]
      refine ⟨(Array.size_setIfInBounds ..).trans follows.scopes,
        (Array.size_setIfInBounds ..).trans follows.cells, ?_, ?_⟩
      · intro scope name
        rw [cell?, scope_update]
        split
        next same =>
          obtain ⟨rfl, _⟩ := same
          exact follows.bound scope name
        next => exact follows.bound scope name
      · intro scope name event found
        rw [History.latest, target]
        by_cases same : written = event
        · subst same
          rw [if_pos rfl]
          exact Heap.contents_write_self values (follows.allocated target)
        · rw [if_neg fun equal => same (Option.some.inj equal)]
          have apart : history.cellOf first event ≠ history.cellOf first written := by
            intro equal
            exact same (History.cellOf_injective target found equal.symm)
          exact (Heap.contents_write_of_ne values apart).trans
            (follows.contents scope name event found)

theorem replay (machine : Machine) (history : History) :
    Follows machine.heap.cells.size history (history.replay machine) := by
  induction history with
  | nil =>
      refine ⟨rfl, rfl, fun _ _ => rfl, ?_⟩
      intro scope name event found
      cases found
  | cons operation earlier ih =>
      cases operation with
      | create => exact ih.create
      | child parent => exact ih.child parent
      | define scope name values => exact ih.define scope name values
      | replace scope name values => exact ih.replace scope name values

theorem get?_eq (follows : Follows first history bench) (scope : Nat) (name : String) :
    bench.get? scope name = (history.origin scope name).map history.latest := by
  rw [get?, follows.bound]
  cases found : history.origin scope name with
  | none => rfl
  | some event => exact congrArg some (follows.contents scope name event found)

theorem sameCell?_iff (follows : Follows first history bench) (scope other : Nat)
    (name bound : String) :
    bench.sameCell? (scope, name) (other, bound) = some true ↔
      ∃ event, history.origin scope name = some event ∧
        history.origin other bound = some event := by
  rw [sameCell?, follows.bound, follows.bound]
  cases found : history.origin scope name with
  | none => simp
  | some event =>
      cases found' : history.origin other bound with
      | none => simp
      | some event' =>
          have same : history.cellOf first event = history.cellOf first event' ↔ event = event' :=
            ⟨History.cellOf_injective found found', congrArg _⟩
          simp [same, eq_comm]

end Follows

/-- After any history, a variable is bound when it has an origin, shares its cell with those
that have the same one, and holds what was last put there through any of them. -/
theorem replay_follows_origins (machine : Machine) (history : History) :
    (∀ scope name,
      (history.replay machine).get? scope name = none ↔ history.origin scope name = none) ∧
    (∀ scope other name bound,
      (history.replay machine).sameCell? (scope, name) (other, bound) = some true ↔
        ∃ event, history.origin scope name = some event ∧
          history.origin other bound = some event) ∧
    (∀ scope other name bound,
      (history.replay machine).sameCell? (scope, name) (other, bound) = some true → name = bound) ∧
    ∀ scope name, (history.replay machine).get? scope name =
      (history.origin scope name).map history.latest := by
  have follows := Follows.replay machine history
  refine ⟨?_, follows.sameCell?_iff, ?_, follows.get?_eq⟩
  · intro scope name
    rw [follows.get?_eq, Option.map_eq_none_iff]
  · intro scope other name bound same
    obtain ⟨event, found, found'⟩ := (follows.sameCell?_iff scope other name bound).mp same
    exact History.origin_name found found'

/-- A flag that a scope defines, shares with a copy and a copy of the copy, and defines anew
before the last copy writes to the shared cell. -/
def sharedHistory : History :=
  [.replace 2 "i" [.boolean true], .define 0 "i" [], .child 1, .child 0,
    .define 0 "i" [.boolean false], .create]

/-- The copies still share the cell of the first definition and see what was written there. -/
theorem replay_follows_origins_copies :
    (sharedHistory.replay (.fresh .unlimited)).sameCell? (1, "i") (2, "i") = some true ∧
      (sharedHistory.replay (.fresh .unlimited)).get? 1 "i" = some [.boolean true] ∧
      (sharedHistory.replay (.fresh .unlimited)).get? 0 "i" = some [] ∧
      ∀ name, (sharedHistory.replay (.fresh .unlimited)).sameCell? (1, "i") (2, name) = some true →
        "i" = name := by
  obtain ⟨_, shares, named, holds⟩ := replay_follows_origins (.fresh .unlimited) sharedHistory
  refine ⟨(shares 1 2 "i" "i").mpr ⟨1, rfl, rfl⟩, ?_, ?_, named 1 2 "i"⟩
  · rw [holds]
    rfl
  · rw [holds]
    rfl

end Workbench

end PipeLang
