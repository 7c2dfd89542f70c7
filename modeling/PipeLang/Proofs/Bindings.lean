import PipeLang.Proofs.Confinement
import PipeLang.Session

namespace PipeLang

/-! # The effect of evaluation on bindings

Evaluation binds the names that an expression assigns outside all lambda bodies, each to a
cell that did not exist before, and leaves every other binding alone. What lambdas do when
they are called in between is not seen: they run in scopes of their own.
-/

namespace Policy

/-- The policy that allows everything. -/
def unrestricted : Policy := ⟨fun _ => True, fun _ _ => True, fun _ => True⟩

theorem unrestricted_feasible (base : Heap) : unrestricted.Feasible base := by
  constructor <;> intros <;> trivial

theorem unrestricted_admitsFrame (frame : Frame) :
    unrestricted.AdmitsFrame frame.machine.heap frame := by
  refine ⟨fun _ _ _ => trivial, Nat.le_refl _, fun _ _ => .inl rfl, ?_⟩
  intro _ _ _ _ _ _ _
  exact ⟨fun _ _ => trivial, fun _ _ _ => trivial⟩

end Policy

namespace Frame

/-- The name is bound to a cell that did not exist before. -/
def BindsAnew (before after : Frame) (name : String) : Prop :=
  ∃ cell, after.scope.get? name = some cell ∧ ¬ before.machine.heap.Allocated cell ∧
    after.machine.heap.Allocated cell

/-- Some of the given names may be bound anew, and all other bindings are the same. -/
structure Rebinds (before : Frame) (names : List String) (after : Frame) : Prop where
  grown : before.machine.heap.cells.size ≤ after.machine.heap.cells.size
  each : ∀ name, after.scope.get? name = before.scope.get? name ∨
    name ∈ names ∧ before.BindsAnew after name

structure RebindsAll (before : Frame) (names : List String) (after : Frame) : Prop
    extends before.Rebinds names after where
  all : ∀ name ∈ names, before.BindsAnew after name

variable {before middle after : Frame} {names others : List String} {name : String}

theorem BindsAnew.of_later (grown : before.machine.heap.cells.size ≤ middle.machine.heap.cells.size)
    (anew : middle.BindsAnew after name) : before.BindsAnew after name := by
  obtain ⟨cell, bound, absent, present⟩ := anew
  refine ⟨cell, bound, ?_, present⟩
  intro allocated
  exact absent (Nat.lt_of_lt_of_le allocated grown)

theorem BindsAnew.kept (anew : before.BindsAnew middle name)
    (grown : middle.machine.heap.cells.size ≤ after.machine.heap.cells.size)
    (same : after.scope.get? name = middle.scope.get? name) : before.BindsAnew after name := by
  obtain ⟨cell, bound, absent, present⟩ := anew
  exact ⟨cell, same.trans bound, absent, Nat.lt_of_lt_of_le present grown⟩

theorem Rebinds.refl (before : Frame) (names : List String) : before.Rebinds names before :=
  ⟨Nat.le_refl _, fun _ => .inl rfl⟩

theorem rebindsAll_of_scope_eq
    (grown : before.machine.heap.cells.size ≤ after.machine.heap.cells.size)
    (same : after.scope = before.scope) : before.RebindsAll [] after := by
  refine ⟨⟨grown, ?_⟩, ?_⟩
  · intro name
    rw [same]
    exact .inl rfl
  · intro name member
    cases member

theorem Rebinds.mono (rebinds : before.Rebinds names after)
    (more : ∀ name, name ∈ names → name ∈ others) : before.Rebinds others after := by
  refine ⟨rebinds.grown, fun name => ?_⟩
  rcases rebinds.each name with same | ⟨member, anew⟩
  · exact .inl same
  · exact .inr ⟨more name member, anew⟩

theorem RebindsAll.congr (rebinds : before.RebindsAll names after)
    (same : ∀ name, name ∈ names ↔ name ∈ others) : before.RebindsAll others after :=
  ⟨rebinds.toRebinds.mono fun name => (same name).mp,
    fun name member => rebinds.all name ((same name).mpr member)⟩

theorem Rebinds.trans (first : before.Rebinds names middle) (second : middle.Rebinds others after) :
    before.Rebinds (names ++ others) after := by
  refine ⟨Nat.le_trans first.grown second.grown, fun name => ?_⟩
  rcases second.each name with same | ⟨member, anew⟩
  · rcases first.each name with unchanged | ⟨member, anew⟩
    · exact .inl (same.trans unchanged)
    · exact .inr ⟨List.mem_append_left others member, anew.kept second.grown same⟩
  · exact .inr ⟨List.mem_append_right names member, anew.of_later first.grown⟩

theorem RebindsAll.trans (first : before.RebindsAll names middle)
    (second : middle.RebindsAll others after) : before.RebindsAll (names ++ others) after := by
  refine ⟨first.toRebinds.trans second.toRebinds, fun name member => ?_⟩
  rcases List.mem_append.mp member with member | member
  · rcases second.each name with same | ⟨_, anew⟩
    · exact (first.all name member).kept second.grown same
    · exact anew.of_later first.grown
  · exact (second.all name member).of_later first.grown

theorem rebindsAll_define (before : Frame) (name : String) (values : List Value) :
    before.RebindsAll [name] (before.define name values) := by
  have anew : before.BindsAnew (before.define name values) name := by
    refine ⟨before.machine.heap.next, Scope.get?_bind_self .., Nat.lt_irrefl _, ?_⟩
    simp [define, Heap.define, Heap.allocate, Heap.Allocated, Heap.next]
  refine ⟨⟨?_, fun other => ?_⟩, fun other member => ?_⟩
  · simp [define, Heap.define, Heap.allocate]
  · by_cases same : other = name
    · subst same
      exact .inr ⟨List.mem_singleton_self other, anew⟩
    · exact .inl (Scope.get?_bind_of_ne _ _ same)
  · cases List.mem_singleton.mp member
    exact anew

/-- The outcome of evaluation in a frame, as far as bindings go: a failure may come before
some of the names are bound. -/
def Binds (before : Frame) (names : List String) (outcome : Outcome Fault Frame) : Prop :=
  outcome.Ensures (fun _ after => before.RebindsAll names after)
    (fun _ after => before.Rebinds names after)

theorem Binds.congr {outcome : Outcome Fault Frame} (binds : before.Binds names outcome)
    (same : ∀ name, name ∈ names ↔ name ∈ others) : before.Binds others outcome :=
  binds.mono (fun _ _ all => all.congr same) (fun _ _ some => some.mono fun name => (same name).mp)

theorem Binds.andThen {first : Outcome Fault Frame}
    {next : List Value → Frame → Outcome Fault Frame} (binds : before.Binds names first)
    (continues : ∀ values middle, Frame.Binds middle others (next values middle)) :
    before.Binds (names ++ others) (first.andThen next) := by
  cases first with
  | returned values middle =>
      exact (continues values middle).mono (fun _ _ second => RebindsAll.trans binds second)
        (fun _ _ second => Rebinds.trans binds.toRebinds second)
  | failed fault middle => exact Rebinds.mono binds fun _ => List.mem_append_left others
  | outOfSteps => trivial

theorem Binds.mapValues {outcome : Outcome Fault Frame} (binds : before.Binds names outcome)
    (change : List Value → List Value) : before.Binds names (outcome.mapValues change) :=
  Outcome.Ensures.mapValues binds fun _ _ all => all

theorem Binds.refl (before : Frame) (values : List Value) :
    before.Binds [] (.returned values before) :=
  rebindsAll_of_scope_eq (Nat.le_refl _) rfl

end Frame

/-- The evaluator has no other effect on bindings than the assignments of an expression. -/
def Evaluator.BindsAssigned (run : Evaluator) : Prop :=
  ∀ expression (before : Frame), before.Binds expression.assigned (run expression before)

section Rules

variable {run : Evaluator} (binds : run.BindsAssigned)
include binds

theorem evaluateElement_binds (element : Expression) (before : Frame) :
    before.Binds element.assigned (evaluateElement run element before) := by
  cases element with
  | reference location name =>
      simp only [evaluateElement]
      split
      · exact .refl before _
      · exact Frame.Rebinds.refl before _
  | tuple location elements => exact (binds _ before).mapValues _
  | _ => exact binds _ before

theorem evaluateElements_binds (elements : List Expression) (before : Frame) :
    before.Binds (elements.flatMap Expression.assigned) (evaluateElements run elements before) := by
  induction elements generalizing before with
  | nil => exact .refl before _
  | cons element others ih =>
      rw [List.flatMap_cons]
      exact (evaluateElement_binds binds element before).andThen fun values middle =>
        (ih middle).mapValues _

theorem applyOperator_binds (acts : run.Acts)
    (rounds : Nat) (location : Location) (operator : Operator) (left right : Expression)
    (values : List Value) (before : Frame) :
    before.Binds
      ((Expression.target? .assign (.binary location operator left right)).toList ++ right.assigned)
      (applyOperator run rounds operator values right before) := by
  have whole (target : Operator) (notAssign : target ≠ .assign) (right : Expression) :
      Expression.target? .assign (.binary location target left right) = none := by
    cases right <;> simp [Expression.target?, notAssign]
  unfold applyOperator
  split
  next place name =>
    -- The callee works on the heap alone: the scope of the caller is put back as it was.
    rw [whole _ (by decide)]
    have start := Policy.unrestricted_admitsFrame before
    refine (Policy.keeps_callNamed (Policy.unrestricted_feasible _) acts start.scope
      (fun _ _ _ _ => ⟨fun _ _ => trivial, fun _ _ _ => trivial⟩) start.heap).mapState ?_ ?_
    · intro values machine kept
      exact Frame.rebindsAll_of_scope_eq kept.2.grown rfl
    · intro fault machine kept
      exact ⟨kept.grown, fun _ => .inl rfl⟩
  next =>
    rw [whole _ (by decide)]
    exact binds right before
  next place name => exact before.rebindsAll_define name values
  next place name =>
    rw [whole _ (by decide)]
    split
    next cell bound =>
      have sizes : before.machine.heap.cells.size ≤
          (before.write cell values).machine.heap.cells.size := by
        simp [Frame.write, Heap.write]
      exact Frame.rebindsAll_of_scope_eq sizes rfl
    next => exact Frame.Rebinds.refl before _
  next => exact Frame.Rebinds.refl before _

theorem evaluateWith_binds (acts : run.Acts) (rounds : Nat) :
    Evaluator.BindsAssigned (evaluateWith run rounds) := by
  intro expression before
  cases expression with
  | number | string | boolean => exact .refl before _
  | reference location name => exact Frame.Rebinds.refl before _
  | tuple location elements =>
      refine (evaluateElements_binds binds elements before).congr fun name => ?_
      rw [List.mem_flatMap, Expression.mem_assigned_tuple]
  | lambda location parameters body =>
      exact Frame.rebindsAll_of_scope_eq (Nat.le_refl _) rfl
  | binary location operator left right =>
      have chained := (binds left before).andThen fun values middle =>
        applyOperator_binds binds acts rounds location operator left right values middle
      refine chained.congr fun name => ?_
      rw [Expression.mem_assigned_binary, List.mem_append, List.mem_append, Option.mem_toList]
      exact or_left_comm

end Rules

theorem evaluate_bindsAssigned (steps : Nat) : Evaluator.BindsAssigned (evaluate steps) := by
  induction steps with
  | zero => exact fun _ _ => trivial
  | succ steps ih => exact evaluateWith_binds ih (evaluate_acts steps) steps

theorem Frame.Rebinds.bound {before after : Frame} {names : List String} {name : String}
    (rebinds : before.Rebinds names after) (bound : (before.scope.get? name).isSome) :
    (after.scope.get? name).isSome := by
  rcases rebinds.each name with same | ⟨_, cell, found, _, _⟩
  · rwa [same]
  · rw [found]
    rfl

/-- A call leaves the scope of its caller as it was before the call, whatever the function is
and whether it returns or fails. -/
theorem call_leaves_scope {steps : Nat} {location place : Location} {left : Expression}
    {name : String} {before middle after : Frame} {arguments : List Value}
    (supplied : evaluate steps left before = .returned arguments middle)
    (called : (evaluate (steps + 1)
      (.binary location .pipeline left (.reference place name)) before).Leaves after) :
    after.scope = middle.scope := by
  have unfolded : evaluate (steps + 1)
      (.binary location .pipeline left (.reference place name)) before =
      (callNamed (evaluate steps) steps name place arguments middle.scope middle.machine).mapState
        fun machine => { middle with machine } := by
    simp only [evaluate, evaluateWith, supplied, Outcome.andThen, applyOperator]
  rw [unfolded] at called
  obtain ⟨machine, _, rfl⟩ := called.of_mapState
  rfl

/-- The exact effect of evaluation on bindings. -/
theorem evaluate_binds_exactly_assigned (steps : Nat) (expression : Expression) (before : Frame) :
    (∀ values after, evaluate steps expression before = .returned values after →
      ∀ name,
        ((after.scope.get? name).isSome ↔
          (before.scope.get? name).isSome ∨ name ∈ expression.assigned) ∧
        (name ∈ expression.assigned → before.BindsAnew after name) ∧
        (name ∉ expression.assigned → after.scope.get? name = before.scope.get? name)) ∧
    (∀ fault after, evaluate steps expression before = .failed fault after →
      ∀ name,
        ((before.scope.get? name).isSome → (after.scope.get? name).isSome) ∧
        (after.scope.get? name = before.scope.get? name ∨
          name ∈ expression.assigned ∧ before.BindsAnew after name)) ∧
    (∀ arguments middle location place name after,
      evaluate steps expression before = .returned arguments middle →
      (evaluate (steps + 1)
        (.binary location .pipeline expression (.reference place name)) before).Leaves after →
      after.scope = middle.scope) := by
  have binds := evaluate_bindsAssigned steps expression before
  refine ⟨?_, ?_, ?_⟩
  · intro values after returned name
    rw [returned] at binds
    have rebinds : before.RebindsAll expression.assigned after := binds
    refine ⟨⟨?_, ?_⟩, rebinds.all name, ?_⟩
    · intro bound
      rcases rebinds.each name with same | ⟨member, _⟩
      · exact .inl (same ▸ bound)
      · exact .inr member
    · rintro (bound | member)
      · exact rebinds.toRebinds.bound bound
      · obtain ⟨cell, found, _, _⟩ := rebinds.all name member
        rw [found]
        rfl
    · intro absent
      rcases rebinds.each name with same | ⟨member, _⟩
      · exact same
      · exact absurd member absent
  · intro fault after failed name
    rw [failed] at binds
    have rebinds : before.Rebinds expression.assigned after := binds
    exact ⟨rebinds.bound, rebinds.each name⟩
  · intro arguments middle location place name after supplied called
    exact call_leaves_scope supplied called

/-- The program `(() => true -> y) -> f |> () |> f`. -/
def localAssignment : Expression :=
  .binary ⟨1, 30⟩ .pipeline
    (.binary ⟨1, 24⟩ .pipeline
      (.binary ⟨1, 19⟩ .assign
        (.tuple ⟨1, 1⟩
          [.lambda ⟨1, 2⟩ []
            (.binary ⟨1, 13⟩ .assign (.boolean ⟨1, 8⟩ true) (.reference ⟨1, 16⟩ "y"))])
        (.reference ⟨1, 22⟩ "f"))
      (.tuple ⟨1, 27⟩ []))
    (.reference ⟨1, 33⟩ "f")

/-- The program `true -> x |> missing`. -/
def interruptedAssignment : Expression :=
  .binary ⟨1, 11⟩ .pipeline
    (.binary ⟨1, 6⟩ .assign (.boolean ⟨1, 1⟩ true) (.reference ⟨1, 9⟩ "x"))
    (.reference ⟨1, 14⟩ "missing")

/-- The call does not bind the name that the body of the lambda assigns, and a failure keeps
the names that were bound before it. -/
theorem evaluate_binds_exactly_assigned_calls :
    ∃ values called fault stopped,
      evaluate 5 localAssignment (Session.start .unlimited) = .returned values called ∧
      (Session.start .unlimited).BindsAnew called "f" ∧ called.scope.get? "y" = none ∧
      evaluate 3 interruptedAssignment ((Session.start .unlimited).define "f" []) =
        .failed fault stopped ∧
      (stopped.scope.get? "f").isSome := by
  have first := (evaluate_binds_exactly_assigned 5 localAssignment
    (Session.start .unlimited)).1 _ _ rfl
  have second := (evaluate_binds_exactly_assigned 3 interruptedAssignment
    ((Session.start .unlimited).define "f" [])).2.1 _ _ rfl
  have assigned : "f" ∈ localAssignment.assigned := by decide
  have inner : "y" ∉ localAssignment.assigned := by decide
  exact ⟨_, _, _, _, rfl, (first "f").2.1 assigned, (first "y").2.2 inner, rfl, (second "f").1 rfl⟩

end PipeLang
