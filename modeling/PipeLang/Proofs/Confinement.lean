import PipeLang.Proofs.Effects

namespace PipeLang

/-! # Confined runs

A run stays within every policy that leaves new cells free and lets the nodes it allows write to
the cells they name. What a run can do to the heap is then a matter of finding a policy that
describes the start of the run.
-/

namespace Policy

variable {policy : Policy} {base heap : Heap} {scope : Scope} {values : List Value}

/-- Evaluation can follow the policy when it starts with the heap `base`. -/
structure Feasible (policy : Policy) (base : Heap) : Prop where
  fresh : ∀ (name : String) (cell : Cell), ¬ base.Allocated cell → policy.Binds name cell
  overwrite : ∀ {location left place name cell},
    policy.Allows (.binary location .mutate left (.reference place name)) →
    policy.Binds name cell → policy.Writes cell

/-- The heap has grown from `base` as the policy allows, and names lead to nothing else. -/
structure Confines (policy : Policy) (base heap : Heap) : Prop where
  grown : base.cells.size ≤ heap.cells.size
  kept : ∀ cell, base.Allocated cell → heap.contents cell = base.contents cell ∨ policy.Writes cell
  admitted : ∀ name cell, policy.Binds name cell → policy.AdmitsValues (heap.contents cell)

theorem Confines.allocate (confined : policy.Confines base heap)
    (admitted : policy.AdmitsValues values) : policy.Confines base (heap.allocate values) := by
  have grown := confined.grown
  refine ⟨?_, ?_, ?_⟩
  · simp only [Heap.allocate, Array.size_push]
    omega
  · intro cell allocated
    have present : heap.Allocated cell := Nat.lt_of_lt_of_le allocated grown
    rw [Heap.contents_allocate_of_allocated values present]
    exact confined.kept cell allocated
  · intro name cell binds
    by_cases new : cell = heap.next
    · subst new
      rw [Heap.contents_allocate_next]
      exact admitted
    · rw [Heap.contents_allocate_of_ne values new]
      exact confined.admitted name cell binds

theorem Confines.write {cell : Cell} (confined : policy.Confines base heap)
    (writes : policy.Writes cell) (admitted : policy.AdmitsValues values) :
    policy.Confines base (heap.write cell values) := by
  by_cases present : heap.Allocated cell
  · refine ⟨?_, ?_, ?_⟩
    · simpa [Heap.write] using confined.grown
    · intro other allocated
      by_cases same : other = cell
      · exact .inr (same ▸ writes)
      · rw [Heap.contents_write_of_ne values same]
        exact confined.kept other allocated
    · intro name other binds
      by_cases same : other = cell
      · subst same
        rw [Heap.contents_write_self values present]
        exact admitted
      · rw [Heap.contents_write_of_ne values same]
        exact confined.admitted name other binds
  · rwa [Heap.write_of_not_allocated values present]

/-- A frame whose scope and heap agree with the policy. -/
structure AdmitsFrame (policy : Policy) (base : Heap) (frame : Frame) : Prop where
  scope : policy.AdmitsScope frame.scope
  heap : policy.Confines base frame.machine.heap

theorem AdmitsFrame.define {frame : Frame} (feasible : policy.Feasible base)
    (admits : policy.AdmitsFrame base frame) (name : String)
    (admitted : policy.AdmitsValues values) :
    policy.AdmitsFrame base (frame.define name values) := by
  have unallocated : ¬ base.Allocated frame.machine.heap.next :=
    Nat.not_lt.mpr admits.heap.grown
  exact ⟨admits.scope.bind (feasible.fresh name _ unallocated), admits.heap.allocate admitted⟩

theorem AdmitsFrame.defineEach {frame : Frame} {parameters : List String} {arguments : List Value}
    (feasible : policy.Feasible base) (admits : policy.AdmitsFrame base frame)
    (admitted : policy.AdmitsValues arguments) :
    policy.AdmitsFrame base (frame.defineEach parameters arguments) := by
  induction parameters generalizing frame arguments with
  | nil => exact admits
  | cons parameter parameters ih =>
      cases arguments with
      | nil => exact admits
      | cons argument arguments =>
          have first : policy.AdmitsValues [argument] := by
            intro value member
            exact admitted value (List.mem_cons.mpr (.inl (List.mem_singleton.mp member)))
          have rest : policy.AdmitsValues arguments := by
            intro value member
            exact admitted value (List.mem_cons_of_mem argument member)
          exact ih (admits.define feasible parameter first) rest

/-- Values that are returned are admitted, and what is left behind satisfies `holds`. -/
def Keeps {State : Type} (policy : Policy) (holds : State → Prop)
    (outcome : Outcome Fault State) : Prop :=
  outcome.Ensures (fun values after => policy.AdmitsValues values ∧ holds after)
    (fun _ after => holds after)

/-- The evaluator stays within the policy. -/
def Governs (policy : Policy) (base : Heap) (run : Evaluator) : Prop :=
  ∀ expression frame, policy.Runs expression → policy.AdmitsFrame base frame →
    policy.Keeps (policy.AdmitsFrame base) (run expression frame)

/-- The part of the policy that a machine without a scope can meet. -/
def AdmitsMachine (policy : Policy) (base : Heap) (machine : Machine) : Prop :=
  policy.Confines base machine.heap

section Effects

variable {world later : World} {run : Evaluator} {frame : Frame} {machine : Machine}
  {arguments : List Value} {name : String} {location : Location} {rounds : Nat}

/-- The world goes no further than the policy. -/
structure Covers (policy : Policy) (base : Heap) (world : World) : Prop where
  extended : world.policy.Extends policy
  confined : policy.Confines base world.heap

theorem Covers.step (feasible : policy.Feasible base) (step : world.Step later)
    (covers : policy.Covers base world) : policy.Covers base later := by
  cases step with
  | define name supplied =>
      have unallocated : ¬ base.Allocated world.heap.next := Nat.not_lt.mpr covers.confined.grown
      constructor
      · constructor
        · exact covers.extended.allows
        · rintro other cell (before | ⟨rfl, rfl⟩)
          · exact covers.extended.binds other cell before
          · exact feasible.fresh other _ unallocated
      · exact covers.confined.allocate (supplied.mono covers.extended)
  | @write _ name cell mutates binds supplied =>
      obtain ⟨location, left, place, allowed⟩ := mutates.mono covers.extended
      have writes := feasible.overwrite allowed (covers.extended.binds name cell binds)
      exact ⟨covers.extended, covers.confined.write writes (supplied.mono covers.extended)⟩
  | close =>
      have confined := covers.confined
      exact ⟨covers.extended, confined.grown, confined.kept, confined.admitted⟩

def Confines.toWorld (confined : policy.Confines base heap) : World :=
  ⟨policy, heap, confined.admitted⟩

theorem Confines.covers (confined : policy.Confines base heap) :
    policy.Covers base confined.toWorld :=
  ⟨.refl policy, confined⟩

theorem keeps_of_leads {State : Type} {holds : World → State → Prop} {kept : State → Prop}
    {outcome : Outcome Fault State} (feasible : policy.Feasible base)
    (covers : policy.Covers base world) (leads : world.Leads holds outcome)
    (sound : ∀ later after, policy.Covers base later → holds later after → kept after) :
    policy.Keeps kept outcome := by
  apply leads.mono
  · rintro values after ⟨later, evolves, admitted, state⟩
    have ended : policy.Covers base later := evolves.keeps (Covers.step feasible) covers
    exact ⟨admitted.mono ended.extended, sound later after ended state⟩
  · rintro fault after ⟨later, evolves, state⟩
    have ended : policy.Covers base later := evolves.keeps (Covers.step feasible) covers
    exact sound later after ended state

theorem Covers.admitsMachine (covers : policy.Covers base world) (drives : world.Drives machine) :
    policy.AdmitsMachine base machine := by
  have same : machine.heap = world.heap := drives
  rw [AdmitsMachine, same]
  exact covers.confined

theorem Covers.admitsFrame (covers : policy.Covers base world) (carries : world.Carries frame) :
    policy.AdmitsFrame base frame :=
  ⟨carries.scope.mono covers.extended, covers.admitsMachine carries.heap⟩

theorem AdmitsFrame.carries (admits : policy.AdmitsFrame base frame) :
    admits.heap.toWorld.Carries frame :=
  ⟨rfl, admits.scope⟩

theorem keeps_callClosure {closure : Closure} (feasible : policy.Feasible base)
    (acts : run.Acts) (admitted : policy.AdmitsClosure closure)
    (supplied : policy.AdmitsValues arguments) (admits : policy.AdmitsMachine base machine) :
    policy.Keeps (policy.AdmitsMachine base)
      (callClosure run name location closure arguments machine) := by
  have start : policy.Confines base machine.heap := admits
  have leads : start.toWorld.Leads World.Drives
      (callClosure run name location closure arguments machine) :=
    World.leads_callClosure acts admitted supplied rfl
  exact keeps_of_leads feasible start.covers leads fun _ _ => Covers.admitsMachine

theorem keeps_callNamed (feasible : policy.Feasible base) (acts : run.Acts)
    (visible : policy.AdmitsScope scope) (supplied : policy.AdmitsValues arguments)
    (admits : policy.AdmitsMachine base machine) :
    policy.Keeps (policy.AdmitsMachine base)
      (callNamed run rounds name location arguments scope machine) := by
  have start : policy.Confines base machine.heap := admits
  have leads : start.toWorld.Leads World.Drives
      (callNamed run rounds name location arguments scope machine) :=
    World.leads_callNamed acts visible supplied rfl
  exact keeps_of_leads feasible start.covers leads fun _ _ => Covers.admitsMachine

theorem keeps_evaluateElement {element : Expression} (feasible : policy.Feasible base)
    (acts : run.Acts) (runs : policy.Runs element) (admits : policy.AdmitsFrame base frame) :
    policy.Keeps (policy.AdmitsFrame base) (evaluateElement run element frame) := by
  have leads : admits.heap.toWorld.Leads World.Carries (evaluateElement run element frame) :=
    World.leads_evaluateElement acts runs admits.carries
  exact keeps_of_leads feasible admits.heap.covers leads fun _ _ => Covers.admitsFrame

theorem governs_of_acts (feasible : policy.Feasible base) (acts : run.Acts) :
    policy.Governs base run := by
  intro expression frame runs admits
  have leads := acts admits.heap.toWorld expression frame runs admits.carries
  exact keeps_of_leads feasible admits.heap.covers leads fun _ _ => Covers.admitsFrame

/-- Evaluation stays within every feasible policy. -/
theorem governs_evaluate (feasible : policy.Feasible base) (steps : Nat) :
    policy.Governs base (evaluate steps) :=
  governs_of_acts feasible (evaluate_acts steps)

end Effects

end Policy

end PipeLang
