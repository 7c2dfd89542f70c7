import PipeLang.Proofs.Answers
import PipeLang.Proofs.Jobs

namespace PipeLang

/-! # Scripts

The one thing that an evaluation learns from the sink is whether a line could be written, and if
not it fails at once. So all runs from the same scope and heap follow one script: some lines to
write, and the ending that is reached if all of them are written.
-/

/-- Writes lines one after the other, up to the first that fails. -/
def Sink.writeLines (sink : Sink) : List String → Option OutputFailure × Sink
  | [] => (none, sink)
  | line :: others =>
      match sink.writeLine line with
      | (none, after) => after.writeLines others
      | (some failure, after) => (some failure, after)

theorem Sink.writeLines_append (sink : Sink) (lines others : List String) :
    sink.writeLines (lines ++ others) =
      match sink.writeLines lines with
      | (none, after) => after.writeLines others
      | (some failure, after) => (some failure, after) := by
  induction lines generalizing sink with
  | nil => rfl
  | cons line rest ih =>
      simp only [List.cons_append, writeLines]
      cases sink.writeLine line with
      | mk failure? after =>
          cases failure? with
          | none => exact ih after
          | some failure => rfl

structure Script (Stem : Type) where
  lines : List String
  /-- How the run ends, apart from what is in the sink. -/
  ending : Outcome RuntimeError Stem

section Scripted

variable {Stem Stock State Other : Type} {join : Stem → Sink → State} {place : Stock → Sink → Other}
  {run : Sink → Outcome Fault State}

/-- An outcome on a sink is what a script says. What is left besides the sink after a failed
line is not told. -/
def Script.Tells (join : Stem → Sink → State) (script : Script Stem) (sink : Sink)
    (outcome : Outcome Fault State) : Prop :=
  match sink.writeLines script.lines with
  | (none, after) => outcome = (script.ending.mapFailure .runtime).mapState (join · after)
  | (some failure, after) => ∃ stem, outcome = .failed (.output failure) (join stem after)

/-- One script tells the outcomes on all sinks. -/
def Scripted (join : Stem → Sink → State) (run : Sink → Outcome Fault State) : Prop :=
  ∃ script : Script Stem, ∀ sink, script.Tells join sink (run sink)

/-- What goes on with an outcome appends its lines, if it hands failures to write on. -/
theorem Script.Tells.goOn {script : Script Stem} {sink : Sink} {outcome : Outcome Fault State}
    (told : script.Tells join sink outcome) (change : Outcome Fault State → Outcome Fault Other)
    (later : Script Stock)
    (fails : ∀ failure stem after, ∃ stock, change (.failed (.output failure) (join stem after)) =
      .failed (.output failure) (place stock after))
    (ends : ∀ after, later.Tells place after
      (change ((script.ending.mapFailure .runtime).mapState (join · after)))) :
    Script.Tells place ⟨script.lines ++ later.lines, later.ending⟩ sink (change outcome) := by
  simp only [Tells, Sink.writeLines_append] at told ⊢
  match wrote : sink.writeLines script.lines with
  | (none, after) =>
      rw [wrote] at told
      rw [told]
      exact ends after
  | (some failure, after) =>
      rw [wrote] at told
      obtain ⟨stem, rfl⟩ := told
      exact fails failure stem after

namespace Scripted

theorem silent (ending : Outcome RuntimeError Stem)
    (same : ∀ sink, run sink = (ending.mapFailure .runtime).mapState (join · sink)) :
    Scripted join run :=
  ⟨⟨[], ending⟩, same⟩

theorem returned (values : List Value) (stem : Stem)
    (same : ∀ sink, run sink = .returned values (join stem sink)) : Scripted join run :=
  silent (.returned values stem) same

theorem failed {error : RuntimeError} (stem : Stem)
    (same : ∀ sink, run sink = .failed (.runtime error) (join stem sink)) : Scripted join run :=
  silent (.failed error stem) same

theorem andThen {next : List Value → State → Outcome Fault State} (first : Scripted join run)
    (continues : ∀ values stem, Scripted join fun sink => next values (join stem sink)) :
    Scripted join fun sink => (run sink).andThen next := by
  obtain ⟨⟨lines, ending⟩, tells⟩ := first
  -- Only a run that returns goes on, and then from a state that does not depend on the sink.
  cases ending with
  | returned values stem =>
      obtain ⟨later, toldNext⟩ := continues values stem
      exact ⟨_, fun sink => (tells sink).goOn (·.andThen next) later
        (fun _ stem _ => ⟨stem, rfl⟩) toldNext⟩
  | failed error stem =>
      exact ⟨_, fun sink => (tells sink).goOn (·.andThen next) ⟨[], .failed error stem⟩
        (fun _ stem _ => ⟨stem, rfl⟩) fun _ => rfl⟩
  | outOfSteps =>
      exact ⟨_, fun sink => (tells sink).goOn (·.andThen next) ⟨[], .outOfSteps⟩
        (fun _ stem _ => ⟨stem, rfl⟩) fun _ => rfl⟩

theorem mapValues {change : List Value → List Value} (scripted : Scripted join run) :
    Scripted join fun sink => (run sink).mapValues change :=
  scripted.andThen fun _ _ => returned _ _ fun _ => rfl

theorem mapState {change : State → Other} (scripted : Scripted join run) (shift : Stem → Stock)
    (commutes : ∀ stem sink, change (join stem sink) = place (shift stem) sink) :
    Scripted place fun sink => (run sink).mapState change := by
  obtain ⟨script, tells⟩ := scripted
  refine ⟨_, fun sink => (tells sink).goOn (·.mapState change) ⟨[], script.ending.mapState shift⟩
    (fun _ stem after => ⟨shift stem, congrArg _ (commutes stem after)⟩) fun after => ?_⟩
  cases ended : script.ending <;>
    simp [Script.Tells, Sink.writeLines, Outcome.mapState, Outcome.mapFailure, commutes]

end Scripted

end Scripted

/-- The frame with a scope and a heap that writes to a sink. -/
def Frame.writingTo (stem : Scope × Heap) (sink : Sink) : Frame :=
  ⟨stem.1, ⟨stem.2, sink⟩⟩

theorem Frame.defineEach_writingTo (stem : Scope × Heap) (parameters : List String)
    (arguments : List Value) :
    ∃ entered, ∀ sink,
      (writingTo stem sink).defineEach parameters arguments = writingTo entered sink := by
  induction parameters generalizing stem arguments with
  | nil => exact ⟨stem, fun _ => rfl⟩
  | cons parameter parameters ih =>
      cases arguments with
      | nil => exact ⟨stem, fun _ => rfl⟩
      | cons argument arguments => exact ih (stem.2.define stem.1 parameter [argument]) arguments

def Evaluator.Scripted (run : Evaluator) : Prop :=
  ∀ expression stem, PipeLang.Scripted Frame.writingTo fun sink =>
    run expression (.writingTo stem sink)

namespace Evaluator.Scripted

variable {run : Evaluator} {rounds : Nat} {name : String} {location : Location}
  {arguments values : List Value} {heap : Heap} {stem : Scope × Heap}

theorem callClosure {closure : Closure} (scripted : run.Scripted) (heap : Heap) :
    PipeLang.Scripted Machine.mk fun sink =>
      callClosure run name location closure arguments ⟨heap, sink⟩ := by
  unfold PipeLang.callClosure
  split
  · obtain ⟨entered, enters⟩ :=
      Frame.defineEach_writingTo (closure.scope, heap) closure.parameters arguments
    have enters (sink : Sink) : Frame.defineEach ⟨closure.scope, heap, sink⟩ closure.parameters
        arguments = .writingTo entered sink := enters sink
    simp only [enters]
    exact (scripted closure.body entered).mapState Prod.snd fun _ _ => rfl
  · exact .failed _ fun _ => rfl

theorem iterate {condition body : Machine → Outcome Fault Machine}
    (tests : ∀ heap, PipeLang.Scripted Machine.mk fun sink => condition ⟨heap, sink⟩)
    (repeats : ∀ heap, PipeLang.Scripted Machine.mk fun sink => body ⟨heap, sink⟩) :
    PipeLang.Scripted Machine.mk fun sink =>
      iterate location condition body rounds values ⟨heap, sink⟩ := by
  induction rounds generalizing values heap with
  | zero => exact .silent .outOfSteps fun _ => rfl
  | succ rounds ih =>
      refine (tests heap).andThen fun answer tested => ?_
      match conditionAnswer answer with
      | .error cause => exact .failed _ fun _ => rfl
      | .ok false => exact .returned _ _ fun _ => rfl
      | .ok true => exact (repeats tested).andThen fun result repeated => ih

theorem answer {result : Except RuntimeCause (List Value)} :
    PipeLang.Scripted Machine.mk fun sink => Machine.answer ⟨heap, sink⟩ location result := by
  cases result with
  | ok values => exact .returned _ _ fun _ => rfl
  | error cause => exact .failed _ fun _ => rfl

theorem print (line : String) :
    PipeLang.Scripted Machine.mk fun sink => Machine.print ⟨heap, sink⟩ line := by
  refine ⟨⟨[line], .returned [] heap⟩, fun sink => ?_⟩
  simp only [Script.Tells, Sink.writeLines, Machine.print]
  rcases sink.writeLine line with ⟨_ | failure, after⟩
  · rfl
  · exact ⟨heap, rfl⟩

theorem perform {job : Job} (scripted : run.Scripted) :
    PipeLang.Scripted Machine.mk fun sink => job.perform run rounds location ⟨heap, sink⟩ := by
  cases job with
  | answer result => exact answer
  | print line => exact print line
  | repeatWhile condition body => exact iterate scripted.callClosure scripted.callClosure
  | runOnce body => exact (scripted.callClosure heap).mapValues

theorem callNamed {scope : Scope} (scripted : run.Scripted) :
    PipeLang.Scripted Machine.mk fun sink =>
      callNamed run rounds name location arguments scope ⟨heap, sink⟩ := by
  unfold PipeLang.callNamed
  split
  · dsimp only
    split
    · exact scripted.callClosure heap
    · exact .failed _ fun _ => rfl
  · split
    · simp only [applyBuiltin_eq_perform]
      exact scripted.perform
    · exact .failed _ fun _ => rfl

theorem evaluateElement {element : Expression} (scripted : run.Scripted) :
    PipeLang.Scripted Frame.writingTo fun sink =>
      evaluateElement run element (.writingTo stem sink) := by
  cases element with
  | reference location name =>
      simp only [PipeLang.evaluateElement, Frame.writingTo]
      split
      next cell _ => exact .returned (stem.2.contents cell) stem fun _ => rfl
      next => exact .failed stem fun _ => rfl
  | tuple location elements => exact (scripted _ stem).mapValues
  | number | string | boolean | lambda | binary => exact scripted _ stem

theorem evaluateElements {elements : List Expression} (scripted : run.Scripted) :
    PipeLang.Scripted Frame.writingTo fun sink =>
      evaluateElements run elements (.writingTo stem sink) := by
  induction elements generalizing stem with
  | nil => exact .returned _ _ fun _ => rfl
  | cons element others ih =>
      exact scripted.evaluateElement.andThen fun values middle => ih.mapValues

theorem applyOperator {operator : Operator} {right : Expression} (scripted : run.Scripted) :
    PipeLang.Scripted Frame.writingTo fun sink =>
      applyOperator run rounds operator values right (.writingTo stem sink) := by
  cases right with
  | reference location name =>
      cases operator with
      | pipeline =>
          simp only [PipeLang.applyOperator, Frame.writingTo]
          exact scripted.callNamed.mapState (stem.1, ·) fun _ _ => rfl
      | assign => exact .returned values (stem.2.define stem.1 name values) fun _ => rfl
      | mutate =>
          simp only [PipeLang.applyOperator, Frame.writingTo]
          split
          next cell _ => exact .returned values (stem.1, stem.2.write cell values) fun _ => rfl
          next => exact .failed stem fun _ => rfl
  | number | string | boolean | tuple | lambda | binary =>
      cases operator with
      | pipeline => exact scripted _ stem
      | assign | mutate => exact .failed _ fun _ => rfl

theorem evaluateWith (scripted : run.Scripted) : Evaluator.Scripted (evaluateWith run rounds) := by
  intro expression stem
  cases expression with
  | number | string | boolean => exact .returned _ _ fun _ => rfl
  | reference location name => exact .failed _ fun _ => rfl
  | tuple location elements => exact scripted.evaluateElements
  | lambda location parameters body =>
      exact .returned [.lambda (stem.2.close parameters stem.1 body).1]
        (stem.1, (stem.2.close parameters stem.1 body).2) fun _ => rfl
  | binary location operator left right =>
      exact (scripted left stem).andThen fun values middle => scripted.applyOperator

end Evaluator.Scripted

theorem evaluate_scripted (steps : Nat) : Evaluator.Scripted (evaluate steps) :=
  evaluate_induction (fun _ _ => Scripted.silent .outOfSteps fun _ => rfl)
    (fun _ _ => Evaluator.Scripted.evaluateWith) steps

end PipeLang
