import Mathlib
import PipeLang.Proofs.Blame
import PipeLang.Proofs.Lossless
import PipeLang.Proofs.Requests

namespace PipeLang

/-! # Targets of source programs

A program that was read from a source assigns to variables only, and so do the lambdas that it
leaves behind in the cells. The error for another target is therefore never raised in a session,
whatever was run in it before and however that ended.
-/

namespace Expression

/-- Whatever is assigned or overwritten in the expression is a variable. -/
def TargetsVariables (expression : Expression) : Prop :=
  ∀ place operator left right, .binary place operator left right ∈ expression.nodes →
    operator ≠ .pipeline → right.tag = .reference

theorem Writable.targetsVariables {expression : Expression} (writable : expression.Writable) :
    expression.TargetsVariables := by
  intro place operator left right inside assigns
  have takes : operator.Takes right := (writable _ inside).2
  cases operator with
  | pipeline => exact absurd rfl assigns
  | assign | mutate => exact takes

end Expression

namespace Policy

/-- Only variables are assigned. -/
def targeting : Policy where
  Allows node := ∀ place operator left right, node = .binary place operator left right →
    operator ≠ .pipeline → right.tag = .reference
  Binds _ _ := True
  Writes _ := True

theorem targeting_feasible (base : Heap) : targeting.Feasible base where
  fresh _ _ _ := trivial
  overwrite _ _ := trivial

theorem targeting_runs {expression : Expression} :
    targeting.Runs expression ↔ expression.TargetsVariables := by
  constructor
  · intro runs place operator left right inside
    exact runs _ inside place operator left right rfl
  · rintro targets _ inside place operator left right rfl
    exact targets place operator left right inside

theorem not_targeting_explains (location : Location) (tag : Expression.Tag) :
    ¬ targeting.Explains (.runtime ⟨location, .notAVariable tag⟩) := by
  rintro ⟨noVariable, node, _, _, rfl, place, operator, left, assigns, allowed⟩
  exact noVariable (allowed place operator left node rfl assigns)

end Policy

namespace Session

def TargetsVariables (session : Session) : Prop :=
  Policy.targeting.AdmitsFrame .empty session

theorem start_targetsVariables (sink : Sink) : (start sink).TargetsVariables := by
  refine ⟨fun _ _ _ => trivial, Nat.le_refl _, fun _ _ => .inl rfl, ?_⟩
  intro name cell _ value member
  simp [start, Machine.fresh, Heap.empty, Heap.contents, Heap.contents?] at member

theorem TargetsVariables.contents {session : Session} (targets : session.TargetsVariables)
    {cell : Cell} {value : Value} {closure : Closure}
    (member : value ∈ session.machine.heap.contents cell) (holds : value.Holds closure) :
    closure.body.TargetsVariables :=
  Policy.targeting_runs.mp (targets.heap.admitted "" cell trivial value member closure holds).1

/-- An error of another sort, in front of a state that is still good. -/
def SparesTargets (error : Error) (after : Session) : Prop :=
  (∀ location tag, error ≠ .runtime ⟨location, .notAVariable tag⟩) ∧ after.TargetsVariables

variable {session : Session} {steps : Nat}

theorem run_targetsVariables (targets : session.TargetsVariables) (source : String) :
    (session.run steps source).Ensures (fun _ => TargetsVariables) SparesTargets := by
  unfold run
  split
  next error rejected =>
    refine ⟨?_, targets⟩
    cases error <;> simp [Error.ofSource]
  next program parsed =>
    obtain ⟨scanned, _, read⟩ := Expression.ofSource_eq_ok parsed
    have runs : Policy.targeting.Runs program :=
      Policy.targeting_runs.mpr (Expression.written_of_parse read).writable.targetsVariables
    have feasible := Policy.targeting_feasible Heap.empty
    have kept := Policy.governs_evaluate feasible steps program session runs targets
    unfold Session.evaluate
    cases evaluated : PipeLang.evaluate steps program session with
    | returned values after =>
        rw [evaluated] at kept
        exact kept.2
    | failed fault after =>
        rw [evaluated] at kept
        refine ⟨?_, kept⟩
        rintro location tag same
        cases fault with
        | output failure => cases same
        | runtime error =>
            cases same
            have explained := Policy.accounts_evaluate feasible steps program session runs targets
            exact Policy.not_targeting_explains location tag (explained _ after evaluated)
    | outOfSteps => trivial

theorem serve_targetsVariables (targets : session.TargetsVariables) (request : Request) :
    (session.serve steps request).Ensures (fun _ => TargetsVariables) SparesTargets := by
  cases request with
  | source text => exact run_targetsVariables targets text
  | file contents? =>
      simp only [serve, runFile]
      split
      · exact ⟨by simp, targets⟩
      · exact run_targetsVariables targets _

end Session

/-- No request to a session fails because of what it assigns to, whatever the requests before
it were and however they ended: all lambdas in the cells assign to variables only, those that
no variable leads to included. -/
theorem serveEach_assigns_to_variables (sink : Sink) (steps : Nat) (requests : List Request) :
    ∀ outcome ∈ (Session.start sink).serveEach steps requests,
      (∀ location tag after, outcome ≠ .failed (.runtime ⟨location, .notAVariable tag⟩) after) ∧
      ∀ after, outcome.Leaves after → ∀ cell, ∀ value ∈ after.machine.heap.contents cell,
        ∀ closure, value.Holds closure → closure.body.TargetsVariables := by
  intro outcome member
  have ensured := Session.serveEach_ensures (fun _ request targets =>
    Session.serve_targetsVariables targets request) (fun _ _ targets => targets)
    (fun _ _ spared => spared.2) (Session.start_targetsVariables sink) requests outcome member
  refine ⟨?_, ?_⟩
  · rintro location tag after rfl
    exact ensured.1 location tag rfl
  · intro after left cell value inside closure holds
    have targets : after.TargetsVariables :=
      Outcome.Ensures.of_leaves (ensured.mono (fun _ _ good => good) fun _ _ spared => spared.2) left
    exact targets.contents inside holds

def storingSource : String := "(() => true -> y) -> f"

def quotedTarget : String := "true -> \"y\""

/-- The session after `storingSource`. -/
def storedLambda : Session :=
  ⟨Scope.empty.bind "f" ⟨0⟩,
    ⟨⟨#[[.lambda ⟨0, [], .empty,
      .binary ⟨1, 13⟩ .assign (.boolean ⟨1, 8⟩ true) (.reference ⟨1, 16⟩ "y")⟩]], 1⟩, .unlimited⟩⟩

/-- Assigning to a string is no program, so the second request fails before anything runs, and
the lambda that the first one stored is still there. -/
theorem serveEach_assigns_to_variables_stored :
    .failed (.parse ⟨⟨1, 9⟩, .unexpectedToken .identifier .string⟩) storedLambda ∈
      (Session.start .unlimited).serveEach 5 [.source storingSource, .source quotedTarget] ∧
    ∃ closure, .lambda closure ∈ storedLambda.machine.heap.contents ⟨0⟩ ∧
      .binary ⟨1, 13⟩ .assign (.boolean ⟨1, 8⟩ true) (.reference ⟨1, 16⟩ "y") ∈
        closure.body.nodes ∧
      closure.body.TargetsVariables := by
  have storedScanned : scan storingSource =
      .ok ⟨[⟨⟨1, 1⟩, .leftParen⟩, ⟨⟨1, 2⟩, .leftParen⟩, ⟨⟨1, 3⟩, .rightParen⟩, ⟨⟨1, 5⟩, .arrow⟩,
        ⟨⟨1, 8⟩, .boolean true⟩, ⟨⟨1, 13⟩, .assign⟩, ⟨⟨1, 16⟩, .identifier "y"⟩,
        ⟨⟨1, 17⟩, .rightParen⟩, ⟨⟨1, 19⟩, .assign⟩, ⟨⟨1, 22⟩, .identifier "f"⟩], ⟨1, 23⟩⟩ := by
    cbv
  have quotedScanned : scan quotedTarget =
      .ok ⟨[⟨⟨1, 1⟩, .boolean true⟩, ⟨⟨1, 6⟩, .assign⟩, ⟨⟨1, 9⟩, .string "y"⟩], ⟨1, 12⟩⟩ := by
    cbv
  have stored : (Session.start .unlimited).serve 5 (.source storingSource) =
      .returned [.lambda ⟨0, [], .empty,
        .binary ⟨1, 13⟩ .assign (.boolean ⟨1, 8⟩ true) (.reference ⟨1, 16⟩ "y")⟩] storedLambda := by
    simp only [Session.serve, Session.run, Expression.ofSource, storedScanned]
    rfl
  have rejected : storedLambda.serve 5 (.source quotedTarget) =
      .failed (.parse ⟨⟨1, 9⟩, .unexpectedToken .identifier .string⟩) storedLambda := by
    simp only [Session.serve, Session.run, Expression.ofSource, quotedScanned]
    rfl
  have member : .failed (.parse ⟨⟨1, 9⟩, .unexpectedToken .identifier .string⟩) storedLambda ∈
      (Session.start .unlimited).serveEach 5 [.source storingSource, .source quotedTarget] := by
    simp [Session.serveEach, stored, rejected]
  obtain ⟨_, targets⟩ := serveEach_assigns_to_variables .unlimited 5
    [.source storingSource, .source quotedTarget] _ member
  refine ⟨member, _, List.mem_singleton_self _, List.mem_cons_self .., ?_⟩
  exact targets storedLambda (.inr ⟨_, rfl⟩) ⟨0⟩ _ (List.mem_singleton_self _) _ .lambda

end PipeLang
