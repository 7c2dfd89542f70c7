import PipeLang.Evaluation.Evaluate
import PipeLang.Proofs.Reach

namespace PipeLang

/-! # Values that differ in their lambdas

Two runs that follow each other need not make the same lambdas. Their values are alike if they
differ in nothing else, and if the lambdas that stand in the same places correspond. No builtin
function tells such values apart, as long as corresponding lambdas have the same parameters,
which is all of a lambda that is ever shown.
-/

inductive Alike (same : Closure → Closure → Prop) : List Value → List Value → Prop
  | nil : Alike same [] []
  | number {values others : List Value} (value : Float) (rest : Alike same values others) :
      Alike same (.number value :: values) (.number value :: others)
  | string {values others : List Value} (text : String) (rest : Alike same values others) :
      Alike same (.string text :: values) (.string text :: others)
  | boolean {values others : List Value} (value : Bool) (rest : Alike same values others) :
      Alike same (.boolean value :: values) (.boolean value :: others)
  | tuple {elements parts values others : List Value} (inside : Alike same elements parts)
      (rest : Alike same values others) : Alike same (.tuple elements :: values) (.tuple parts :: others)
  | lambda {closure other : Closure} {values others : List Value} (twins : same closure other)
      (rest : Alike same values others) :
      Alike same (.lambda closure :: values) (.lambda other :: others)

namespace Alike

variable {same : Closure → Closure → Prop} {value : Value} {values others : List Value}

theorem uncons (alike : Alike same (value :: values) others) :
    ∃ other rest, others = other :: rest ∧ Alike same [value] [other] ∧ Alike same values rest := by
  cases alike with
  | number value rest => exact ⟨_, _, rfl, .number value .nil, rest⟩
  | string text rest => exact ⟨_, _, rfl, .string text .nil, rest⟩
  | boolean value rest => exact ⟨_, _, rfl, .boolean value .nil, rest⟩
  | tuple inside rest => exact ⟨_, _, rfl, .tuple inside .nil, rest⟩
  | lambda twins rest => exact ⟨_, _, rfl, .lambda twins .nil, rest⟩

theorem pair {first second : Value} (alike : Alike same [first, second] others) :
    ∃ head next, others = [head, next] ∧ Alike same [first] [head] ∧ Alike same [second] [next] := by
  obtain ⟨head, rest, rfl, front, later⟩ := alike.uncons
  obtain ⟨next, rest, rfl, back, nothing⟩ := later.uncons
  cases nothing
  exact ⟨head, next, rfl, front, back⟩

theorem append {more further : List Value} (alike : Alike same values others)
    (rest : Alike same more further) : Alike same (values ++ more) (others ++ further) := by
  induction alike with
  | nil => exact rest
  | number value _ ih => exact .number value ih
  | string text _ ih => exact .string text ih
  | boolean value _ ih => exact .boolean value ih
  | tuple inside _ _ ih => exact .tuple inside ih
  | lambda twins _ ih => exact .lambda twins ih

theorem mono {like : Closure → Closure → Prop} (alike : Alike same values others)
    (weaker : ∀ closure other, same closure other → like closure other) :
    Alike like values others := by
  induction alike with
  | nil => exact .nil
  | number value _ ih => exact .number value ih
  | string text _ ih => exact .string text ih
  | boolean value _ ih => exact .boolean value ih
  | tuple _ _ insideIH ih => exact .tuple insideIH ih
  | lambda twins _ ih => exact .lambda (weaker _ _ twins) ih

theorem map (change : Value → Value)
    (each : ∀ value ∈ values, ∀ {rest others : List Value}, Alike same rest others →
      Alike same (value :: rest) (change value :: others)) :
    Alike same values (values.map change) := by
  induction values with
  | nil => exact .nil
  | cons value values ih =>
      exact each value List.mem_cons_self
        (ih fun other member => each other (List.mem_cons_of_mem value member))

theorem cons_self (held : ∀ closure, value.Holds closure → same closure closure)
    (rest : Alike same values others) : Alike same (value :: values) (value :: others) := by
  induction value generalizing values others with
  | number value => exact .number value rest
  | string text => exact .string text rest
  | boolean value => exact .boolean value rest
  | tuple elements ih =>
      have inside : Alike same elements (elements.map id) :=
        map id fun part member =>
          ih part member fun closure holds => held closure (.tuple member holds)
      rw [List.map_id] at inside
      exact .tuple inside rest
  | lambda closure => exact .lambda (held closure .lambda) rest

theorem refl (held : ∀ value ∈ values, ∀ closure, value.Holds closure → same closure closure) :
    Alike same values values := by
  have alike : Alike same values (values.map id) :=
    map id fun value member => cons_self (held value member)
  rwa [List.map_id] at alike

theorem counterpart {closure : Closure} (alike : Alike same values others) (member : value ∈ values)
    (holds : value.Holds closure) : ∃ other, same closure other := by
  induction alike generalizing value with
  | nil => cases member
  | number _ _ ih | string _ _ ih | boolean _ _ ih =>
      rcases List.mem_cons.mp member with rfl | member
      · cases holds
      · exact ih member holds
  | tuple _ _ insideIH ih =>
      rcases List.mem_cons.mp member with rfl | member
      · cases holds with
        | tuple member inside => exact insideIH member inside
      · exact ih member holds
  | lambda twins _ ih =>
      rcases List.mem_cons.mp member with rfl | member
      · cases holds
        exact ⟨_, twins⟩
      · exact ih member holds

theorem eq (alike : Alike Eq values others) : values = others := by
  induction alike with
  | nil => rfl
  | number _ _ ih | string _ _ ih | boolean _ _ ih => rw [ih]
  | tuple _ _ insideIH ih => rw [insideIH, ih]
  | lambda twins _ ih => rw [twins, ih]

theorem length_eq (alike : Alike same values others) : values.length = others.length := by
  induction alike <;> simp_all

theorem asBoolean_eq {other : Value} (alike : Alike same [value] [other]) :
    value.asBoolean = other.asBoolean := by
  cases alike <;> rfl

/-- Either both values are no lambdas, with the same error, or they correspond as lambdas. -/
theorem asLambda {other : Value} (alike : Alike same [value] [other]) :
    (∃ cause, value.asLambda = .error cause ∧ other.asLambda = .error cause) ∨
      ∃ closure twin, value.asLambda = .ok closure ∧ other.asLambda = .ok twin ∧
        same closure twin := by
  cases alike with
  | lambda twins => exact .inr ⟨_, _, rfl, rfl, twins⟩
  | number | string | boolean | tuple => exact .inl ⟨_, rfl, rfl⟩

theorem conditionAnswer_eq (alike : Alike same values others) :
    conditionAnswer values = conditionAnswer others := by
  match values, others, alike with
  | [], [], _ => rfl
  | [value], [other], alike => exact alike.asBoolean_eq
  | _ :: _ :: values, _ :: _ :: others, alike =>
      have equal := alike.length_eq
      simp only [List.length_cons] at equal
      simp only [conditionAnswer, List.length_cons, equal]

theorem asNumbers_eq (alike : Alike same values others) :
    Value.asNumbers values = Value.asNumbers others := by
  induction alike with
  | nil => rfl
  | number _ _ ih => simp only [Value.asNumbers, ih]
  | string | boolean | tuple | lambda => rfl

theorem arithmetic_eq (alike : Alike same values others) (operation : Arithmetic) :
    operation.apply values = operation.apply others := by
  rw [Arithmetic.apply, Arithmetic.apply, alike.asNumbers_eq]

theorem holdsBetween_eq (alike : Alike same values others) (relation : Comparison) :
    relation.holdsBetween values = relation.holdsBetween others := by
  induction alike with
  | nil => rfl
  | number value rest ih =>
      cases rest with
      | nil => rfl
      | number => simp only [Comparison.holdsBetween, ih]
      | string | boolean | tuple | lambda => rfl
  | string _ rest | boolean _ rest | tuple _ rest | lambda _ rest => cases rest <;> rfl

theorem comparison_eq (alike : Alike same values others) (relation : Comparison) :
    relation.apply values = relation.apply others := by
  rw [Comparison.apply, Comparison.apply, alike.length_eq, alike.holdsBetween_eq]

theorem renderEach_eq (alike : Alike same values others)
    (parameters : ∀ closure other, same closure other → closure.parameters = other.parameters) :
    Value.renderEach values = Value.renderEach others := by
  induction alike with
  | nil => rfl
  | number _ _ ih | string _ _ ih | boolean _ _ ih => simp only [Value.renderEach, Value.render, ih]
  | tuple _ _ insideIH ih => simp only [Value.renderEach, Value.render, insideIH, ih]
  | lambda twins _ ih =>
      simp only [Value.renderEach, Value.render, parameters _ _ twins, ih]

end Alike

end PipeLang
