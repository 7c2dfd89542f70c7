import PipeLang.Proofs.Unparse

namespace PipeLang

/-! # Derivations in the grammar

The grammar says which lists of tokens are programs without saying how they are read. Where it
leaves open how far the body of a lambda goes, every reading counts as a derivation, although a
parse always takes the longest body. Nothing is lost by that: an operator that a derivation puts
behind a lambda can be moved into its body.
-/

/-- What the rules of the grammar derive. A chain of operators, the elements of a tuple and the
parameters of a lambda are phrases of their own. -/
inductive Phrase where
  | program
  | expression
  | operations
  | value
  | tuple
  | elements
  | lambda
  | parameters
  | reference
deriving DecidableEq, Repr

/-- The tokens of these kinds can be derived as such a phrase. -/
inductive Derives : Phrase → List Token.Kind → Prop where
  | program {kinds : List Token.Kind} (whole : Derives .expression kinds) :
      Derives .program kinds
  | expression {first others : List Token.Kind} (value : Derives .value first)
      (chain : Derives .operations others) : Derives .expression (first ++ others)
  | noOperation : Derives .operations []
  | pipeline {before right : List Token.Kind} (chain : Derives .operations before)
      (operand : Derives .value right) : Derives .operations (before ++ .pipeline :: right)
  | assign {before right : List Token.Kind} (chain : Derives .operations before)
      (target : Derives .reference right) : Derives .operations (before ++ .assign :: right)
  | mutate {before right : List Token.Kind} (chain : Derives .operations before)
      (target : Derives .reference right) : Derives .operations (before ++ .mutate :: right)
  | lambdaValue {kinds : List Token.Kind} (function : Derives .lambda kinds) : Derives .value kinds
  | tupleValue {kinds : List Token.Kind} (group : Derives .tuple kinds) : Derives .value kinds
  | referenceValue {kinds : List Token.Kind} (name : Derives .reference kinds) :
      Derives .value kinds
  | number (value : Float) : Derives .value [.number value]
  | string (text : String) : Derives .value [.string text]
  | boolean (value : Bool) : Derives .value [.boolean value]
  | emptyTuple : Derives .tuple [.leftParen, .rightParen]
  | tuple {inside : List Token.Kind} (elements : Derives .elements inside) :
      Derives .tuple (.leftParen :: (inside ++ [.rightParen]))
  | lastElement {kinds : List Token.Kind} (element : Derives .expression kinds) :
      Derives .elements kinds
  | element {first others : List Token.Kind} (element : Derives .expression first)
      (elements : Derives .elements others) : Derives .elements (first ++ .comma :: others)
  | constantLambda {inner : List Token.Kind} (body : Derives .expression inner) :
      Derives .lambda (.leftParen :: .rightParen :: .arrow :: inner)
  | lambda {names inner : List Token.Kind} (parameters : Derives .parameters names)
      (body : Derives .expression inner) :
      Derives .lambda (.leftParen :: (names ++ .rightParen :: .arrow :: inner))
  | lastParameter {kinds : List Token.Kind} (parameter : Derives .reference kinds) :
      Derives .parameters kinds
  | parameter {first others : List Token.Kind} (parameter : Derives .reference first)
      (parameters : Derives .parameters others) : Derives .parameters (first ++ .comma :: others)
  | reference (name : String) : Derives .reference [.identifier name]

/-- What the grammar requires to the right of the operator. -/
def Operator.operand : Operator → Phrase
  | .pipeline => .value
  | .assign => .reference
  | .mutate => .reference

namespace Expression

variable {expression left right : Expression} {operator : Operator} {elements : List Expression}

def elementKinds (elements : List Expression) : List Token.Kind :=
  (Mark.separated (spellings elements)).map Mark.kind

def parameterKinds (names : List String) : List Token.Kind :=
  (parameterSpelling names).map Mark.kind

@[simp] theorem elementKinds_singleton (element : Expression) :
    elementKinds [element] = element.unparse := by
  simp [elementKinds, spellings, unparse]

@[simp] theorem elementKinds_cons_cons (first second : Expression) (others : List Expression) :
    elementKinds (first :: second :: others) =
      first.unparse ++ .comma :: elementKinds (second :: others) := by
  simp [elementKinds, spellings, unparse, Mark.plain]

@[simp] theorem parameterKinds_cons_cons (first second : String) (others : List String) :
    parameterKinds (first :: second :: others) =
      [.identifier first] ++ .comma :: parameterKinds (second :: others) := by
  simp [parameterKinds, parameterSpelling, Mark.plain]

theorem parameterKinds_concat {names : List String} (some : names ≠ []) (name : String) :
    parameterKinds (names ++ [name]) = parameterKinds names ++ [.comma, .identifier name] := by
  induction names with
  | nil => exact absurd rfl some
  | cons first others ih =>
      cases others with
      | nil => rfl
      | cons second others => simpa using ih (List.cons_ne_nil second others)

theorem unparse_tuple (location : Location) (elements : List Expression) :
    (Expression.tuple location elements).unparse =
      .leftParen :: (elementKinds elements ++ [.rightParen]) := by
  simp [unparse, spelling, elementKinds, Mark.plain, Mark.introducing]

theorem unparse_lambda (location : Location) (names : List String) (body : Expression) :
    (Expression.lambda location names body).unparse =
      .leftParen :: (parameterKinds names ++ .rightParen :: .arrow :: body.unparse) := by
  simp [unparse, spelling, parameterKinds, Mark.plain, Mark.introducing]

theorem unparse_binary (location : Location) (operator : Operator) (left right : Expression) :
    (Expression.binary location operator left right).unparse =
      left.unparse ++ operator.kind :: right.unparse := by
  simp [unparse, spelling, Mark.introducing]

theorem derives_parameters {names : List String} (some : names ≠ []) :
    Derives .parameters (parameterKinds names) := by
  induction names with
  | nil => exact absurd rfl some
  | cons name others ih =>
      cases others with
      | nil => exact .lastParameter (.reference name)
      | cons second others =>
          rw [parameterKinds_cons_cons]
          exact .parameter (.reference name) (ih (List.cons_ne_nil second others))

theorem derives_lambda (names : List String) {inner : List Token.Kind}
    (body : Derives .expression inner) :
    Derives .lambda (.leftParen :: (parameterKinds names ++ .rightParen :: .arrow :: inner)) := by
  cases names with
  | nil => exact .constantLambda body
  | cons name others => exact .lambda (derives_parameters (List.cons_ne_nil name others)) body

theorem derives_elements (some : elements ≠ [])
    (each : ∀ element ∈ elements, Derives .expression element.unparse) :
    Derives .elements (elementKinds elements) := by
  induction elements with
  | nil => exact absurd rfl some
  | cons element others ih =>
      have first := each element List.mem_cons_self
      cases others with
      | nil =>
          rw [elementKinds_singleton]
          exact .lastElement first
      | cons second others =>
          rw [elementKinds_cons_cons]
          exact .element first (ih (List.cons_ne_nil second others)
            fun other member => each other (List.mem_cons_of_mem element member))

theorem derives_expression {kinds : List Token.Kind} (value : Derives .value kinds) :
    Derives .expression kinds := by
  simpa using Derives.expression value .noOperation

/-- An operator with its right operand goes on with the chain of an expression. -/
theorem derives_operation {before after : List Token.Kind} (whole : Derives .expression before)
    (operand : Derives operator.operand after) :
    Derives .expression (before ++ operator.kind :: after) := by
  cases whole with
  | expression value chain =>
      rw [List.append_assoc]
      refine .expression value ?_
      cases operator with
      | pipeline => exact .pipeline chain operand
      | assign => exact .assign chain operand
      | mutate => exact .mutate chain operand

theorem derives_of_writable (writable : expression.Writable) :
    Derives .expression expression.unparse ∧
      (expression.tag ≠ .binary → Derives .value expression.unparse) := by
  have single {kinds : List Token.Kind} (value : Derives .value kinds) (condition : Prop) :
      Derives .expression kinds ∧ (condition → Derives .value kinds) :=
    ⟨derives_expression value, fun _ => value⟩
  induction expression with
  | number location value => exact single (.number value) _
  | string location text => exact single (.string text) _
  | boolean location value => exact single (.boolean value) _
  | reference location name => exact single (.referenceValue (.reference name)) _
  | tuple location elements ih =>
      rw [unparse_tuple]
      refine single (.tupleValue ?_) _
      cases elements with
      | nil => exact .emptyTuple
      | cons element others =>
          have each := writable_tuple.mp writable
          exact .tuple (derives_elements (List.cons_ne_nil element others)
            fun other member => (ih other member (each other member)).1)
  | lambda location names body ih =>
      rw [unparse_lambda]
      have inner := (ih (writable_lambda.mp writable)).1
      exact single (.lambdaValue (derives_lambda names inner)) _
  | binary location operator left right leftIH rightIH =>
      rw [unparse_binary]
      obtain ⟨⟨_, takes⟩, first, second⟩ := writable_binary.mp writable
      refine ⟨derives_operation (leftIH first).1 ?_, fun notChain => absurd rfl notChain⟩
      cases operator with
      | pipeline => exact (rightIH second).2 takes
      | assign | mutate =>
          cases right with
          | reference place name => exact .reference name
          | _ => cases takes

/-- The expression with an operator and its right operand behind it. They belong to the body that
the expression ends in, if it ends in one. -/
def attach : Expression → Operator → Expression → Expression
  | .lambda location names body, operator, right =>
      .lambda location names (body.attach operator right)
  | .binary location sign first second, operator, right =>
      if (Expression.binary location sign first second).endsInBody then
        .binary location sign first (second.attach operator right)
      else .binary .start operator (.binary location sign first second) right
  | operand, operator, right => .binary .start operator operand right

theorem unparse_attach (left : Expression) (operator : Operator) (right : Expression) :
    (left.attach operator right).unparse = left.unparse ++ operator.kind :: right.unparse := by
  induction left with
  | lambda location names body ih =>
      rw [attach, unparse_lambda, unparse_lambda, ih]
      simp
  | binary location sign first second _ ih =>
      rw [attach]
      split
      · rw [unparse_binary, unparse_binary, ih]
        simp
      · exact unparse_binary _ _ _ _
  | _ => exact unparse_binary _ _ _ _

theorem writable_leaf {leaf : Expression} (alone : leaf.nodes = [leaf])
    (single : leaf.tag ≠ .binary) : leaf.Writable := by
  intro node member
  rw [alone] at member
  cases List.mem_singleton.mp member
  cases leaf with
  | binary => exact absurd rfl single
  | _ => trivial

theorem endsInBody_binary {location : Location}
    (ends : (Expression.binary location operator left right).endsInBody = true) :
    operator = .pipeline ∧ right.tag = .lambda := by
  cases operator <;> cases right <;> first | exact ⟨rfl, rfl⟩ | cases ends

theorem writable_attach (takes : operator.Takes right) (before : left.Writable)
    (after : right.Writable) : (left.attach operator right).Writable := by
  have apart {operand : Expression} (complete : operand.endsInBody = false)
      (writable : operand.Writable) : (Expression.binary .start operator operand right).Writable :=
    writable_binary.mpr ⟨⟨complete, takes⟩, writable, after⟩
  induction left with
  | lambda location names body ih =>
      rw [attach]
      exact writable_lambda.mpr (ih (writable_lambda.mp before))
  | binary location sign first second _ ih =>
      rw [attach]
      split
      next ends =>
        obtain ⟨⟨complete, _⟩, firstWritable, secondWritable⟩ := writable_binary.mp before
        obtain ⟨rfl, isLambda⟩ := endsInBody_binary ends
        refine writable_binary.mpr ⟨⟨complete, ?_⟩, firstWritable, ih secondWritable⟩
        cases second with
        | lambda place names body => exact nofun
        | _ => cases isLambda
      next complete => exact apart (Bool.eq_false_iff.mpr complete) before
  | _ => exact apart rfl before

end Expression

/-- Some expression, or whatever else the phrase stands for, can be written with these tokens. A
chain of operators can be written behind every expression. -/
def Phrase.Writable : Phrase → List Token.Kind → Prop
  | .program, kinds | .expression, kinds =>
      ∃ expression : Expression, expression.Writable ∧ expression.unparse = kinds
  | .operations, kinds =>
      ∀ left : Expression, left.Writable →
        ∃ whole : Expression, whole.Writable ∧ whole.unparse = left.unparse ++ kinds
  | .value, kinds | .tuple, kinds | .lambda, kinds =>
      ∃ value : Expression, value.Writable ∧ value.tag ≠ .binary ∧ value.unparse = kinds
  | .elements, kinds =>
      ∃ elements : List Expression, elements ≠ [] ∧ (∀ element ∈ elements, element.Writable) ∧
        Expression.elementKinds elements = kinds
  | .parameters, kinds => ∃ names, names ≠ [] ∧ Expression.parameterKinds names = kinds
  | .reference, kinds => ∃ name, [Token.Kind.identifier name] = kinds

namespace Derives

open Expression

theorem writable_operation {before after : List Token.Kind} (operator : Operator)
    (chain : Phrase.operations.Writable before) {right : Expression} (takes : operator.Takes right)
    (operand : right.Writable) (spelled : right.unparse = after) :
    Phrase.operations.Writable (before ++ operator.kind :: after) := by
  intro left writable
  obtain ⟨whole, wholeWritable, same⟩ := chain left writable
  refine ⟨whole.attach operator right, writable_attach takes wholeWritable operand, ?_⟩
  rw [unparse_attach, same, spelled, List.append_assoc]

/-- Every derivation leads to something that can be written, although with longer bodies. -/
theorem writable {phrase : Phrase} {kinds : List Token.Kind} (derives : Derives phrase kinds) :
    phrase.Writable kinds := by
  have leaf (value : Expression) (alone : value.nodes = [value]) (single : value.tag ≠ .binary) :
      Phrase.value.Writable value.unparse :=
    ⟨value, writable_leaf alone single, single, rfl⟩
  have target (operator : Operator) (writes : operator ≠ .pipeline) {before : List Token.Kind}
      (chain : Phrase.operations.Writable before) (name : String) :
      Phrase.operations.Writable (before ++ operator.kind :: [.identifier name]) := by
    have writable : (Expression.reference .start name).Writable := writable_leaf rfl nofun
    refine writable_operation operator chain ?_ writable rfl
    cases operator with
    | pipeline => exact absurd rfl writes
    | assign | mutate => rfl
  induction derives with
  | program _ whole => exact whole
  | expression _ _ value chain =>
      obtain ⟨first, writable, _, rfl⟩ := value
      exact chain first writable
  | noOperation =>
      intro left writable
      exact ⟨left, writable, (List.append_nil _).symm⟩
  | pipeline _ _ chain operand =>
      obtain ⟨right, writable, single, spelled⟩ := operand
      exact writable_operation .pipeline chain single writable spelled
  | assign _ _ chain named =>
      obtain ⟨name, rfl⟩ := named
      exact target .assign nofun chain name
  | mutate _ _ chain named =>
      obtain ⟨name, rfl⟩ := named
      exact target .mutate nofun chain name
  | lambdaValue _ value | tupleValue _ value => exact value
  | referenceValue _ named =>
      obtain ⟨name, rfl⟩ := named
      exact leaf (.reference .start name) rfl nofun
  | number value => exact leaf (.number .start value) rfl nofun
  | string text => exact leaf (.string .start text) rfl nofun
  | boolean value => exact leaf (.boolean .start value) rfl nofun
  | emptyTuple => exact ⟨.tuple .start [], writable_tuple.mpr nofun, nofun, rfl⟩
  | tuple _ inside =>
      obtain ⟨elements, _, each, rfl⟩ := inside
      exact ⟨.tuple .start elements, writable_tuple.mpr each, nofun, unparse_tuple _ _⟩
  | lastElement _ last =>
      obtain ⟨element, writable, rfl⟩ := last
      exact ⟨[element], by simp, by simpa using writable, elementKinds_singleton element⟩
  | element _ _ first others =>
      obtain ⟨element, writable, rfl⟩ := first
      obtain ⟨elements, some, each, rfl⟩ := others
      refine ⟨element :: elements, by simp, List.forall_mem_cons.mpr ⟨writable, each⟩, ?_⟩
      cases elements with
      | nil => exact absurd rfl some
      | cons second others => exact elementKinds_cons_cons element second others
  | constantLambda _ inner =>
      obtain ⟨body, writable, rfl⟩ := inner
      exact ⟨.lambda .start [] body, writable_lambda.mpr writable, nofun, unparse_lambda _ _ _⟩
  | lambda _ _ listed inner =>
      obtain ⟨names, _, rfl⟩ := listed
      obtain ⟨body, writable, rfl⟩ := inner
      exact ⟨.lambda .start names body, writable_lambda.mpr writable, nofun, unparse_lambda _ _ _⟩
  | lastParameter _ last =>
      obtain ⟨name, rfl⟩ := last
      exact ⟨[name], by simp, rfl⟩
  | parameter _ _ first others =>
      obtain ⟨name, rfl⟩ := first
      obtain ⟨names, some, rfl⟩ := others
      refine ⟨name :: names, by simp, ?_⟩
      cases names with
      | nil => exact absurd rfl some
      | cons second others => exact parameterKinds_cons_cons name second others
  | reference name => exact ⟨name, rfl⟩

end Derives

namespace Expression

variable {tokens : List Token} {stop : Location}

theorem derives_of_parse {program : Expression} (parsed : parse tokens stop = .ok program) :
    Derives .program (tokens.map Token.kind) := by
  have written := written_of_parse parsed
  have kinds : tokens.map Token.kind = program.unparse := by
    simpa [unparse] using written.spells.kinds
  rw [kinds]
  exact .program (derives_of_writable written.writable).1

theorem parse_of_derives (derives : Derives .program (tokens.map Token.kind)) (stop : Location) :
    ∃ program, parse tokens stop = .ok program := by
  obtain ⟨expression, writable, kinds⟩ := derives.writable
  obtain ⟨program, rest, same, spells, ended⟩ := placeable expression tokens [] (by simp [kinds])
  cases List.map_eq_nil_iff.mp ended
  have alike : program.Writable ↔ expression.Writable := by
    rw [← writable_relocate program, ← writable_relocate expression]
    exact iff_of_eq (congrArg Writable same)
  exact ⟨program, parse_of_spells (alike.mpr writable) spells⟩

/-- The tokens that are parsed are those that the grammar derives, in whatever way it does. -/
theorem parse_ok_iff_derives (tokens : List Token) (stop : Location) :
    (∃ program, parse tokens stop = .ok program) ↔ Derives .program (tokens.map Token.kind) := by
  constructor
  · rintro ⟨program, parsed⟩
    exact derives_of_parse parsed
  · intro derives
    exact parse_of_derives derives stop

end Expression

end PipeLang
