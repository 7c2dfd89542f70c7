import PipeLang.Expression.Parse
import PipeLang.Proofs.Lines

namespace PipeLang

/-! # Moving what is parsed

The readers of the grammar look at the kinds of the tokens only. If all tokens are moved, then
the expression that is read, the tokens that are left and the error that is reported move along.
-/

@[simp] theorem Token.kind_relocate (move : Location → Location) (token : Token) :
    (token.relocate move).kind = token.kind := rfl

@[simp] theorem Token.tag_relocate (move : Location → Location) (token : Token) :
    (token.relocate move).tag = token.tag := rfl

namespace Parsed

variable {First Second : Type} {move : Location → Location}

/-- Moves the locations of an outcome, given how phrases are moved. -/
def relocate {Phrase : Type} (move : Location → Location) (change : Phrase → Phrase) :
    Parsed Phrase → Parsed Phrase
  | .accepted phrase rest => .accepted (change phrase) (rest.map (Token.relocate move))
  | .rejected error rest => .rejected (error.relocate move) (rest.map (Token.relocate move))
  | .outOfSteps => .outOfSteps

theorem andThen_relocate {early : First → First} {late : Second → Second} (first : Parsed First)
    {next later : First → List Token → Parsed Second}
    (continues : ∀ phrase rest, later (early phrase) (rest.map (Token.relocate move)) =
      (next phrase rest).relocate move late) :
    (first.relocate move early).andThen later = (first.andThen next).relocate move late := by
  cases first with
  | accepted phrase rest => exact continues phrase rest
  | rejected error rest => rfl
  | outOfSteps => rfl

theorem map_relocate {early : First → First} {late : Second → Second} (first : Parsed First)
    {build built : First → Second} (commutes : ∀ phrase, built (early phrase) = late (build phrase)) :
    (first.relocate move early).map built = (first.map build).relocate move late :=
  andThen_relocate first fun phrase rest =>
    congrArg (Parsed.accepted · (rest.map (Token.relocate move))) (commutes phrase)

theorem expect_relocate (move : Location → Location) (stop : Location) (tag : Token.Tag) (tokens : List Token) :
    expect (move stop) tag (tokens.map (Token.relocate move)) =
      (expect stop tag tokens).relocate move (Token.relocate move) := by
  cases tokens with
  | nil => rfl
  | cons token rest =>
      rw [List.map_cons, expect, expect, Token.tag_relocate]
      split <;> rfl

end Parsed

namespace Expression

variable {move : Location → Location} {stop : Location} {steps : Nat}

theorem ofToken_relocate (token : Token) :
    ofToken (token.relocate move) =
      Located.relocateResult move (relocate move) (ofToken token) := by
  obtain ⟨location, kind⟩ := token
  cases kind <;> rfl

theorem arrowFollows_relocate (move : Location → Location) (depth : Nat) (tokens : List Token) :
    arrowFollows depth (tokens.map (Token.relocate move)) = arrowFollows depth tokens := by
  induction tokens generalizing depth with
  | nil => rfl
  | cons token rest ih =>
      have next : (rest.map (Token.relocate move)).head?.any (·.kind == .arrow) =
          rest.head?.any (·.kind == .arrow) := by
        cases rest <;> rfl
      simp only [List.map_cons, arrowFollows, Token.kind_relocate, ih, next]

theorem reference?_relocate (stop : Location) (tokens : List Token) :
    reference? (move stop) (tokens.map (Token.relocate move)) =
      (reference? stop tokens).relocate move (relocate move) := by
  unfold reference?
  rw [Parsed.expect_relocate]
  refine Parsed.andThen_relocate _ fun token rest => ?_
  rw [ofToken_relocate]
  cases ofToken token <;> rfl

theorem parameterNames_relocate (move : Location → Location) (stop : Location)
    (tokens : List Token) :
    parameterNames (move stop) (tokens.map (Token.relocate move)) =
      (parameterNames stop tokens).relocate move id := by
  fun_induction parameterNames stop tokens with
  | case1 => rfl
  | case2 token name named =>
      simp only [List.map_cons, List.map_nil, parameterNames, Token.kind_relocate, named]
      rfl
  | case3 token name named next others isComma ih =>
      simp only [List.map_cons, parameterNames, Token.kind_relocate, named, isComma, ih]
      exact Parsed.map_relocate _ fun _ => rfl
  | case4 token name named next others closes =>
      simp only [List.map_cons, parameterNames, Token.kind_relocate, named, closes]
      rfl
  | case5 token name named next others =>
      simp only [List.map_cons, parameterNames, Token.kind_relocate, named]
      rfl
  | case6 token rest =>
      cases rest <;> simp only [List.map_cons, List.map_nil, parameterNames, Token.kind_relocate] <;>
        rfl

theorem parameters_relocate (stop : Location) (tokens : List Token) :
    parameters (move stop) (tokens.map (Token.relocate move)) =
      (parameters stop tokens).relocate move id := by
  cases tokens with
  | nil => rfl
  | cons token rest =>
      have names := parameterNames_relocate move stop (token :: rest)
      simp only [List.map_cons] at names
      simp only [List.map_cons, parameters, Token.tag_relocate, names]
      split <;> rfl

/-- The readers move along with their tokens, for a number of steps. -/
structure ReadersMove (move : Location → Location) (stop : Location) (steps : Nat) : Prop where
  expression (tokens : List Token) :
    readExpression (move stop) steps (tokens.map (Token.relocate move)) =
      (readExpression stop steps tokens).relocate move (relocate move)
  chain (left : Expression) (tokens : List Token) :
    readChain (move stop) steps (left.relocate move) (tokens.map (Token.relocate move)) =
      (readChain stop steps left tokens).relocate move (relocate move)
  value (tokens : List Token) :
    readValue (move stop) steps (tokens.map (Token.relocate move)) =
      (readValue stop steps tokens).relocate move (relocate move)
  tuple (tokens : List Token) :
    readTuple (move stop) steps (tokens.map (Token.relocate move)) =
      (readTuple stop steps tokens).relocate move (relocate move)
  elements (tokens : List Token) :
    readElements (move stop) steps (tokens.map (Token.relocate move)) =
      (readElements stop steps tokens).relocate move (List.map (relocate move))
  lambda (tokens : List Token) :
    readLambda (move stop) steps (tokens.map (Token.relocate move)) =
      (readLambda stop steps tokens).relocate move (relocate move)

namespace ReadersMove

theorem readExpression (readers : ReadersMove move stop steps) (tokens : List Token) :
    readExpression (move stop) (steps + 1) (tokens.map (Token.relocate move)) =
      (readExpression stop (steps + 1) tokens).relocate move (relocate move) := by
  simp only [Expression.readExpression, readers.value]
  exact Parsed.andThen_relocate _ readers.chain

theorem readChain (readers : ReadersMove move stop steps) (left : Expression)
    (tokens : List Token) :
    readChain (move stop) (steps + 1) (left.relocate move) (tokens.map (Token.relocate move)) =
      (readChain stop (steps + 1) left tokens).relocate move (relocate move) := by
  cases tokens with
  | nil => rfl
  | cons token rest =>
      have extended (operator : Operator) (right : Expression) (others : List Token) :=
        readers.chain (.binary token.location operator left right) others
      simp only [List.map_cons, Expression.readChain, Token.kind_relocate, readers.value,
        reference?_relocate]
      split
      · rfl
      · rfl
      · exact Parsed.andThen_relocate _ (extended .pipeline)
      · exact Parsed.andThen_relocate _ (extended .assign)
      · exact Parsed.andThen_relocate _ (extended .mutate)
      · rfl

theorem readValue (readers : ReadersMove move stop steps) (tokens : List Token) :
    readValue (move stop) (steps + 1) (tokens.map (Token.relocate move)) =
      (readValue stop (steps + 1) tokens).relocate move (relocate move) := by
  cases tokens with
  | nil => rfl
  | cons token rest =>
      have arrow := arrowFollows_relocate move 0 (token :: rest)
      have lambda := readers.lambda (token :: rest)
      have tuple := readers.tuple (token :: rest)
      simp only [List.map_cons] at arrow lambda tuple
      simp only [List.map_cons, Expression.readValue, Token.tag_relocate, arrow, lambda, tuple,
        ofToken_relocate]
      split
      · split <;> rfl
      · cases ofToken token <;> rfl

theorem readTuple (readers : ReadersMove move stop steps) (tokens : List Token) :
    readTuple (move stop) (steps + 1) (tokens.map (Token.relocate move)) =
      (readTuple stop (steps + 1) tokens).relocate move (relocate move) := by
  simp only [Expression.readTuple, Parsed.expect_relocate]
  refine Parsed.andThen_relocate _ fun opening rest => ?_
  cases rest with
  | nil => rfl
  | cons token others =>
      have elements := readers.elements (token :: others)
      simp only [List.map_cons] at elements
      simp only [List.map_cons, Token.tag_relocate, elements]
      split
      · rfl
      · refine Parsed.map_relocate _ fun results => ?_
        rw [relocate, relocateEach_eq_map]
        rfl

theorem readElements (readers : ReadersMove move stop steps) (tokens : List Token) :
    readElements (move stop) (steps + 1) (tokens.map (Token.relocate move)) =
      (readElements stop (steps + 1) tokens).relocate move (List.map (relocate move)) := by
  simp only [Expression.readElements, readers.expression]
  refine Parsed.andThen_relocate _ fun element rest => ?_
  cases rest with
  | nil => rfl
  | cons token others =>
      have closing := Parsed.expect_relocate move stop .rightParen (token :: others)
      simp only [List.map_cons] at closing
      simp only [List.map_cons, Token.tag_relocate, readers.elements, closing]
      split
      · exact Parsed.map_relocate _ fun _ => rfl
      · exact Parsed.map_relocate _ fun _ => rfl

theorem readLambda (readers : ReadersMove move stop steps) (tokens : List Token) :
    readLambda (move stop) (steps + 1) (tokens.map (Token.relocate move)) =
      (readLambda stop (steps + 1) tokens).relocate move (relocate move) := by
  simp only [Expression.readLambda, Parsed.expect_relocate]
  refine Parsed.andThen_relocate _ fun opening rest => ?_
  rw [parameters_relocate]
  refine Parsed.andThen_relocate _ fun parameters rest => ?_
  rw [Parsed.expect_relocate]
  refine Parsed.andThen_relocate _ fun arrow rest => ?_
  rw [readers.expression]
  exact Parsed.map_relocate _ fun _ => rfl

end ReadersMove

theorem readersMove (move : Location → Location) (stop : Location) (steps : Nat) :
    ReadersMove move stop steps := by
  induction steps with
  | zero => constructor <;> intros <;> rfl
  | succ steps ih =>
      exact ⟨ih.readExpression, ih.readChain, ih.readValue, ih.readTuple, ih.readElements,
        ih.readLambda⟩

theorem parse_relocate (move : Location → Location) (tokens : List Token) (stop : Location) :
    parse (tokens.map (Token.relocate move)) (move stop) =
      Located.relocateResult move (relocate move) (parse tokens stop) := by
  have enough : stepsFor (tokens.map (Token.relocate move)) = stepsFor tokens := by
    simp [stepsFor]
  have moved := (readersMove move stop (stepsFor tokens)).expression tokens
  cases read : readExpression stop (stepsFor tokens) tokens with
  | accepted program rest =>
      rw [read, ← enough] at moved
      cases rest with
      | nil =>
          rw [parse_of_accepted read, parse_of_accepted moved]
          rfl
      | cons token others =>
          rw [parse_of_trailing read, parse_of_trailing moved]
          rfl
  | rejected error rest =>
      rw [read, ← enough] at moved
      rw [parse_of_rejected read, parse_of_rejected moved]
      rfl
  | outOfSteps => exact absurd read (readExpression_ne_outOfSteps stop tokens)

end Expression

end PipeLang
