import PipeLang.Expression.Parse
import PipeLang.Proofs.Spelling

namespace PipeLang.Expression

/-! # Parsing is lossless

A reader that accepts an expression has taken the tokens that spell it off the front of its
input, each node from the token that introduces it. Each operand came from a reader that cannot
return what the operator does not take, and a lambda leaves no operator behind its body.
-/

/-- The tokens before the rest spell an expression that can be written as it is. -/
structure Written (expression : Expression) (tokens rest : List Token) : Prop where
  spells : Spells expression.spelling tokens rest
  writable : expression.Writable

/-- The tokens before the rest spell expressions with commas between them and the parenthesis
that closes them. -/
structure EachWritten (elements : List Expression) (tokens rest : List Token) : Prop where
  spells : Spells (Mark.separated (spellings elements) ++ [.plain .rightParen]) tokens rest
  writable : ∀ element ∈ elements, element.Writable

/-- No operator follows. -/
def PhraseEnds (rest : List Token) : Prop :=
  ∀ token ∈ rest.head?, token.kind = .rightParen ∨ token.kind = .comma

variable {stop : Location} {steps : Nat} {tokens middle rest : List Token} {token : Token}
  {expression left right body : Expression} {operator : Operator}

theorem phraseEnds_nil : PhraseEnds [] := by
  simp [PhraseEnds]

theorem phraseEnds_cons :
    PhraseEnds (token :: rest) ↔ token.kind = .rightParen ∨ token.kind = .comma := by
  simp [PhraseEnds]

theorem written_of_token (denotes : ofToken token = .ok expression) :
    expression.Written (token :: rest) rest ∧ expression.tag ≠ .binary ∧
      expression.tag ≠ .lambda := by
  unfold ofToken at denotes
  split at denotes <;> cases denotes <;> rename_i same
  all_goals
    refine ⟨⟨.cons (Mark.fits_introducing same) .nil, ?_⟩, by simp [tag], by simp [tag]⟩
    intro node member
    cases List.mem_singleton.mp member
    exact trivial

theorem Written.binary (first : left.Written tokens (token :: middle))
    (same : token.kind = operator.kind) (second : right.Written middle rest)
    (ends : left.endsInBody = false) (takes : operator.Takes right) :
    (Expression.binary token.location operator left right).Written tokens rest where
  spells := by
    rw [spelling]
    exact first.spells.append (.cons (Mark.fits_introducing same) second.spells)
  writable := writable_binary.mpr ⟨⟨ends, takes⟩, first.writable, second.writable⟩

theorem EachWritten.one (last : expression.Written tokens (token :: rest))
    (closes : token.kind = .rightParen) : EachWritten [expression] tokens rest where
  spells := by
    rw [spellings, spellings, Mark.separated, List.intercalate_singleton]
    exact last.spells.append (.cons (Mark.fits_plain closes) .nil)
  writable := by
    intro element member
    cases List.mem_singleton.mp member
    exact last.writable

theorem EachWritten.more {elements : List Expression}
    (first : expression.Written tokens (token :: middle)) (divides : token.kind = .comma)
    (others : EachWritten elements middle rest) (some : elements ≠ []) :
    EachWritten (expression :: elements) tokens rest where
  spells := by
    have several : spellings elements ≠ [] := by
      cases elements with
      | nil => exact absurd rfl some
      | cons => exact List.cons_ne_nil _ _
    rw [spellings, Mark.separated, List.intercalate_cons_of_ne_nil several, List.append_assoc,
      List.append_assoc]
    exact first.spells.append (.cons (Mark.fits_plain divides) others.spells)
  writable := by
    intro element member
    rcases List.mem_cons.mp member with rfl | later
    · exact first.writable
    · exact others.writable element later

theorem EachWritten.tuple {elements : List Expression} (opens : token.kind = .leftParen)
    (each : EachWritten elements tokens rest) :
    (Expression.tuple token.location elements).Written (token :: tokens) rest where
  spells := .cons (Mark.fits_introducing opens) each.spells
  writable := writable_tuple.mpr each.writable

theorem Written.lambda {parameters : List String} {others : List Token} {arrow : Token}
    (opens : token.kind = .leftParen)
    (names : Spells (parameterSpelling parameters ++ [.plain .rightParen]) tokens (arrow :: others))
    (leads : arrow.kind = .arrow) (inner : body.Written others rest) :
    (Expression.lambda token.location parameters body).Written (token :: tokens) rest where
  spells := by
    have tail := names.append (.cons (Mark.fits_plain leads) inner.spells)
    rw [List.append_assoc] at tail
    exact .cons (Mark.fits_introducing opens) tail
  writable := writable_lambda.mpr inner.writable

theorem reference?_written (read : reference? stop tokens = .accepted expression rest) :
    expression.Written tokens rest ∧ expression.tag = .reference := by
  obtain ⟨token, middle, accepted, built⟩ := Parsed.andThen_eq_accepted read
  obtain ⟨rfl, tagged⟩ := Parsed.expect_eq_accepted accepted
  obtain ⟨name, named⟩ := Token.Kind.identifier_of_tag tagged
  have denotes : ofToken token = .ok (.reference token.location name) := by
    rw [ofToken, named]
  rw [denotes] at built
  cases built
  exact ⟨(written_of_token denotes).1, rfl⟩

theorem parameterNames_spells {names : List String}
    (read : parameterNames stop tokens = .accepted names rest) :
    names ≠ [] ∧ Spells (parameterSpelling names ++ [.plain .rightParen]) tokens rest := by
  fun_induction parameterNames stop tokens generalizing names with
  | case1 => cases read
  | case2 => cases read
  | case3 token name named next others divides ih =>
      obtain ⟨more, accepted, rfl⟩ := Parsed.map_eq_accepted read
      obtain ⟨some, spells⟩ := ih accepted
      have several : more.map (fun name => [Mark.plain (.identifier name)]) ≠ [] := by
        rwa [ne_eq, List.map_eq_nil_iff]
      refine ⟨List.cons_ne_nil _ _, ?_⟩
      rw [parameterSpelling, List.map_cons, Mark.separated,
        List.intercalate_cons_of_ne_nil several, List.append_assoc, List.append_assoc]
      exact .cons (Mark.fits_plain named) (.cons (Mark.fits_plain divides) spells)
  | case4 token name named next others closes =>
      cases read
      refine ⟨List.cons_ne_nil _ _, ?_⟩
      exact .cons (Mark.fits_plain named) (.cons (Mark.fits_plain closes) .nil)
  | case5 => cases read
  | case6 => cases read

theorem parameters_spells {names : List String}
    (read : parameters stop tokens = .accepted names rest) :
    Spells (parameterSpelling names ++ [.plain .rightParen]) tokens rest := by
  cases tokens with
  | nil => cases read
  | cons token others =>
      rw [parameters] at read
      split at read
      next closes =>
        cases read
        exact .cons (Mark.fits_plain (Token.Kind.eq_of_tag rfl closes)) .nil
      next => exact (parameterNames_spells read).2

/-- What the readers return for a number of steps. The left operand of a chain is already read,
from the same tokens as the whole of it. -/
structure ReadersWrite (stop : Location) (steps : Nat) : Prop where
  expression {tokens rest : List Token} {result : Expression} :
    readExpression stop steps tokens = .accepted result rest →
      result.Written tokens rest ∧ PhraseEnds rest
  chain {tokens middle rest : List Token} {left result : Expression} :
    left.Written tokens middle → (left.endsInBody = true → PhraseEnds middle) →
      readChain stop steps left middle = .accepted result rest →
        result.Written tokens rest ∧ PhraseEnds rest
  value {tokens rest : List Token} {result : Expression} :
    readValue stop steps tokens = .accepted result rest →
      result.Written tokens rest ∧ result.tag ≠ .binary ∧ (result.tag = .lambda → PhraseEnds rest)
  tuple {tokens rest : List Token} {result : Expression} :
    readTuple stop steps tokens = .accepted result rest →
      result.Written tokens rest ∧ result.tag = .tuple
  elements {tokens rest : List Token} {results : List Expression} :
    readElements stop steps tokens = .accepted results rest →
      EachWritten results tokens rest ∧ results ≠ []
  lambda {tokens rest : List Token} {result : Expression} :
    readLambda stop steps tokens = .accepted result rest →
      result.Written tokens rest ∧ result.tag = .lambda ∧ PhraseEnds rest

namespace ReadersWrite

variable {result : Expression}

theorem readExpression_written (readers : ReadersWrite stop steps)
    (read : readExpression stop (steps + 1) tokens = .accepted result rest) :
    result.Written tokens rest ∧ PhraseEnds rest := by
  rw [readExpression] at read
  obtain ⟨left, middle, first, others⟩ := Parsed.andThen_eq_accepted read
  obtain ⟨written, single, ends⟩ := readers.value first
  refine readers.chain written ?_ others
  intro inBody
  cases left with
  | lambda => exact ends rfl
  | binary => exact absurd rfl single
  | _ => cases inBody

/-- An operator with its right operand goes on with the chain. The left operand does not end in
a body, because then the operator would not be left to the chain. -/
theorem extend (readers : ReadersWrite stop steps) (operator : Operator) {others : List Token}
    (before : left.Written tokens (token :: middle))
    (closed : left.endsInBody = true → PhraseEnds (token :: middle))
    (same : token.kind = operator.kind) (operand : right.Written middle others)
    (takes : operator.Takes right) (ends : right.tag = .lambda → PhraseEnds others)
    (read : readChain stop steps (.binary token.location operator left right) others =
      .accepted result rest) :
    result.Written tokens rest ∧ PhraseEnds rest := by
  have complete : left.endsInBody = false := by
    cases inBody : left.endsInBody with
    | false => rfl
    | true =>
        have last := phraseEnds_cons.mp (closed inBody)
        rw [same] at last
        cases operator <;> rcases last with wrong | wrong <;> cases wrong
  refine readers.chain (before.binary same operand complete takes) ?_ read
  intro inBody
  cases right with
  | lambda => exact ends rfl
  | _ => cases operator <;> cases inBody

theorem extend_reference (readers : ReadersWrite stop steps) (operator : Operator)
    (before : left.Written tokens (token :: middle))
    (closed : left.endsInBody = true → PhraseEnds (token :: middle))
    (same : token.kind = operator.kind) (writes : operator ≠ .pipeline)
    (read : ((reference? stop middle).andThen fun right others =>
      readChain stop steps (.binary token.location operator left right) others) =
        .accepted result rest) :
    result.Written tokens rest ∧ PhraseEnds rest := by
  obtain ⟨right, others, operand, onward⟩ := Parsed.andThen_eq_accepted read
  obtain ⟨written, named⟩ := reference?_written operand
  have takes : operator.Takes right := by
    cases operator with
    | pipeline => exact absurd rfl writes
    | assign => exact named
    | mutate => exact named
  refine readers.extend operator before closed same written takes ?_ onward
  intro lambda
  rw [named] at lambda
  cases lambda

theorem readChain_written (readers : ReadersWrite stop steps) (before : left.Written tokens middle)
    (closed : left.endsInBody = true → PhraseEnds middle)
    (read : readChain stop (steps + 1) left middle = .accepted result rest) :
    result.Written tokens rest ∧ PhraseEnds rest := by
  cases middle with
  | nil =>
      rw [readChain] at read
      cases read
      exact ⟨before, phraseEnds_nil⟩
  | cons token others =>
      rw [readChain] at read
      split at read
      next closes =>
        cases read
        exact ⟨before, phraseEnds_cons.mpr (.inl closes)⟩
      next divides =>
        cases read
        exact ⟨before, phraseEnds_cons.mpr (.inr divides)⟩
      next same =>
        obtain ⟨right, behind, operand, onward⟩ := Parsed.andThen_eq_accepted read
        obtain ⟨written, single, ends⟩ := readers.value operand
        exact readers.extend .pipeline before closed same written single ends onward
      next same => exact readers.extend_reference .assign before closed same (by decide) read
      next same => exact readers.extend_reference .mutate before closed same (by decide) read
      next => cases read

theorem readValue_written (readers : ReadersWrite stop steps)
    (read : readValue stop (steps + 1) tokens = .accepted result rest) :
    result.Written tokens rest ∧ result.tag ≠ .binary ∧
      (result.tag = .lambda → PhraseEnds rest) := by
  cases tokens with
  | nil =>
      rw [readValue] at read
      cases read
  | cons token others =>
      rw [readValue] at read
      split at read
      next =>
        split at read
        next =>
          obtain ⟨written, lambda, ends⟩ := readers.lambda read
          refine ⟨written, ?_, fun _ => ends⟩
          rw [lambda]
          decide
        next =>
          obtain ⟨written, tuple⟩ := readers.tuple read
          refine ⟨written, by simp [tuple], by simp [tuple]⟩
      next =>
        split at read
        next value denotes =>
          cases read
          obtain ⟨written, single, plain⟩ := written_of_token denotes
          exact ⟨written, single, fun lambda => absurd lambda plain⟩
        next => cases read

theorem readTuple_written (readers : ReadersWrite stop steps)
    (read : readTuple stop (steps + 1) tokens = .accepted result rest) :
    result.Written tokens rest ∧ result.tag = .tuple := by
  rw [readTuple] at read
  obtain ⟨opening, inside, opened, onward⟩ := Parsed.andThen_eq_accepted read
  obtain ⟨rfl, tagged⟩ := Parsed.expect_eq_accepted opened
  have opens : opening.kind = .leftParen := Token.Kind.eq_of_tag rfl tagged
  cases inside with
  | nil => cases onward
  | cons token others =>
      dsimp only at onward
      split at onward
      next closes =>
        cases onward
        have each : EachWritten [] (token :: rest) rest :=
          ⟨.cons (Mark.fits_plain (Token.Kind.eq_of_tag rfl closes)) .nil, by simp⟩
        exact ⟨each.tuple opens, rfl⟩
      next =>
        obtain ⟨elements, accepted, rfl⟩ := Parsed.map_eq_accepted onward
        exact ⟨(readers.elements accepted).1.tuple opens, rfl⟩

theorem readElements_written (readers : ReadersWrite stop steps) {results : List Expression}
    (read : readElements stop (steps + 1) tokens = .accepted results rest) :
    EachWritten results tokens rest ∧ results ≠ [] := by
  rw [readElements] at read
  obtain ⟨element, behind, first, onward⟩ := Parsed.andThen_eq_accepted read
  obtain ⟨written, _⟩ := readers.expression first
  cases behind with
  | nil => cases onward
  | cons token others =>
      dsimp only at onward
      split at onward
      next divides =>
        obtain ⟨elements, accepted, rfl⟩ := Parsed.map_eq_accepted onward
        obtain ⟨each, some⟩ := readers.elements accepted
        exact ⟨.more written (Token.Kind.eq_of_tag rfl divides) each some, List.cons_ne_nil _ _⟩
      next =>
        obtain ⟨closing, accepted, rfl⟩ := Parsed.map_eq_accepted onward
        obtain ⟨same, closes⟩ := Parsed.expect_eq_accepted accepted
        cases same
        exact ⟨.one written (Token.Kind.eq_of_tag rfl closes), List.cons_ne_nil _ _⟩

theorem readLambda_written (readers : ReadersWrite stop steps)
    (read : readLambda stop (steps + 1) tokens = .accepted result rest) :
    result.Written tokens rest ∧ result.tag = .lambda ∧ PhraseEnds rest := by
  rw [readLambda] at read
  obtain ⟨opening, inside, opened, named⟩ := Parsed.andThen_eq_accepted read
  obtain ⟨names, behind, listed, led⟩ := Parsed.andThen_eq_accepted named
  obtain ⟨arrow, others, leading, onward⟩ := Parsed.andThen_eq_accepted led
  obtain ⟨body, accepted, rfl⟩ := Parsed.map_eq_accepted onward
  obtain ⟨rfl, opens⟩ := Parsed.expect_eq_accepted opened
  obtain ⟨rfl, leads⟩ := Parsed.expect_eq_accepted leading
  obtain ⟨inner, ends⟩ := readers.expression accepted
  exact ⟨.lambda (Token.Kind.eq_of_tag rfl opens) (parameters_spells listed)
    (Token.Kind.eq_of_tag rfl leads) inner, rfl, ends⟩

end ReadersWrite

theorem readersWrite (stop : Location) (steps : Nat) : ReadersWrite stop steps := by
  induction steps with
  | zero => constructor <;> intros <;> rename_i read <;> cases read
  | succ steps ih =>
      exact ⟨ih.readExpression_written, ih.readChain_written, ih.readValue_written,
        ih.readTuple_written, ih.readElements_written, ih.readLambda_written⟩

theorem written_of_parse {program : Expression} (parsed : parse tokens stop = .ok program) :
    program.Written tokens [] :=
  ((readersWrite stop _).expression (accepted_of_parse parsed)).1

/-- The tokens of a program spell it from the first to the last, with every node where the token
stands that introduces it, and the operands are such as need no parentheses. -/
theorem parse_lossless (tokens : List Token) (stop : Location) (program : Expression)
    (parsed : parse tokens stop = .ok program) :
    program.unparse = tokens.map Token.kind ∧ Spells program.spelling tokens [] ∧
      ∀ node ∈ program.nodes, node.OperandsAllowed := by
  have written := written_of_parse parsed
  refine ⟨?_, written.spells, written.writable⟩
  rw [written.spells.kinds, List.map_nil, List.append_nil]
  rfl

/-- The tokens of `((a) => a |> f, b) -> c`. -/
def nestedTokens : List Token :=
  [⟨⟨1, 1⟩, .leftParen⟩, ⟨⟨1, 2⟩, .leftParen⟩, ⟨⟨1, 3⟩, .identifier "a"⟩, ⟨⟨1, 4⟩, .rightParen⟩,
   ⟨⟨1, 6⟩, .arrow⟩, ⟨⟨1, 9⟩, .identifier "a"⟩, ⟨⟨1, 11⟩, .pipeline⟩, ⟨⟨1, 14⟩, .identifier "f"⟩,
   ⟨⟨1, 15⟩, .comma⟩, ⟨⟨1, 17⟩, .identifier "b"⟩, ⟨⟨1, 18⟩, .rightParen⟩, ⟨⟨1, 20⟩, .assign⟩,
   ⟨⟨1, 23⟩, .identifier "c"⟩]

/-- The body of the lambda takes the operator inside the tuple, and the tuple the one behind it. -/
theorem parse_lossless_nested :
    ∃ program, parse nestedTokens ⟨1, 24⟩ = .ok program ∧ program.location = ⟨1, 20⟩ ∧
      program.unparse = nestedTokens.map Token.kind ∧ program.Writable := by
  have parsed : parse nestedTokens ⟨1, 24⟩ =
      .ok (.binary ⟨1, 20⟩ .assign
        (.tuple ⟨1, 1⟩
          [.lambda ⟨1, 2⟩ ["a"] (.binary ⟨1, 11⟩ .pipeline (.reference ⟨1, 9⟩ "a")
            (.reference ⟨1, 14⟩ "f")), .reference ⟨1, 17⟩ "b"])
        (.reference ⟨1, 23⟩ "c")) := rfl
  obtain ⟨kinds, _, allowed⟩ := parse_lossless nestedTokens ⟨1, 24⟩ _ parsed
  exact ⟨_, parsed, rfl, kinds, allowed⟩

end PipeLang.Expression
