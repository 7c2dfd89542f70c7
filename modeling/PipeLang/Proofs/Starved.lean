import PipeLang.Proofs.Derivation

namespace PipeLang

/-! # Running out of tokens

A reader that runs out of tokens has read the start of a phrase. What could follow is found with
derivations, which do not care how the start would be read once the rest is there: a group that
is read as a tuple now may well become a parameter list.
-/

/-- Reading failed because the tokens ended. -/
def Parsed.Starved {Result : Type} (parsed : Parsed Result) : Prop :=
  ∃ location rest, parsed = .rejected ⟨location, .unexpectedEnd⟩ rest

namespace Parsed

variable {First Second : Type} {first : Parsed First}

theorem Starved.of_andThen {next : First → List Token → Parsed Second}
    (starved : (first.andThen next).Starved) :
    first.Starved ∨ ∃ phrase rest, first = .accepted phrase rest ∧ (next phrase rest).Starved := by
  obtain ⟨location, rest, failed⟩ := starved
  rcases andThen_eq_rejected failed with early | ⟨phrase, middle, accepted, late⟩
  · exact .inl ⟨location, rest, early⟩
  · exact .inr ⟨phrase, middle, accepted, location, rest, late⟩

theorem Starved.of_map {build : First → Second} (starved : (first.map build).Starved) :
    first.Starved := by
  obtain ⟨location, rest, failed⟩ := starved
  exact ⟨location, rest, map_eq_rejected failed⟩

theorem Starved.of_expect {stop : Location} {tag : Token.Tag} {tokens : List Token}
    (starved : (expect stop tag tokens).Starved) : tokens = [] := by
  obtain ⟨location, rest, failed⟩ := starved
  cases tokens with
  | nil => rfl
  | cons token others =>
      rw [expect] at failed
      split at failed <;> cases failed

theorem not_starved_accepted {result : First} {rest : List Token} :
    ¬ (Parsed.accepted result rest).Starved := by
  rintro ⟨_, _, same⟩
  cases same

end Parsed

/-- The tokens are the start of such a phrase. -/
def Phrase.StartsWith (phrase : Phrase) (tokens : List Token) : Prop :=
  ∃ more, Derives phrase (tokens.map Token.kind ++ more)

namespace Expression

variable {stop : Location} {steps : Nat} {tokens rest : List Token} {token : Token}
  {result left : Expression}

theorem readExpression_derives
    (read : readExpression stop steps tokens = .accepted result rest) :
    ∃ front, Derives .expression front ∧ tokens.map Token.kind = front ++ rest.map Token.kind := by
  obtain ⟨written, _⟩ := (readersWrite stop steps).expression read
  exact ⟨result.unparse, (derives_of_writable written.writable).1, written.spells.kinds⟩

theorem readValue_derives (read : readValue stop steps tokens = .accepted result rest) :
    ∃ front, Derives .value front ∧ tokens.map Token.kind = front ++ rest.map Token.kind := by
  obtain ⟨written, single, _⟩ := (readersWrite stop steps).value read
  exact ⟨result.unparse, (derives_of_writable written.writable).2 single, written.spells.kinds⟩

theorem reference?_derives (read : reference? stop tokens = .accepted result rest) :
    ∃ front, Derives .reference front ∧ tokens.map Token.kind = front ++ rest.map Token.kind := by
  obtain ⟨written, named⟩ := reference?_written read
  cases result with
  | reference location name => exact ⟨_, .reference name, written.spells.kinds⟩
  | _ => cases named

theorem reference?_starved (starved : (reference? stop tokens).Starved) : tokens = [] := by
  rcases starved.of_andThen with early | ⟨token, rest, _, late⟩
  · exact early.of_expect
  · obtain ⟨_, _, failed⟩ := late
    simp only [ofToken] at failed
    split at failed
    next => cases failed
    next denied =>
      split at denied <;> cases denied
      cases failed

theorem derives_name (name : String) : Derives .expression [.identifier name] :=
  derives_expression (.referenceValue (.reference name))

/-- Parameters that have begun can be closed. -/
theorem parameterNames_startsWith (starved : (parameterNames stop tokens).Starved) :
    Phrase.parameters.StartsWith tokens := by
  fun_induction parameterNames stop tokens with
  | case1 => exact ⟨_, .lastParameter (.reference "x")⟩
  | case2 token name named =>
      refine ⟨[], ?_⟩
      simpa [named] using Derives.lastParameter (.reference name)
  | case3 token name named next others divides ih =>
      obtain ⟨more, derived⟩ := ih starved.of_map
      refine ⟨more, ?_⟩
      simpa [named, divides] using Derives.parameter (.reference name) derived
  | case4 => exact absurd starved Parsed.not_starved_accepted
  | case5 | case6 =>
      obtain ⟨_, _, failed⟩ := starved
      cases failed

theorem parameters_startsLambda (starved : (parameters stop tokens).Starved) :
    ∃ more, Derives .lambda (.leftParen :: (tokens.map Token.kind ++ more)) := by
  cases tokens with
  | nil => exact ⟨_, .constantLambda (derives_name "x")⟩
  | cons token rest =>
      rw [parameters] at starved
      split at starved
      next => exact absurd starved Parsed.not_starved_accepted
      next =>
        obtain ⟨more, derived⟩ := parameterNames_startsWith starved
        refine ⟨more ++ [.rightParen, .arrow, .identifier "x"], ?_⟩
        simpa using Derives.lambda derived (derives_name "x")

/-- What the readers have begun to read when they run out of tokens. A tuple and a lambda have
their opening parenthesis already, and a chain stands behind an expression. -/
structure ReadersStart (stop : Location) (steps : Nat) : Prop where
  expression {tokens : List Token} :
    (readExpression stop steps tokens).Starved → Phrase.expression.StartsWith tokens
  chain {before : List Token.Kind} {left : Expression} {tokens : List Token} :
    Derives .expression before → (readChain stop steps left tokens).Starved →
      ∃ more, Derives .expression (before ++ (tokens.map Token.kind ++ more))
  value {tokens : List Token} :
    (readValue stop steps tokens).Starved → Phrase.value.StartsWith tokens
  tuple {opening : Token} {tokens : List Token} :
    opening.kind = .leftParen → (readTuple stop steps (opening :: tokens)).Starved →
      Phrase.tuple.StartsWith (opening :: tokens)
  elements {tokens : List Token} :
    (readElements stop steps tokens).Starved → Phrase.elements.StartsWith tokens
  lambda {opening : Token} {tokens : List Token} :
    opening.kind = .leftParen → (readLambda stop steps (opening :: tokens)).Starved →
      Phrase.lambda.StartsWith (opening :: tokens)

namespace ReadersStart

theorem readExpression_starts (readers : ReadersStart stop steps)
    (starved : (readExpression stop (steps + 1) tokens).Starved) :
    Phrase.expression.StartsWith tokens := by
  rw [readExpression] at starved
  rcases starved.of_andThen with early | ⟨left, rest, first, late⟩
  · obtain ⟨more, derived⟩ := readers.value early
    exact ⟨more, derives_expression derived⟩
  · obtain ⟨front, derived, same⟩ := readValue_derives first
    obtain ⟨more, whole⟩ := readers.chain (derives_expression derived) late
    refine ⟨more, ?_⟩
    rw [same, List.append_assoc]
    exact whole

/-- An operator has been read, and the tokens end in its right operand or behind it. -/
theorem extend (readers : ReadersStart stop steps) (operator : Operator)
    {before : List Token.Kind} (derived : Derives .expression before)
    (signed : token.kind = operator.kind) {operand : Parsed Expression}
    (begun : operand.Starved → operator.operand.StartsWith rest)
    (complete : ∀ right others, operand = .accepted right others →
      ∃ front, Derives operator.operand front ∧
        rest.map Token.kind = front ++ others.map Token.kind)
    (starved : (operand.andThen fun right others =>
      readChain stop steps (.binary token.location operator left right) others).Starved) :
    ∃ more, Derives .expression (before ++ ((token :: rest).map Token.kind ++ more)) := by
  rcases starved.of_andThen with early | ⟨right, others, read, late⟩
  · obtain ⟨more, after⟩ := begun early
    refine ⟨more, ?_⟩
    simpa [signed] using derives_operation derived after
  · obtain ⟨front, after, same⟩ := complete right others read
    obtain ⟨more, whole⟩ := readers.chain (derives_operation derived after) late
    refine ⟨more, ?_⟩
    simpa [signed, same] using whole

theorem reference?_startsWith (starved : (reference? stop rest).Starved) :
    Phrase.reference.StartsWith rest := by
  rw [reference?_starved starved]
  exact ⟨_, .reference "x"⟩

theorem readChain_starts (readers : ReadersStart stop steps) {before : List Token.Kind}
    (derived : Derives .expression before)
    (starved : (readChain stop (steps + 1) left tokens).Starved) :
    ∃ more, Derives .expression (before ++ (tokens.map Token.kind ++ more)) := by
  cases tokens with
  | nil =>
      rw [readChain] at starved
      exact absurd starved Parsed.not_starved_accepted
  | cons token rest =>
      rw [readChain] at starved
      split at starved
      next => exact absurd starved Parsed.not_starved_accepted
      next => exact absurd starved Parsed.not_starved_accepted
      next signed =>
        exact readers.extend .pipeline derived signed readers.value
          (fun _ _ read => readValue_derives read) starved
      next signed =>
        exact readers.extend .assign derived signed reference?_startsWith
          (fun _ _ read => reference?_derives read) starved
      next signed =>
        exact readers.extend .mutate derived signed reference?_startsWith
          (fun _ _ read => reference?_derives read) starved
      next =>
        obtain ⟨_, _, failed⟩ := starved
        cases failed

theorem readValue_starts (readers : ReadersStart stop steps)
    (starved : (readValue stop (steps + 1) tokens).Starved) : Phrase.value.StartsWith tokens := by
  cases tokens with
  | nil => exact ⟨_, .referenceValue (.reference "x")⟩
  | cons token rest =>
      rw [readValue] at starved
      split at starved
      next opens =>
        have opening : token.kind = .leftParen := Token.Kind.eq_of_tag rfl opens
        split at starved
        next =>
          obtain ⟨more, derived⟩ := readers.lambda opening starved
          exact ⟨more, .lambdaValue derived⟩
        next =>
          obtain ⟨more, derived⟩ := readers.tuple opening starved
          exact ⟨more, .tupleValue derived⟩
      next =>
        obtain ⟨_, _, failed⟩ := starved
        split at failed
        next => cases failed
        next denied =>
          unfold ofToken at denied
          split at denied <;> cases denied
          cases failed

theorem readTuple_starts (readers : ReadersStart stop steps) {opening : Token}
    (opens : opening.kind = .leftParen)
    (starved : (readTuple stop (steps + 1) (opening :: tokens)).Starved) :
    Phrase.tuple.StartsWith (opening :: tokens) := by
  rw [readTuple] at starved
  rcases starved.of_andThen with early | ⟨found, rest, read, late⟩
  · cases early.of_expect
  · obtain ⟨same, _⟩ := Parsed.expect_eq_accepted read
    cases same
    cases tokens with
    | nil =>
        refine ⟨[.rightParen], ?_⟩
        simpa [opens] using Derives.emptyTuple
    | cons token others =>
        dsimp only at late
        split at late
        next => exact absurd late Parsed.not_starved_accepted
        next =>
          obtain ⟨more, derived⟩ := readers.elements late.of_map
          refine ⟨more ++ [.rightParen], ?_⟩
          simpa [opens] using Derives.tuple derived

theorem readElements_starts (readers : ReadersStart stop steps)
    (starved : (readElements stop (steps + 1) tokens).Starved) :
    Phrase.elements.StartsWith tokens := by
  rw [readElements] at starved
  rcases starved.of_andThen with early | ⟨element, rest, read, late⟩
  · obtain ⟨more, derived⟩ := readers.expression early
    exact ⟨more, .lastElement derived⟩
  · obtain ⟨front, derived, same⟩ := readExpression_derives read
    cases rest with
    | nil =>
        refine ⟨[], ?_⟩
        simpa [same] using Derives.lastElement derived
    | cons token others =>
        dsimp only at late
        split at late
        next divides =>
          obtain ⟨more, following⟩ := readers.elements late.of_map
          have comma : token.kind = .comma := Token.Kind.eq_of_tag rfl divides
          refine ⟨more, ?_⟩
          simpa [same, comma] using Derives.element derived following
        next => cases late.of_map.of_expect

theorem readLambda_starts (readers : ReadersStart stop steps) {opening : Token}
    (opens : opening.kind = .leftParen)
    (starved : (readLambda stop (steps + 1) (opening :: tokens)).Starved) :
    Phrase.lambda.StartsWith (opening :: tokens) := by
  rw [readLambda] at starved
  rcases starved.of_andThen with early | ⟨found, rest, read, late⟩
  · cases early.of_expect
  · obtain ⟨same, _⟩ := Parsed.expect_eq_accepted read
    cases same
    rcases late.of_andThen with listing | ⟨names, behind, listed, led⟩
    · obtain ⟨more, derived⟩ := parameters_startsLambda listing
      exact ⟨more, by simpa [opens] using derived⟩
    · have spelled : tokens.map Token.kind =
          parameterKinds names ++ .rightParen :: behind.map Token.kind := by
        simpa [parameterKinds, Mark.plain] using (parameters_spells listed).kinds
      rcases led.of_andThen with leading | ⟨arrow, others, arrowRead, inBody⟩
      · cases leading.of_expect
        refine ⟨[.arrow, .identifier "x"], ?_⟩
        simpa [opens, spelled] using derives_lambda names (derives_name "x")
      · obtain ⟨rfl, arrowTag⟩ := Parsed.expect_eq_accepted arrowRead
        have isArrow : arrow.kind = .arrow := Token.Kind.eq_of_tag rfl arrowTag
        obtain ⟨more, body⟩ := readers.expression inBody.of_map
        refine ⟨more, ?_⟩
        simpa [opens, spelled, isArrow] using derives_lambda names body

end ReadersStart

theorem readersStart (stop : Location) (steps : Nat) : ReadersStart stop steps := by
  induction steps with
  | zero =>
      constructor <;> intros <;> rename_i starved <;> obtain ⟨_, _, failed⟩ := starved <;>
        cases failed
  | succ steps ih =>
      exact ⟨ih.readExpression_starts, ih.readChain_starts, ih.readValue_starts,
        ih.readTuple_starts, ih.readElements_starts, ih.readLambda_starts⟩

end Expression

end PipeLang
