import PipeLang.Proofs.Derivation

namespace PipeLang

/-! # What a parse error says about the tokens

A parse fails because the tokens end or at one of them, which it names. What it can name there
depends on two things the readers rely on without a check of their own. Behind an expression
stands a parenthesis that closes, a comma or nothing. And a parameter list is read only in a group
that the lookahead has followed to the parenthesis that matches, with an arrow behind it.
-/

/-- Each parenthesis in the list has its partner in the list. -/
inductive Balanced : List Token.Kind → Prop where
  | nil : Balanced []
  | plain {kind : Token.Kind} {rest : List Token.Kind} (notOpening : kind ≠ .leftParen)
      (notClosing : kind ≠ .rightParen) (tail : Balanced rest) : Balanced (kind :: rest)
  | group {inside rest : List Token.Kind} (inner : Balanced inside) (tail : Balanced rest) :
      Balanced (.leftParen :: (inside ++ .rightParen :: rest))

namespace Expression

variable {stop : Location} {steps depth : Nat} {tokens before rest inside : List Token}
  {token opening : Token} {error : ParseError} {left : Expression} {names : List String}

/-- What the lookahead passes over is balanced, up to the parenthesis that closes the innermost
group that is open. -/
theorem balanced_of_arrowFollows (depth : Nat) (tokens : List Token)
    (found : arrowFollows (depth + 1) tokens = true) :
    ∃ inside closing behind, tokens = inside ++ closing :: behind ∧
      Balanced (inside.map Token.kind) ∧ closing.kind = .rightParen ∧
      arrowFollows (depth + 1) (closing :: behind) = true := by
  cases tokens with
  | nil => cases found
  | cons token rest =>
      by_cases closes : token.kind = .rightParen
      · exact ⟨[], token, rest, rfl, .nil, closes, found⟩
      by_cases opens : token.kind = .leftParen
      · -- The scan goes on behind the inner group at the depth at which it has come to it.
        simp only [arrowFollows, opens] at found
        obtain ⟨inner, partner, middle, rfl, innerBalanced, isPartner, onward⟩ :=
          balanced_of_arrowFollows (depth + 1) rest found
        have left : arrowFollows (depth + 1) middle = true := by
          simpa [arrowFollows, isPartner] using onward
        obtain ⟨inside, closing, behind, rfl, balanced, isClosing, reached⟩ :=
          balanced_of_arrowFollows depth middle left
        refine ⟨token :: (inner ++ partner :: inside), closing, behind, by simp, ?_, isClosing,
          reached⟩
        simpa [opens, isPartner] using Balanced.group innerBalanced balanced
      · have passed : arrowFollows (depth + 1) rest = true := by
          simpa only [arrowFollows] using found
        obtain ⟨inside, closing, behind, rfl, balanced, isClosing, reached⟩ :=
          balanced_of_arrowFollows depth rest passed
        exact ⟨token :: inside, closing, behind, rfl, .plain opens closes balanced, isClosing,
          reached⟩
termination_by tokens.length

theorem arrow_behind_closing (closes : token.kind = .rightParen)
    (found : arrowFollows 1 (token :: rest) = true) :
    ∃ arrow behind, rest = arrow :: behind ∧ arrow.kind = .arrow := by
  cases rest with
  | nil => simp [arrowFollows, closes] at found
  | cons arrow behind => exact ⟨arrow, behind, rfl, by simpa [arrowFollows, closes] using found⟩

theorem exists_arrow_of_arrowFollows (found : arrowFollows 1 tokens = true) :
    ∃ inside closing arrow behind, tokens = inside ++ closing :: arrow :: behind ∧
      Balanced (inside.map Token.kind) ∧ closing.kind = .rightParen ∧ arrow.kind = .arrow := by
  obtain ⟨inside, closing, rest, rfl, balanced, closes, reached⟩ :=
    balanced_of_arrowFollows 0 tokens found
  obtain ⟨arrow, behind, rfl, leads⟩ := arrow_behind_closing closes reached
  exact ⟨inside, closing, arrow, behind, rfl, balanced, closes, leads⟩

/-- The tokens divide within a parameter list: before the cut stand the parenthesis that opens it
and some of its names, and behind the parenthesis that matches stands an arrow. -/
inductive AmidParameters : List Token → List Token → Prop where
  | intro (outside : List Token) {listed inside behind : List Token} {opening closing arrow : Token}
      {names : List String} (opens : opening.kind = .leftParen) (some : names ≠ [])
      (spelled : listed.map Token.kind = parameterKinds names)
      (balanced : Balanced (inside.map Token.kind)) (closes : closing.kind = .rightParen)
      (leads : arrow.kind = .arrow) :
      AmidParameters (outside ++ opening :: listed) (inside ++ closing :: arrow :: behind)

theorem AmidParameters.behind (amid : AmidParameters before rest) (front : List Token) :
    AmidParameters (front ++ before) rest := by
  cases amid with
  | intro outside opens some spelled balanced closes leads =>
      rw [← List.append_assoc]
      exact .intro (front ++ outside) opens some spelled balanced closes leads

/-- A token that does not belong between the tokens before and behind it, and what an error says
about it. -/
inductive Misplaced (before : List Token) (token : Token) (after : List Token) :
    ParseCause → Prop where
  | notName : Misplaced before token after (.unexpectedToken .identifier token.tag)
  | notClosing (amid : AmidParameters before (token :: after)) :
      Misplaced before token after (.unexpectedToken .rightParen token.tag)
  | notValue (noStart : token.tag ∉ [.leftParen, .number, .string, .boolean, .identifier]) :
      Misplaced before token after (.expectedValue token.tag)
  | notOperator (noFollower : token.tag ∉ [.rightParen, .comma, .pipeline, .assign, .mutate]) :
      Misplaced before token after (.invalidExpression token.tag)
  | trailing (ender : token.tag ∈ [.rightParen, .comma]) :
      Misplaced before token after (.trailingToken token.tag)

theorem Misplaced.behind {cause : ParseCause} (misplaced : Misplaced before token rest cause)
    (front : List Token) : Misplaced (front ++ before) token rest cause := by
  cases misplaced with
  | notName => exact .notName
  | notClosing amid => exact .notClosing (amid.behind front)
  | notValue noStart => exact .notValue noStart
  | notOperator noFollower => exact .notOperator noFollower
  | trailing ender => exact .trailing ender

/-- The error is at the end of the tokens, or at one of them that is misplaced. -/
inductive ErrorIn (stop : Location) : List Token → ParseError → Prop where
  | ending {tokens : List Token} : ErrorIn stop tokens ⟨stop, .unexpectedEnd⟩
  | token (before : List Token) (token : Token) (after : List Token) {cause : ParseCause}
      (misplaced : Misplaced before token after cause) :
      ErrorIn stop (before ++ token :: after) ⟨token.location, cause⟩

theorem ErrorIn.of_suffix (errs : ErrorIn stop rest error) (suffix : rest <:+ tokens) :
    ErrorIn stop tokens error := by
  obtain ⟨front, rfl⟩ := suffix
  cases errs with
  | ending => exact .ending
  | token before token after misplaced =>
      rw [← List.append_assoc]
      exact .token (front ++ before) token after (misplaced.behind front)

theorem ErrorIn.tail (errs : ErrorIn stop rest error) (token : Token) :
    ErrorIn stop (token :: rest) error :=
  errs.of_suffix (List.suffix_cons token rest)

theorem ofToken_eq_error (denied : ofToken token = .error error) :
    error = ⟨token.location, .expectedValue token.tag⟩ ∧
      token.tag ∉ [.number, .string, .boolean, .identifier] := by
  rw [ofToken] at denied
  split at denied <;> cases denied
  refine ⟨rfl, ?_⟩
  rw [Token.tag]
  cases kind : token.kind <;> simp_all [Token.Kind.tag]

theorem reference?_errorIn (read : reference? stop tokens = .rejected error rest) :
    ErrorIn stop tokens error := by
  rcases Parsed.andThen_eq_rejected read with early | ⟨token, middle, accepted, late⟩
  · cases tokens with
    | nil =>
        cases early
        exact .ending
    | cons token others =>
        rw [Parsed.expect] at early
        split at early <;> cases early
        exact .token [] token others .notName
  · obtain ⟨-, tagged⟩ := Parsed.expect_eq_accepted accepted
    split at late <;> cases late
    next denied =>
      have absent := (ofToken_eq_error denied).2
      simp [tagged] at absent

/-- The list has begun with the names that are read already, each with its comma. -/
theorem parameterNames_errorIn {listed : List Token} (opens : opening.kind = .leftParen)
    (ready : ∀ name, listed.map Token.kind ++ [.identifier name] = parameterKinds (names ++ [name]))
    (followed : arrowFollows 1 tokens = true)
    (read : parameterNames stop tokens = .rejected error rest) :
    ErrorIn stop (opening :: (listed ++ tokens)) error := by
  fun_induction parameterNames stop tokens generalizing listed names with
  | case1 => cases followed
  | case2 =>
      cases read
      exact .ending
  | case3 token name named next others divides ih =>
      have passed : arrowFollows 1 others = true := by
        simpa [arrowFollows, named, divides] using followed
      have further : ∀ other, (listed ++ [token, next]).map Token.kind ++ [.identifier other] =
          parameterKinds (names ++ [name] ++ [other]) := by
        intro other
        rw [parameterKinds_concat (by simp), ← ready name]
        simp [named, divides]
      simpa using ih further passed (Parsed.map_eq_rejected read)
  | case4 => cases read
  | case5 token name named next others =>
      cases read
      have passed : arrowFollows 1 (next :: others) = true := by
        simpa [arrowFollows, named] using followed
      have spelled : (listed ++ [token]).map Token.kind = parameterKinds (names ++ [name]) := by
        simpa [named] using ready name
      obtain ⟨inside, closing, arrow, behind, same, balanced, closes, leads⟩ :=
        exists_arrow_of_arrowFollows passed
      have amid : AmidParameters (opening :: (listed ++ [token])) (next :: others) := by
        rw [same]
        exact .intro [] opens (by simp) spelled balanced closes leads
      simpa using ErrorIn.token (opening :: (listed ++ [token])) next others (.notClosing amid)
  | case6 token others =>
      cases read
      exact .token (opening :: listed) token others .notName

theorem parameters_errorIn (opens : opening.kind = .leftParen)
    (followed : arrowFollows 1 tokens = true)
    (read : parameters stop tokens = .rejected error rest) :
    ErrorIn stop (opening :: tokens) error := by
  cases tokens with
  | nil => cases followed
  | cons token others =>
      rw [parameters] at read
      split at read
      next => cases read
      next =>
        have ready : ∀ name, ([] : List Token).map Token.kind ++ [.identifier name] =
            parameterKinds ([] ++ [name]) := fun _ => rfl
        exact parameterNames_errorIn opens ready followed read

/-- An arrow stands behind a parameter list, because the lookahead has seen it there. -/
theorem arrow_of_parameters (followed : arrowFollows 1 tokens = true)
    (read : parameters stop tokens = .accepted names rest) :
    ∃ arrow others, rest = arrow :: others ∧ arrow.kind = .arrow ∧ others <:+ tokens := by
  have spells := parameters_spells read
  obtain ⟨middle, listed, tail⟩ := spells.append_inv
  obtain ⟨closing, behind, rfl, closes, last⟩ := tail.cons_inv
  cases last
  rw [passed_parameters names 0 _ _ listed] at followed
  obtain ⟨arrow, others, rfl, leads⟩ := arrow_behind_closing closes.1 followed
  exact ⟨arrow, others, rfl, leads, (List.suffix_cons arrow others).trans spells.isSuffix⟩

/-- The errors of the readers with a number of steps. The reader of a value has looked at the
first token of a group, and behind it, before it calls the readers of groups. -/
structure ReadersReject (stop : Location) (steps : Nat) : Prop where
  expression {tokens rest : List Token} {error : ParseError} :
    readExpression stop steps tokens = .rejected error rest → ErrorIn stop tokens error
  chain {tokens rest : List Token} {left : Expression} {error : ParseError} :
    readChain stop steps left tokens = .rejected error rest → ErrorIn stop tokens error
  value {tokens rest : List Token} {error : ParseError} :
    readValue stop steps tokens = .rejected error rest → ErrorIn stop tokens error
  tuple {inside rest : List Token} {opening : Token} {error : ParseError} :
    opening.tag = .leftParen → readTuple stop steps (opening :: inside) = .rejected error rest →
      ErrorIn stop (opening :: inside) error
  elements {tokens rest : List Token} {error : ParseError} :
    readElements stop steps tokens = .rejected error rest → ErrorIn stop tokens error
  lambda {inside rest : List Token} {opening : Token} {error : ParseError} :
    opening.tag = .leftParen → arrowFollows 0 (opening :: inside) = true →
      readLambda stop steps (opening :: inside) = .rejected error rest →
        ErrorIn stop (opening :: inside) error

namespace ReadersReject

theorem readExpression_errorIn (readers : ReadersReject stop steps)
    (read : readExpression stop (steps + 1) tokens = .rejected error rest) :
    ErrorIn stop tokens error := by
  rw [readExpression] at read
  rcases Parsed.andThen_eq_rejected read with early | ⟨left, middle, accepted, late⟩
  · exact readers.value early
  · obtain ⟨written, _⟩ := (readersWrite stop steps).value accepted
    exact (readers.chain late).of_suffix written.spells.isSuffix

theorem extend_errorIn (readers : ReadersReject stop steps) {operand : Parsed Expression}
    {build : Expression → Expression}
    (rejected : ∀ {error behind}, operand = .rejected error behind → ErrorIn stop tokens error)
    (accepted : ∀ {right behind}, operand = .accepted right behind → behind <:+ tokens)
    (read : (operand.andThen fun right behind => readChain stop steps (build right) behind) =
      .rejected error rest) :
    ErrorIn stop tokens error := by
  rcases Parsed.andThen_eq_rejected read with early | ⟨right, behind, taken, late⟩
  · exact rejected early
  · exact (readers.chain late).of_suffix (accepted taken)

theorem readChain_errorIn (readers : ReadersReject stop steps)
    (read : readChain stop (steps + 1) left tokens = .rejected error rest) :
    ErrorIn stop tokens error := by
  cases tokens with
  | nil =>
      rw [readChain] at read
      cases read
  | cons token others =>
      have target : ∀ {right behind}, reference? stop others = .accepted right behind →
          behind <:+ others := fun accepted => (reference?_written accepted).1.spells.isSuffix
      rw [readChain] at read
      split at read
      next => cases read
      next => cases read
      next =>
        refine (readers.extend_errorIn readers.value ?_ read).tail token
        intro right behind accepted
        exact ((readersWrite stop steps).value accepted).1.spells.isSuffix
      next => exact (readers.extend_errorIn reference?_errorIn target read).tail token
      next => exact (readers.extend_errorIn reference?_errorIn target read).tail token
      next =>
        cases read
        refine .token [] token others (.notOperator ?_)
        rw [Token.tag]
        cases kind : token.kind <;> simp_all [Token.Kind.tag]

theorem readValue_errorIn (readers : ReadersReject stop steps)
    (read : readValue stop (steps + 1) tokens = .rejected error rest) :
    ErrorIn stop tokens error := by
  cases tokens with
  | nil =>
      rw [readValue] at read
      cases read
      exact .ending
  | cons token others =>
      rw [readValue] at read
      split at read
      next opens =>
        split at read
        next followed => exact readers.lambda opens followed read
        next => exact readers.tuple opens read
      next notOpening =>
        split at read
        next => cases read
        next denied =>
          cases read
          obtain ⟨rfl, absent⟩ := ofToken_eq_error denied
          refine .token [] token rest (.notValue ?_)
          rw [List.mem_cons, not_or]
          exact ⟨notOpening, absent⟩

theorem readTuple_errorIn (readers : ReadersReject stop steps) (opens : opening.tag = .leftParen)
    (read : readTuple stop (steps + 1) (opening :: inside) = .rejected error rest) :
    ErrorIn stop (opening :: inside) error := by
  rw [readTuple, Parsed.expect_of_tag opens] at read
  dsimp only [Parsed.andThen] at read
  cases inside with
  | nil =>
      cases read
      exact .ending
  | cons token others =>
      dsimp only at read
      split at read
      next => cases read
      next => exact (readers.elements (Parsed.map_eq_rejected read)).tail opening

theorem readElements_errorIn (readers : ReadersReject stop steps)
    (read : readElements stop (steps + 1) tokens = .rejected error rest) :
    ErrorIn stop tokens error := by
  rw [readElements] at read
  rcases Parsed.andThen_eq_rejected read with early | ⟨element, behind, accepted, late⟩
  · exact readers.expression early
  obtain ⟨written, ends⟩ := (readersWrite stop steps).expression accepted
  cases behind with
  | nil =>
      cases late
      exact .ending
  | cons token others =>
      dsimp only at late
      split at late
      next =>
        have suffix : others <:+ tokens :=
          (List.suffix_cons token others).trans written.spells.isSuffix
        exact (readers.elements (Parsed.map_eq_rejected late)).of_suffix suffix
      next notComma =>
        -- Nothing else can stand behind an element, so the check for the parenthesis succeeds.
        have closes : token.tag = .rightParen := by
          rcases phraseEnds_cons.mp ends with closing | comma
          · rw [Token.tag, closing, Token.Kind.tag]
          · exact absurd (by rw [Token.tag, comma, Token.Kind.tag]) notComma
        rw [Parsed.expect_of_tag closes] at late
        cases late

theorem readLambda_errorIn (readers : ReadersReject stop steps) (opens : opening.tag = .leftParen)
    (followed : arrowFollows 0 (opening :: inside) = true)
    (read : readLambda stop (steps + 1) (opening :: inside) = .rejected error rest) :
    ErrorIn stop (opening :: inside) error := by
  have isOpening : opening.kind = .leftParen := Token.Kind.eq_of_tag rfl opens
  have within : arrowFollows 1 inside = true := by
    simpa only [arrowFollows, isOpening] using followed
  rw [readLambda, Parsed.expect_of_tag opens] at read
  dsimp only [Parsed.andThen] at read
  rcases Parsed.andThen_eq_rejected read with early | ⟨names, behind, accepted, late⟩
  · exact parameters_errorIn isOpening within early
  -- The parameters end at the parenthesis that the lookahead has found, so the arrow is there.
  obtain ⟨arrow, others, rfl, leads, suffix⟩ := arrow_of_parameters within accepted
  rw [Parsed.expect_of_tag (by rw [Token.tag, leads, Token.Kind.tag])] at late
  exact ((readers.expression (Parsed.map_eq_rejected late)).of_suffix suffix).tail opening

end ReadersReject

theorem readersReject (stop : Location) (steps : Nat) : ReadersReject stop steps := by
  induction steps with
  | zero => constructor <;> intros <;> rename_i read <;> cases read
  | succ steps readers =>
      exact ⟨readers.readExpression_errorIn, readers.readChain_errorIn,
        readers.readValue_errorIn, readers.readTuple_errorIn, readers.readElements_errorIn,
        readers.readLambda_errorIn⟩

/-- The error of a parse is at the end of the tokens, or at one of them, which it names. No
parenthesis is missed but one that closes a parameter list, so the readers of groups find theirs,
and an arrow is never missed. -/
theorem parse_error_misplaced (tokens : List Token) (stop : Location) (error : ParseError)
    (failed : parse tokens stop = .error error) : ErrorIn stop tokens error := by
  rcases parse_eq_error failed with ⟨rest, rejected⟩ | ⟨program, token, rest, accepted, rfl⟩
  · exact (readersReject stop _).expression rejected
  · obtain ⟨written, ends⟩ := (readersWrite stop _).expression accepted
    have ender : token.tag ∈ [.rightParen, .comma] := by
      rcases phraseEnds_cons.mp ends with closes | comma
      · simp [Token.tag, closes, Token.Kind.tag]
      · simp [Token.tag, comma, Token.Kind.tag]
    exact (ErrorIn.token [] token rest (.trailing ender)).of_suffix written.spells.isSuffix

/-- The tokens of `(f, (a b) => a)`. -/
def undividedTokens : List Token :=
  [⟨⟨1, 1⟩, .leftParen⟩, ⟨⟨1, 2⟩, .identifier "f"⟩, ⟨⟨1, 3⟩, .comma⟩, ⟨⟨1, 5⟩, .leftParen⟩,
   ⟨⟨1, 6⟩, .identifier "a"⟩, ⟨⟨1, 8⟩, .identifier "b"⟩, ⟨⟨1, 9⟩, .rightParen⟩,
   ⟨⟨1, 11⟩, .arrow⟩, ⟨⟨1, 14⟩, .identifier "a"⟩, ⟨⟨1, 15⟩, .rightParen⟩]

/-- The second parameter stands where the list should be divided or closed. -/
theorem parse_error_misplaced_undivided :
    parse undividedTokens ⟨1, 16⟩ =
        .error ⟨⟨1, 8⟩, .unexpectedToken .rightParen .identifier⟩ ∧
      ErrorIn ⟨1, 16⟩ undividedTokens ⟨⟨1, 8⟩, .unexpectedToken .rightParen .identifier⟩ := by
  have failed : parse undividedTokens ⟨1, 16⟩ =
      .error ⟨⟨1, 8⟩, .unexpectedToken .rightParen .identifier⟩ := rfl
  exact ⟨failed, parse_error_misplaced undividedTokens ⟨1, 16⟩ _ failed⟩

end Expression

end PipeLang
