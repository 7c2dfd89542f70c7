import PipeLang.Proofs.Lossless
import PipeLang.Proofs.Relocation

namespace PipeLang

/-! # Parsing undoes unparsing

Tokens that spell an expression lead every reader to this very expression, provided that the
expression can be written as it is. Reading from the left, the readers pass from one phrase to
the next as the spelling does; what has to be shown at each opening parenthesis is that the
lookahead tells tuples from lambdas, and behind each lambda that no operator follows its body.
-/

namespace Spells

variable {first second : List Mark} {mark : Mark} {marks : List Mark} {tokens rest : List Token}

theorem append_inv (spells : Spells (first ++ second) tokens rest) :
    ∃ middle, Spells first tokens middle ∧ Spells second middle rest := by
  induction first generalizing tokens with
  | nil => exact ⟨tokens, .nil, spells⟩
  | cons mark marks ih =>
      cases spells with
      | cons fits tail =>
          obtain ⟨middle, before, after⟩ := ih tail
          exact ⟨middle, .cons fits before, after⟩

theorem cons_inv (spells : Spells (mark :: marks) tokens rest) :
    ∃ token middle, tokens = token :: middle ∧ mark.Fits token ∧ Spells marks middle rest := by
  cases spells with
  | cons fits tail => exact ⟨_, _, rfl, fits, tail⟩

theorem length_eq (spells : Spells marks tokens rest) :
    tokens.length = marks.length + rest.length := by
  induction spells with
  | nil => simp
  | cons _ _ ih =>
      simp only [List.length_cons, ih]
      omega

end Spells

theorem Mark.separated_eq_cons (mark : Mark) (marks : List Mark) (phrases : List (List Mark)) :
    ∃ more, Mark.separated ((mark :: marks) :: phrases) = mark :: more := by
  cases phrases with
  | nil => exact ⟨marks, by simp⟩
  | cons second others =>
      exact ⟨marks ++ .plain .comma :: Mark.separated (second :: others), by simp⟩

theorem Mark.Fits.location_eq {location : Location} {kind : Token.Kind} {token : Token}
    (fits : (Mark.introducing location kind).Fits token) : token.location = location :=
  fits.2 location rfl

namespace Expression

variable {stop : Location} {steps depth : Nat} {tokens middle rest : List Token} {token : Token}
  {expression left right body : Expression} {operator : Operator} {elements : List Expression}
  {names : List String}

/-- The lookahead stands at the same depth behind the marks as before them. -/
def Passed (marks : List Mark) : Prop :=
  ∀ (depth : Nat) (tokens rest : List Token), Spells marks tokens rest →
    arrowFollows (depth + 1) tokens = arrowFollows (depth + 1) rest

theorem passed_nil : Passed [] := by
  intro depth tokens rest spells
  cases spells
  rfl

theorem Passed.append {first second : List Mark} (before : Passed first) (after : Passed second) :
    Passed (first ++ second) := by
  intro depth tokens rest spells
  obtain ⟨middle, early, late⟩ := spells.append_inv
  exact (before _ _ _ early).trans (after _ _ _ late)

theorem passed_mark {mark : Mark} (notOpening : mark.kind ≠ .leftParen)
    (notClosing : mark.kind ≠ .rightParen) : Passed [mark] := by
  intro depth tokens rest spells
  obtain ⟨token, middle, rfl, fits, tail⟩ := spells.cons_inv
  cases tail
  rw [← fits.1] at notOpening notClosing
  simp only [arrowFollows]

theorem Passed.group {inner : List Mark} {location : Location} (inside : Passed inner) :
    Passed (.introducing location .leftParen :: (inner ++ [.plain .rightParen])) := by
  intro depth tokens rest spells
  obtain ⟨opening, middle, rfl, opens, tail⟩ := spells.cons_inv
  obtain ⟨behind, early, late⟩ := tail.append_inv
  obtain ⟨closing, others, rfl, closes, last⟩ := late.cons_inv
  cases last
  have opened : opening.kind = .leftParen := opens.1
  have closed : closing.kind = .rightParen := closes.1
  simp only [arrowFollows, opened]
  rw [inside _ _ _ early]
  simp [arrowFollows, closed]

theorem passed_separated {phrases : List (List Mark)} (each : ∀ phrase ∈ phrases, Passed phrase) :
    Passed (Mark.separated phrases) := by
  induction phrases with
  | nil => exact passed_nil
  | cons first others ih =>
      have start := each first List.mem_cons_self
      have onward := ih fun phrase member => each phrase (List.mem_cons_of_mem first member)
      cases others with
      | nil => simpa using start
      | cons second others =>
          rw [Mark.separated_cons_cons]
          exact start.append ((passed_mark (by decide) (by decide)).append onward)

theorem passed_parameters (names : List String) : Passed (parameterSpelling names) := by
  refine passed_separated ?_
  intro phrase member
  obtain ⟨name, -, rfl⟩ := List.mem_map.mp member
  exact passed_mark (by simp [Mark.plain]) (by simp [Mark.plain])

theorem mem_spellings {phrase : List Mark} :
    phrase ∈ spellings elements ↔ ∃ element ∈ elements, element.spelling = phrase := by
  induction elements with
  | nil => simp [spellings]
  | cons element others ih => simp [spellings, ih, eq_comm]

theorem passed_spelling (expression : Expression) : Passed expression.spelling := by
  induction expression with
  | tuple location elements ih =>
      refine (passed_separated ?_).group
      intro phrase member
      obtain ⟨element, inside, rfl⟩ := mem_spellings.mp member
      exact ih element inside
  | lambda location parameters body ih =>
      have arrow : Passed [Mark.plain .arrow] := passed_mark (by decide) (by decide)
      have head : Passed (.introducing location .leftParen ::
          (parameterSpelling parameters ++ [.plain .rightParen])) :=
        (passed_parameters parameters).group
      simpa [spelling] using head.append (arrow.append ih)
  | binary location operator left right leftIH rightIH =>
      have sign : Passed [Mark.introducing location operator.kind] := by
        cases operator <;> exact passed_mark (by simp [Mark.introducing, Operator.kind])
          (by simp [Mark.introducing, Operator.kind])
      simpa [spelling] using leftIH.append (sign.append rightIH)
  | _ => exact passed_mark (by simp [Mark.introducing]) (by simp [Mark.introducing])

/-- What stands behind an expression neither turns its last tuple into a parameter list nor
belongs to the body it ends in. -/
structure EndsBefore (expression : Expression) (rest : List Token) : Prop where
  noArrow : ∀ token ∈ rest.head?, token.kind ≠ .arrow
  body : expression.endsInBody = true → PhraseEnds rest

theorem PhraseEnds.endsBefore (ends : PhraseEnds rest) : expression.EndsBefore rest := by
  refine ⟨?_, fun _ => ends⟩
  intro token first arrow
  rcases ends token first with closes | divides
  · simp [arrow] at closes
  · simp [arrow] at divides

theorem endsBefore_operator (complete : left.endsInBody = false)
    (isSign : token.kind = operator.kind) (rest : List Token) : left.EndsBefore (token :: rest) := by
  refine ⟨?_, by simp [complete]⟩
  intro other front arrow
  cases front
  rw [isSign] at arrow
  cases operator <;> cases arrow

/-- Tokens that spell the expression are read as this expression. A reader of chains is then
left with the expression as its left operand. -/
structure Reads (stop : Location) (expression : Expression) : Prop where
  value : expression.tag ≠ .binary → ∀ (steps : Nat) (tokens rest : List Token),
    Spells expression.spelling tokens rest → expression.EndsBefore rest →
      4 * tokens.length + 2 ≤ steps → readValue stop steps tokens = .accepted expression rest
  chain : ∀ (steps : Nat) (tokens rest : List Token),
    Spells expression.spelling tokens rest → expression.EndsBefore rest →
      4 * tokens.length + 3 ≤ steps →
        ∃ others, 4 * rest.length + 1 ≤ others ∧
          readExpression stop steps tokens = readChain stop others expression rest

theorem readChain_of_phraseEnds (enough : 1 ≤ steps) (ends : PhraseEnds rest) :
    readChain stop steps left rest = .accepted left rest := by
  obtain ⟨steps, rfl⟩ := Nat.exists_eq_add_of_le' enough
  cases rest with
  | nil => rw [readChain]
  | cons token others =>
      rcases phraseEnds_cons.mp ends with closes | divides
      · simp only [readChain, closes]
      · simp only [readChain, divides]

theorem Reads.whole (reads : expression.Reads stop) (spells : Spells expression.spelling tokens rest)
    (ends : PhraseEnds rest) (enough : 4 * tokens.length + 3 ≤ steps) :
    readExpression stop steps tokens = .accepted expression rest := by
  obtain ⟨others, left, read⟩ := reads.chain steps tokens rest spells ends.endsBefore enough
  rw [read]
  exact readChain_of_phraseEnds (by omega) ends

theorem Reads.of_value (value : ∀ (steps : Nat) (tokens rest : List Token),
    Spells expression.spelling tokens rest → expression.EndsBefore rest →
      4 * tokens.length + 2 ≤ steps → readValue stop steps tokens = .accepted expression rest) :
    expression.Reads stop where
  value _ := value
  chain := by
    intro steps tokens rest spells ends enough
    obtain ⟨steps, rfl⟩ := Nat.exists_eq_add_of_le' (by omega : 1 ≤ steps)
    have shorter := spells.length_eq
    refine ⟨steps, by omega, ?_⟩
    rw [readExpression, value steps tokens rest spells ends (by omega)]
    rfl

theorem reads_leaf {location : Location} {kind : Token.Kind}
    (spelled : expression.spelling = [.introducing location kind])
    (denotes : ∀ token : Token, token.kind = kind → token.location = location →
      ofToken token = .ok expression) : expression.Reads stop := by
  refine .of_value ?_
  intro steps tokens rest spells ends enough
  obtain ⟨steps, rfl⟩ := Nat.exists_eq_add_of_le' (by omega : 1 ≤ steps)
  rw [spelled] at spells
  obtain ⟨token, others, rfl, fits, tail⟩ := spells.cons_inv
  cases tail
  have denoted := denotes token fits.1 fits.location_eq
  have notOpening : token.tag ≠ .leftParen := by
    intro opening
    have same : token.kind = .leftParen := Token.Kind.eq_of_tag rfl opening
    simp [ofToken, same] at denoted
  rw [readValue, if_neg notOpening, denoted]

theorem parameterNames_of_spells (some : names ≠ [])
    (spells : Spells (parameterSpelling names ++ [.plain .rightParen]) tokens rest) :
    parameterNames stop tokens = .accepted names rest := by
  induction names generalizing tokens with
  | nil => exact absurd rfl some
  | cons name others ih =>
      cases others with
      | nil =>
          obtain ⟨token, middle, rfl, named, tail⟩ := spells.cons_inv
          obtain ⟨closing, behind, rfl, closes, last⟩ := tail.cons_inv
          cases last
          have isName : token.kind = .identifier name := named.1
          have isClosing : closing.kind = .rightParen := closes.1
          simp only [parameterNames, isName, isClosing]
      | cons second others =>
          obtain ⟨token, middle, rfl, named, tail⟩ := spells.cons_inv
          obtain ⟨comma, behind, rfl, divides, onward⟩ := tail.cons_inv
          have isName : token.kind = .identifier name := named.1
          have isComma : comma.kind = .comma := divides.1
          have rest := ih (List.cons_ne_nil second others) onward
          simp only [parameterNames, isName, isComma, rest]
          rfl

theorem parameters_of_spells
    (spells : Spells (parameterSpelling names ++ [.plain .rightParen]) tokens rest) :
    parameters stop tokens = .accepted names rest := by
  cases names with
  | nil =>
      obtain ⟨closing, behind, rfl, closes, last⟩ := spells.cons_inv
      cases last
      have isClosing : closing.kind = .rightParen := closes.1
      simp [parameters, Token.tag, isClosing, Token.Kind.tag]
  | cons name others =>
      have read : parameterNames stop tokens = .accepted (name :: others) rest :=
        parameterNames_of_spells (List.cons_ne_nil name others) spells
      obtain ⟨more, front⟩ := Mark.separated_eq_cons (.plain (.identifier name)) []
        (others.map fun name => [.plain (.identifier name)])
      rw [parameterSpelling, List.map_cons, front] at spells
      obtain ⟨token, middle, rfl, named, -⟩ := spells.cons_inv
      have isName : token.kind = .identifier name := named.1
      rw [parameters, if_neg (by simp [Token.tag, isName, Token.Kind.tag]), read]

theorem reads_lambda {location : Location} (inner : body.Reads stop) :
    (Expression.lambda location names body).Reads stop := by
  refine .of_value ?_
  intro steps tokens rest spells ends enough
  obtain ⟨steps, rfl⟩ := Nat.exists_eq_add_of_le' (by omega : 2 ≤ steps)
  have measured := spells.length_eq
  obtain ⟨opening, inside, rfl, opens, tail⟩ := spells.cons_inv
  obtain ⟨middle, listed, onward⟩ := tail.append_inv
  obtain ⟨closing, behind, rfl, closes, led⟩ := onward.cons_inv
  obtain ⟨arrow, others, rfl, leads, inBody⟩ := led.cons_inv
  have isOpening : opening.kind = .leftParen := opens.1
  have isClosing : closing.kind = .rightParen := closes.1
  have isArrow : arrow.kind = .arrow := leads.1
  have isLambda : arrowFollows 0 (opening :: inside) = true := by
    simp only [arrowFollows, isOpening]
    rw [passed_parameters names 0 _ _ listed]
    simp [arrowFollows, isClosing, isArrow]
  have parameterList : Spells (parameterSpelling names ++ [.plain .rightParen]) inside
      (arrow :: others) := listed.append (.cons closes .nil)
  have sizes := parameterList.length_eq
  simp only [List.length_cons] at enough sizes
  have bodyRead : readExpression stop steps others = .accepted body rest :=
    inner.whole inBody (ends.body rfl) (by omega)
  rw [readValue, if_pos (by simp [Token.tag, isOpening, Token.Kind.tag]), isLambda, if_pos rfl,
    readLambda]
  simp [Parsed.expect, Parsed.andThen, Parsed.map, Token.tag, isOpening, isArrow, Token.Kind.tag,
    parameters_of_spells parameterList, bodyRead, opens.location_eq]

theorem spelling_eq_cons (expression : Expression) :
    ∃ mark marks, expression.spelling = mark :: marks ∧ mark.kind ≠ .rightParen := by
  induction expression with
  | binary location operator left right leftIH _ =>
      obtain ⟨mark, marks, spelled, started⟩ := leftIH
      refine ⟨mark, marks ++ .introducing location operator.kind :: right.spelling, ?_, started⟩
      rw [spelling, spelled, List.cons_append]
  | _ => exact ⟨_, _, rfl, by simp [Mark.introducing]⟩

theorem readElements_of_spells (each : ∀ element ∈ elements, element.Reads stop)
    (some : elements ≠ [])
    (spells : Spells (Mark.separated (spellings elements) ++ [.plain .rightParen]) tokens rest)
    (enough : 4 * tokens.length + 4 ≤ steps) :
    readElements stop steps tokens = .accepted elements rest := by
  induction elements generalizing tokens steps with
  | nil => exact absurd rfl some
  | cons element others ih =>
      obtain ⟨steps, rfl⟩ := Nat.exists_eq_add_of_le' (by omega : 1 ≤ steps)
      have reads := each element List.mem_cons_self
      cases others with
      | nil =>
          simp only [spellings, Mark.separated_singleton] at spells
          obtain ⟨middle, first, last⟩ := spells.append_inv
          obtain ⟨closing, behind, rfl, closes, done⟩ := last.cons_inv
          cases done
          have isClosing : closing.kind = .rightParen := closes.1
          have read : readExpression stop steps tokens = .accepted element (closing :: rest) :=
            reads.whole first (phraseEnds_cons.mpr (.inl isClosing)) (by omega)
          simp [readElements, read, Parsed.andThen, Parsed.expect, Parsed.map, Token.tag, isClosing,
            Token.Kind.tag]
      | cons second others =>
          simp only [spellings, Mark.separated_cons_cons, List.append_assoc,
            List.cons_append] at spells
          obtain ⟨middle, first, onward⟩ := spells.append_inv
          obtain ⟨comma, behind, rfl, divides, last⟩ := onward.cons_inv
          have isComma : comma.kind = .comma := divides.1
          have read : readExpression stop steps tokens = .accepted element (comma :: behind) :=
            reads.whole first (phraseEnds_cons.mpr (.inr isComma)) (by omega)
          have shorter := first.length_eq
          rw [List.length_cons] at shorter
          have remaining : readElements stop steps behind = .accepted (second :: others) rest :=
            ih (fun other member => each other (List.mem_cons_of_mem element member))
              (List.cons_ne_nil second others) (by simpa [spellings] using last) (by omega)
          simp [readElements, read, remaining, Parsed.andThen, Parsed.map, Token.tag, isComma,
            Token.Kind.tag]

theorem reads_tuple {location : Location} (each : ∀ element ∈ elements, element.Reads stop) :
    (Expression.tuple location elements).Reads stop := by
  refine .of_value ?_
  intro steps tokens rest spells ends enough
  obtain ⟨steps, rfl⟩ := Nat.exists_eq_add_of_le' (by omega : 2 ≤ steps)
  obtain ⟨opening, inside, rfl, opens, tail⟩ := spells.cons_inv
  obtain ⟨middle, listed, last⟩ := tail.append_inv
  obtain ⟨closing, behind, rfl, closes, done⟩ := last.cons_inv
  cases done
  have isOpening : opening.kind = .leftParen := opens.1
  have isClosing : closing.kind = .rightParen := closes.1
  have passed : Passed (Mark.separated (spellings elements)) := by
    refine passed_separated ?_
    intro phrase member
    obtain ⟨element, -, rfl⟩ := mem_spellings.mp member
    exact passed_spelling element
  have noArrow : rest.head?.any (·.kind == .arrow) = false := by
    cases first : rest.head? with
    | none => rfl
    | some token => simpa using ends.noArrow token first
  have isTuple : arrowFollows 0 (opening :: inside) = false := by
    simp only [arrowFollows, isOpening]
    rw [passed 0 _ _ listed]
    simpa [arrowFollows, isClosing] using noArrow
  have opened : Parsed.expect stop .leftParen (opening :: inside) = .accepted opening inside := by
    simp [Parsed.expect, Token.tag, isOpening, Token.Kind.tag]
  rw [readValue, if_pos (by simp [Token.tag, isOpening, Token.Kind.tag]), isTuple, if_neg (by decide),
    readTuple, opened, Parsed.andThen]
  cases elements with
  | nil =>
      cases listed
      simp [Token.tag, isClosing, Token.Kind.tag, opens.location_eq]
  | cons element others =>
      simp only [List.length_cons] at enough
      have read : readElements stop steps inside = .accepted (element :: others) rest :=
        readElements_of_spells each (List.cons_ne_nil element others) tail (by omega)
      -- A closing parenthesis in front would make the tuple empty, but no phrase starts with one.
      obtain ⟨mark, marks, spelled, started⟩ := spelling_eq_cons element
      obtain ⟨more, front⟩ := Mark.separated_eq_cons mark marks (spellings others)
      rw [spellings, spelled, front] at listed
      obtain ⟨token, remaining, rfl, fits, -⟩ := listed.cons_inv
      have notClosing : token.tag ≠ .rightParen := by
        intro closing
        have same : token.kind = .rightParen := Token.Kind.eq_of_tag rfl closing
        exact started (fits.1.symm.trans same)
      simp only [if_neg notClosing, read, Parsed.map, Parsed.andThen, opens.location_eq]

theorem reference?_of_spells (named : right.tag = .reference)
    (spells : Spells right.spelling tokens rest) :
    reference? stop tokens = .accepted right rest := by
  cases right with
  | reference location name =>
      obtain ⟨token, others, rfl, fits, tail⟩ := spells.cons_inv
      cases tail
      have isName : token.kind = .identifier name := fits.1
      simp [reference?, Parsed.expect, Parsed.andThen, Token.tag, isName, Token.Kind.tag, ofToken,
        fits.location_eq]
  | _ => cases named

theorem reads_binary {location : Location} (takes : operator.Takes right)
    (complete : left.endsInBody = false) (first : left.Reads stop) (second : right.Reads stop) :
    (Expression.binary location operator left right).Reads stop where
  value single := absurd rfl single
  chain := by
    intro steps tokens rest spells ends enough
    rw [spelling] at spells
    obtain ⟨middle, before, onward⟩ := spells.append_inv
    obtain ⟨sign, behind, rfl, fits, after⟩ := onward.cons_inv
    have isSign : sign.kind = operator.kind := fits.1
    have place : sign.location = location := fits.location_eq
    have between : left.EndsBefore (sign :: behind) := endsBefore_operator complete isSign behind
    obtain ⟨others, remaining, read⟩ := first.chain steps tokens _ before between enough
    have shorter := after.length_eq
    rw [List.length_cons] at remaining
    obtain ⟨others, rfl⟩ := Nat.exists_eq_add_of_le' (by omega : 1 ≤ others)
    refine ⟨others, by omega, ?_⟩
    rw [read, readChain]
    cases operator with
    | pipeline =>
        have operand : right.EndsBefore rest := by
          refine ⟨ends.noArrow, fun inBody => ends.body ?_⟩
          cases right with
          | lambda => rfl
          | binary => exact absurd rfl takes
          | _ => cases inBody
        have value := second.value takes others behind rest after operand (by omega)
        simp only [isSign, Operator.kind, value, Parsed.andThen, place]
    | assign | mutate =>
        have target : reference? stop behind = .accepted right rest :=
          reference?_of_spells takes after
        simp only [isSign, Operator.kind, target, Parsed.andThen, place]

theorem reads_of_writable (writable : expression.Writable) : expression.Reads stop := by
  induction expression with
  | number | string | boolean | reference =>
      exact reads_leaf rfl fun token same place => by simp [ofToken, same, place]
  | tuple location elements ih =>
      have each := writable_tuple.mp writable
      exact reads_tuple fun element member => ih element member (each element member)
  | lambda location parameters body ih => exact reads_lambda (ih (writable_lambda.mp writable))
  | binary location operator left right leftIH rightIH =>
      obtain ⟨⟨complete, takes⟩, first, second⟩ := writable_binary.mp writable
      exact reads_binary takes complete (leftIH first) (rightIH second)

theorem parse_of_spells (writable : expression.Writable)
    (spells : Spells expression.spelling tokens []) : parse tokens stop = .ok expression := by
  have reads : expression.Reads stop := reads_of_writable writable
  exact parse_of_accepted (reads.whole spells phraseEnds_nil (Nat.le_refl _))

theorem spells_plain {kinds more : List Token.Kind}
    (same : tokens.map Token.kind = kinds ++ more) :
    ∃ rest, Spells (kinds.map Mark.plain) tokens rest ∧ rest.map Token.kind = more := by
  induction kinds generalizing tokens with
  | nil => exact ⟨tokens, .nil, same⟩
  | cons kind kinds ih =>
      obtain ⟨token, others, rfl, first, onward⟩ := List.map_eq_cons_iff.mp same
      obtain ⟨rest, spells, remaining⟩ := ih onward
      exact ⟨rest, .cons (Mark.fits_plain first) spells, remaining⟩

/-- The tokens that start with the given kinds determine where the nodes of the expression are. -/
def Placeable (expression : Expression) : Prop :=
  ∀ (tokens : List Token) (more : List Token.Kind),
    tokens.map Token.kind = expression.unparse ++ more →
      ∃ (placed : Expression) (rest : List Token), placed.unlocated = expression.unlocated ∧
        Spells placed.spelling tokens rest ∧ rest.map Token.kind = more

theorem placeable_elements (each : ∀ element ∈ elements, element.Placeable)
    {more : List Token.Kind}
    (same : tokens.map Token.kind = (Mark.separated (spellings elements)).map Mark.kind ++ more) :
    ∃ placed rest, placed.map unlocated = elements.map unlocated ∧
      Spells (Mark.separated (spellings placed)) tokens rest ∧ rest.map Token.kind = more := by
  induction elements generalizing tokens with
  | nil => exact ⟨[], tokens, rfl, .nil, same⟩
  | cons element others ih =>
      have start := each element List.mem_cons_self
      cases others with
      | nil =>
          obtain ⟨placed, rest, equal, spells, remaining⟩ :=
            start tokens more (by simpa [unparse, spellings] using same)
          exact ⟨[placed], rest, by simp [equal], by simpa [spellings] using spells, remaining⟩
      | cons second others =>
          simp only [spellings, Mark.separated_cons_cons, List.map_append, List.map_cons,
            List.append_assoc, List.cons_append] at same
          obtain ⟨placed, middle, equal, spells, onward⟩ := start tokens _ same
          obtain ⟨comma, behind, rfl, divides, remaining⟩ := List.map_eq_cons_iff.mp onward
          obtain ⟨several, rest, equals, spelled, done⟩ :=
            ih (fun other member => each other (List.mem_cons_of_mem element member)) remaining
          cases several with
          | nil => simp at equals
          | cons next several =>
              refine ⟨placed :: next :: several, rest, ?_, ?_, done⟩
              · simpa [equal] using equals
              · simp only [spellings, Mark.separated_cons_cons] at spelled ⊢
                exact spells.append (.cons (Mark.fits_plain divides) spelled)

theorem placeable_leaf {kind : Token.Kind} (leaf : Location → Expression)
    (spelled : ∀ location, (leaf location).spelling = [.introducing location kind])
    (alike : ∀ first second, (leaf first).unlocated = (leaf second).unlocated)
    (location : Location) : (leaf location).Placeable := by
  intro tokens more same
  rw [unparse, spelled] at same
  obtain ⟨token, rest, rfl, first, remaining⟩ := List.map_eq_cons_iff.mp same
  refine ⟨leaf token.location, rest, alike _ _, ?_, remaining⟩
  rw [spelled]
  exact .cons (Mark.fits_introducing first) .nil

theorem placeable (expression : Expression) : expression.Placeable := by
  induction expression with
  | number location value =>
      exact placeable_leaf (.number · value) (fun _ => rfl) (fun _ _ => rfl) location
  | string location text =>
      exact placeable_leaf (.string · text) (fun _ => rfl) (fun _ _ => rfl) location
  | boolean location value =>
      exact placeable_leaf (.boolean · value) (fun _ => rfl) (fun _ _ => rfl) location
  | reference location name =>
      exact placeable_leaf (.reference · name) (fun _ => rfl) (fun _ _ => rfl) location
  | tuple location elements ih =>
      intro tokens more same
      simp only [unparse, spelling, List.map_cons, List.map_append, List.cons_append,
        List.append_assoc] at same
      obtain ⟨opening, inside, rfl, opens, onward⟩ := List.map_eq_cons_iff.mp same
      obtain ⟨placed, middle, equal, spells, last⟩ := placeable_elements ih onward
      obtain ⟨closing, rest, rfl, closes, remaining⟩ := List.map_eq_cons_iff.mp last
      refine ⟨.tuple opening.location placed, rest, ?_, ?_, remaining⟩
      · simp only [unlocated, relocate, relocateEach_eq_map]
        exact congrArg (Expression.tuple .start) equal
      · exact .cons (Mark.fits_introducing opens)
          (spells.append (.cons (Mark.fits_plain closes) .nil))
  | lambda location parameters body ih =>
      intro tokens more same
      simp only [unparse, spelling, List.map_cons, List.map_append, List.cons_append,
        List.append_assoc] at same
      obtain ⟨opening, inside, rfl, opens, onward⟩ := List.map_eq_cons_iff.mp same
      obtain ⟨middle, listed, later⟩ := spells_plain onward
      obtain ⟨closing, behind, rfl, closes, led⟩ := List.map_eq_cons_iff.mp later
      obtain ⟨arrow, others, rfl, leads, inBody⟩ := List.map_eq_cons_iff.mp led
      obtain ⟨placed, rest, equal, spells, remaining⟩ := ih others more inBody
      refine ⟨.lambda opening.location parameters placed, rest, ?_, ?_, remaining⟩
      · simp only [unlocated, relocate] at equal ⊢
        rw [equal]
      · rw [List.map_map, map_parameterSpelling fun _ => rfl] at listed
        exact .cons (Mark.fits_introducing opens) (listed.append (.cons (Mark.fits_plain closes)
          (.cons (Mark.fits_plain leads) spells)))
  | binary location operator left right leftIH rightIH =>
      intro tokens more same
      simp only [unparse, spelling, List.map_cons, List.map_append, List.cons_append,
        List.append_assoc] at same
      obtain ⟨first, middle, leftEqual, before, onward⟩ := leftIH tokens _ same
      obtain ⟨sign, behind, rfl, signs, later⟩ := List.map_eq_cons_iff.mp onward
      obtain ⟨second, rest, rightEqual, after, remaining⟩ := rightIH behind more later
      refine ⟨.binary sign.location operator first second, rest, ?_, ?_, remaining⟩
      · simp only [unlocated, relocate] at leftEqual rightEqual ⊢
        rw [leftEqual, rightEqual]
      · rw [spelling]
        exact before.append (.cons (Mark.fits_introducing signs) after)

/-- Tokens of the kinds that an expression is written with are parsed as this expression, with
every node where the token stands that introduces it. -/
theorem parse_unparse (expression : Expression)
    (writable : ∀ node ∈ expression.nodes, node.OperandsAllowed)
    (tokens : List Token) (stop : Location)
    (kinds : tokens.map Token.kind = expression.unparse) :
    ∃ program, parse tokens stop = .ok program ∧ program.unlocated = expression.unlocated ∧
      Spells program.spelling tokens [] := by
  obtain ⟨program, rest, same, spells, ended⟩ := placeable expression tokens [] (by simpa using kinds)
  cases List.map_eq_nil_iff.mp ended
  have alike : program.Writable ↔ expression.Writable := by
    rw [← writable_relocate program, ← writable_relocate expression]
    exact iff_of_eq (congrArg Writable same)
  exact ⟨program, parse_of_spells (alike.mpr writable) spells, same, spells⟩

/-- The program `((a) => (() => a, ()) |> g, ()) -> f |> () => f |> h`, with its nodes in no
particular place. -/
def lambdasInTuples : Expression :=
  .binary .start .pipeline
    (.binary .start .assign
      (.tuple .start
        [.lambda .start ["a"]
          (.binary .start .pipeline
            (.tuple .start
              [.lambda .start [] (.reference .start "a"), .tuple .start []])
            (.reference .start "g")),
         .tuple .start []])
      (.reference .start "f"))
    (.lambda .start []
      (.binary .start .pipeline (.reference .start "f") (.reference .start "h")))

/-- Its tokens, each on a line of its own. -/
def lambdasInTuplesTokens : List Token :=
  lambdasInTuples.unparse.zipIdx.map fun (kind, index) => ⟨⟨index + 1, 1⟩, kind⟩

/-- Empty tuples and empty parameter lists are told apart, and the last lambda takes all the
operators that are left. -/
theorem parse_unparse_lambdasInTuples :
    ∃ program, parse lambdasInTuplesTokens ⟨30, 1⟩ = .ok program ∧
      program.unlocated = lambdasInTuples.unlocated ∧ program.location = ⟨23, 1⟩ := by
  obtain ⟨program, parsed, same, -⟩ := parse_unparse lambdasInTuples (by decide)
    lambdasInTuplesTokens ⟨30, 1⟩ (by decide)
  have placed : (parse lambdasInTuplesTokens ⟨30, 1⟩).map location = .ok ⟨23, 1⟩ := rfl
  rw [parsed] at placed
  exact ⟨program, parsed, same, Except.ok.inj placed⟩

end Expression

end PipeLang
