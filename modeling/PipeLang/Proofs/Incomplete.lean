import PipeLang.Proofs.Starved

namespace PipeLang

/-! # Incomplete programs

Whatever starts like a program is read up to its last token: reading either accepts it there or
asks for more. So a failure at any other token is final, and together with what is known of
readers that run out of tokens, a parse asks for more exactly when more tokens can help.

The parts of the program that are complete are read as in the whole. Only a group that is still
open, or ends with the last token, may be read in another way than in the whole, namely as a
tuple in place of a parameter list, and then its names are read as elements.
-/

namespace Parsed

variable {First Second : Type} {first : Parsed First}

/-- Reading went up to the last token, whether it was content with that or not. -/
def Exhausts (parsed : Parsed First) : Prop :=
  (∃ phrase, parsed = .accepted phrase []) ∨ parsed.Starved

theorem exhausts_accepted (phrase : First) : (Parsed.accepted phrase []).Exhausts :=
  .inl ⟨phrase, rfl⟩

theorem exhausts_end (stop : Location) (rest : List Token) :
    (Parsed.rejected ⟨stop, .unexpectedEnd⟩ rest : Parsed First).Exhausts :=
  .inr ⟨stop, rest, rfl⟩

theorem Exhausts.andThen {next : First → List Token → Parsed Second} (exhausts : first.Exhausts)
    (onward : ∀ phrase, (next phrase []).Exhausts) : (first.andThen next).Exhausts := by
  obtain ⟨phrase, rfl⟩ | ⟨location, rest, rfl⟩ := exhausts
  · exact onward phrase
  · exact exhausts_end location rest

theorem Exhausts.map (build : First → Second) (exhausts : first.Exhausts) :
    (first.map build).Exhausts :=
  exhausts.andThen fun phrase => exhausts_accepted (build phrase)

end Parsed

/-- The tokens fit the first of the marks, one by one. -/
inductive Starts : List Mark → List Token → Prop where
  | nil {marks : List Mark} : Starts marks []
  | cons {mark : Mark} {marks : List Mark} {token : Token} {tokens : List Token}
      (fits : mark.Fits token) (tail : Starts marks tokens) :
      Starts (mark :: marks) (token :: tokens)

theorem Spells.starts {marks : List Mark} {tokens more rest : List Token}
    (spells : Spells marks (tokens ++ more) rest) (whole : rest.length ≤ more.length) :
    Starts marks tokens := by
  induction tokens generalizing marks with
  | nil => exact .nil
  | cons token tokens ih =>
      cases spells with
      | nil =>
          simp only [List.cons_append, List.length_cons, List.length_append] at whole
          omega
      | cons fits tail => exact .cons fits (ih tail)

namespace Starts

variable {first second marks : List Mark} {mark : Mark} {tokens : List Token}

/-- The tokens end in the first part, or in the second behind at least one of its tokens. -/
theorem append_inv (starts : Starts (first ++ second) tokens) :
    Starts first tokens ∨
      ∃ token middle, Spells first tokens (token :: middle) ∧ Starts second (token :: middle) := by
  induction first generalizing tokens with
  | nil =>
      cases tokens with
      | nil => exact .inl .nil
      | cons token middle => exact .inr ⟨token, middle, .nil, starts⟩
  | cons mark marks ih =>
      cases starts with
      | nil => exact .inl .nil
      | cons fits tail =>
          rcases ih tail with early | ⟨token, middle, before, after⟩
          · exact .inl (.cons fits early)
          · exact .inr ⟨token, middle, .cons fits before, after⟩

theorem extends_to_spells (starts : Starts marks tokens) :
    ∃ more, Spells marks (tokens ++ more) [] := by
  induction starts with
  | @nil marks =>
      induction marks with
      | nil => exact ⟨[], .nil⟩
      | cons mark marks ih =>
          obtain ⟨more, spells⟩ := ih
          have fits : mark.Fits ⟨mark.location?.getD .start, mark.kind⟩ :=
            ⟨rfl, fun location given => by rw [given]; rfl⟩
          exact ⟨_, .cons fits spells⟩
  | cons fits _ ih =>
      obtain ⟨more, spells⟩ := ih
      exact ⟨more, .cons fits spells⟩

end Starts

namespace Expression

variable {stop : Location} {steps : Nat} {tokens inside : List Token} {token opening : Token}
  {expression left right body : Expression} {operator : Operator} {phrases : List (List Mark)}

theorem arrowFollows_append {depth : Nat} (found : arrowFollows depth tokens = true)
    (more : List Token) : arrowFollows depth (tokens ++ more) = true := by
  fun_induction arrowFollows depth tokens with
  | case1 => cases found
  | case2 depth token rest opens ih =>
      simpa only [List.cons_append, arrowFollows, opens] using ih found
  | case3 depth token rest closes outermost =>
      simp only [List.cons_append, arrowFollows, closes, if_pos outermost]
      cases rest with
      | nil => cases found
      | cons next others => exact found
  | case4 depth token rest closes inner ih =>
      simpa only [List.cons_append, arrowFollows, closes, if_neg inner] using ih found
  | case5 depth token rest _ _ ih => simpa only [List.cons_append, arrowFollows] using ih found

/-- A phrase that can be an element of a tuple, as far as its start is concerned. -/
structure Element (stop : Location) (phrase : List Mark) : Prop where
  passed : Passed phrase
  notClosing : ∃ mark marks, phrase = mark :: marks ∧ mark.kind ≠ .rightParen
  whole : ∀ (steps : Nat) (tokens rest : List Token), Spells phrase tokens rest →
    PhraseEnds rest → 4 * tokens.length + 3 ≤ steps →
      ∃ element, readExpression stop steps tokens = .accepted element rest
  begun : ∀ (steps : Nat) (tokens : List Token), Starts phrase tokens →
    4 * tokens.length + 3 ≤ steps → (readExpression stop steps tokens).Exhausts

theorem readElements_exhausts (each : ∀ phrase ∈ phrases, Element stop phrase)
    (some : phrases ≠ [])
    (starts : Starts (Mark.separated phrases ++ [.plain .rightParen]) tokens)
    (enough : 4 * tokens.length + 4 ≤ steps) : (readElements stop steps tokens).Exhausts := by
  induction phrases generalizing tokens steps with
  | nil => exact absurd rfl some
  | cons phrase others ih =>
      obtain ⟨steps, rfl⟩ := Nat.exists_eq_add_of_le' (by omega : 1 ≤ steps)
      have element := each phrase List.mem_cons_self
      have unfinished (begun : Starts phrase tokens) :
          (readElements stop (steps + 1) tokens).Exhausts := by
        rw [readElements]
        exact (element.begun steps tokens begun (by omega)).andThen
          fun _ => Parsed.exhausts_end stop []
      cases others with
      | nil =>
          rw [Mark.separated_singleton] at starts
          rcases starts.append_inv with early | ⟨closing, middle, before, after⟩
          · exact unfinished early
          · cases after with
            | cons closes last =>
                cases last
                have isClosing : closing.kind = .rightParen := closes.1
                obtain ⟨result, read⟩ := element.whole steps tokens [closing] before
                  (phraseEnds_cons.mpr (.inl isClosing)) (by omega)
                simp [readElements, read, Parsed.andThen, Parsed.expect, Parsed.map, Token.tag,
                  isClosing, Token.Kind.tag, Parsed.exhausts_accepted]
      | cons second others =>
          rw [Mark.separated_cons_cons, List.append_assoc, List.cons_append] at starts
          rcases starts.append_inv with early | ⟨comma, behind, before, after⟩
          · exact unfinished early
          · cases after with
            | cons divides following =>
                have isComma : comma.kind = .comma := divides.1
                obtain ⟨result, read⟩ := element.whole steps tokens (comma :: behind) before
                  (phraseEnds_cons.mpr (.inr isComma)) (by omega)
                have shorter := before.length_eq
                rw [List.length_cons] at shorter
                have remaining := ih
                  (fun phrase member => each phrase (List.mem_cons_of_mem _ member))
                  (List.cons_ne_nil second others) following (by omega : _ ≤ steps)
                simpa [readElements, read, Parsed.andThen, Token.tag, isComma, Token.Kind.tag]
                  using remaining.map _

/-- A group that is not followed by an arrow is read as a tuple. -/
theorem readValue_group_exhausts (each : ∀ phrase ∈ phrases, Element stop phrase)
    (opens : opening.kind = .leftParen)
    (starts : Starts (Mark.separated phrases ++ [.plain .rightParen]) inside)
    (enough : 4 * (opening :: inside).length + 2 ≤ steps) :
    (readValue stop steps (opening :: inside)).Exhausts := by
  obtain ⟨steps, rfl⟩ := Nat.exists_eq_add_of_le' (by omega : 2 ≤ steps)
  have noArrow : arrowFollows 0 (opening :: inside) = false := by
    obtain ⟨more, spells⟩ := starts.extends_to_spells
    obtain ⟨middle, listed, last⟩ := spells.append_inv
    obtain ⟨closing, behind, rfl, closes, done⟩ := last.cons_inv
    cases done
    have isClosing : closing.kind = .rightParen := closes.1
    have passed := passed_separated (fun phrase member => (each phrase member).passed) 0 _ _ listed
    rw [Bool.eq_false_iff]
    intro found
    have extended := arrowFollows_append found more
    simp only [List.cons_append, arrowFollows, opens, passed] at extended
    simp [isClosing] at extended
  have opened : Parsed.expect stop .leftParen (opening :: inside) = .accepted opening inside := by
    simp [Parsed.expect, Token.tag, opens, Token.Kind.tag]
  rw [readValue, if_pos (by simp [Token.tag, opens, Token.Kind.tag]), noArrow,
    if_neg (by decide), readTuple, opened, Parsed.andThen]
  cases inside with
  | nil => exact Parsed.exhausts_end stop []
  | cons token others =>
      cases phrases with
      | nil =>
          cases starts with
          | cons closes last =>
              cases last
              have isClosing : token.kind = .rightParen := closes.1
              simp [Token.tag, isClosing, Token.Kind.tag, Parsed.exhausts_accepted]
      | cons phrase phrases =>
          have notClosing : token.tag ≠ .rightParen := by
            obtain ⟨mark, marks, rfl, started⟩ := (each phrase List.mem_cons_self).notClosing
            obtain ⟨more, front⟩ := Mark.separated_eq_cons mark marks phrases
            rw [front] at starts
            cases starts with
            | cons fits _ =>
                intro closing
                have same : token.kind = .rightParen := Token.Kind.eq_of_tag rfl closing
                exact started (fits.1.symm.trans same)
          simp only [List.length_cons] at enough
          have read := readElements_exhausts each (List.cons_ne_nil phrase phrases) starts
            (by simp only [List.length_cons]; omega : _ ≤ steps)
          simpa only [if_neg notClosing] using read.map _

/-- The tokens that start like the expression are read up to the last. -/
structure Begun (stop : Location) (expression : Expression) : Prop where
  value : expression.tag ≠ .binary → ∀ (steps : Nat) (tokens : List Token),
    Starts expression.spelling tokens → 4 * tokens.length + 2 ≤ steps →
      (readValue stop steps tokens).Exhausts
  chain : ∀ (steps : Nat) (tokens : List Token), Starts expression.spelling tokens →
    4 * tokens.length + 3 ≤ steps → (readExpression stop steps tokens).Exhausts

theorem Begun.of_value (value : ∀ (steps : Nat) (tokens : List Token),
    Starts expression.spelling tokens → 4 * tokens.length + 2 ≤ steps →
      (readValue stop steps tokens).Exhausts) : expression.Begun stop where
  value _ := value
  chain := by
    intro steps tokens starts enough
    obtain ⟨steps, rfl⟩ := Nat.exists_eq_add_of_le' (by omega : 2 ≤ steps)
    rw [readExpression]
    exact (value (steps + 1) tokens starts (by omega)).andThen fun left => by
      rw [readChain]
      exact Parsed.exhausts_accepted left

theorem element_of_writable (writable : expression.Writable) (begun : expression.Begun stop) :
    Element stop expression.spelling where
  passed := passed_spelling expression
  notClosing := spelling_eq_cons expression
  whole _ _ _ spells ends enough :=
    ⟨expression, (reads_of_writable writable).whole spells ends enough⟩
  begun := begun.chain

theorem begun_leaf {mark : Mark} (spelled : expression.spelling = [mark])
    (single : expression.tag ≠ .binary) (reads : expression.Reads stop)
    (complete : expression.endsInBody = false) : expression.Begun stop := by
  apply Begun.of_value
  intro steps tokens starts enough
  rw [spelled] at starts
  cases starts with
  | nil =>
      obtain ⟨steps, rfl⟩ := Nat.exists_eq_add_of_le' (by omega : 1 ≤ steps)
      rw [readValue]
      exact Parsed.exhausts_end stop []
  | @cons _ _ token _ fits tail =>
      cases tail
      have spells : Spells expression.spelling [token] [] := by
        rw [spelled]
        exact .cons fits .nil
      have ends : expression.EndsBefore [] := by
        constructor
        · intro token first
          cases first
        · simp [complete]
      rw [reads.value single steps [token] [] spells ends enough]
      exact Parsed.exhausts_accepted expression

theorem begun_tuple {location : Location} {elements : List Expression}
    (each : ∀ element ∈ elements, element.Writable ∧ element.Begun stop) :
    (Expression.tuple location elements).Begun stop := by
  apply Begun.of_value
  intro steps tokens starts enough
  cases starts with
  | nil =>
      obtain ⟨steps, rfl⟩ := Nat.exists_eq_add_of_le' (by omega : 1 ≤ steps)
      rw [readValue]
      exact Parsed.exhausts_end stop []
  | cons opens inside =>
      apply readValue_group_exhausts _ opens.1 inside enough
      intro phrase member
      obtain ⟨element, listed, rfl⟩ := mem_spellings.mp member
      exact element_of_writable (each element listed).1 (each element listed).2

theorem begun_reference (location : Location) (name : String) :
    (Expression.reference location name).Begun stop :=
  begun_leaf rfl nofun (reads_of_writable (writable_leaf rfl nofun)) rfl

/-- As long as no arrow has come, a parameter is as good as an element. -/
theorem element_parameter (name : String) : Element stop [.plain (.identifier name)] := by
  have named (location : Location) : Element stop (Expression.reference location name).spelling :=
    element_of_writable (writable_leaf rfl nofun) (begun_reference location name)
  have moved {token : Token} (fits : (Mark.plain (.identifier name)).Fits token) :
      (Mark.introducing token.location (.identifier name)).Fits token :=
    Mark.fits_introducing fits.1
  constructor
  · exact passed_mark nofun nofun
  · exact ⟨_, _, rfl, nofun⟩
  · intro steps tokens rest spells ends enough
    obtain ⟨token, others, rfl, fits, tail⟩ := spells.cons_inv
    exact (named token.location).whole steps _ rest (.cons (moved fits) tail) ends enough
  · intro steps tokens starts enough
    cases starts with
    | nil => exact (named .start).begun steps [] .nil enough
    | @cons _ _ token _ fits tail =>
        exact (named token.location).begun steps _ (.cons (moved fits) tail) enough

theorem begun_lambda {location : Location} {names : List String} (inner : body.Begun stop) :
    (Expression.lambda location names body).Begun stop := by
  apply Begun.of_value
  intro steps tokens starts enough
  obtain ⟨steps, rfl⟩ := Nat.exists_eq_add_of_le' (by omega : 2 ≤ steps)
  cases starts with
  | nil =>
      rw [readValue]
      exact Parsed.exhausts_end stop []
  | @cons _ _ opening inside opens behind =>
      have isOpening : opening.kind = .leftParen := opens.1
      have parts : parameterSpelling names ++ .plain .rightParen :: .plain .arrow :: body.spelling =
          (parameterSpelling names ++ [.plain .rightParen]) ++ .plain .arrow :: body.spelling := by
        simp
      rw [parts] at behind
      rcases behind.append_inv with early | ⟨arrow, others, listed, led⟩
      · apply readValue_group_exhausts _ isOpening early enough
        intro phrase member
        obtain ⟨name, -, rfl⟩ := List.mem_map.mp member
        exact element_parameter name
      · cases led with
        | cons leads inBody =>
            have isArrow : arrow.kind = .arrow := leads.1
            have isLambda : arrowFollows 0 (opening :: inside) = true := by
              obtain ⟨middle, before, after⟩ := listed.append_inv
              obtain ⟨closing, rest, rfl, closes, done⟩ := after.cons_inv
              cases done
              have isClosing : closing.kind = .rightParen := closes.1
              simp only [arrowFollows, isOpening]
              rw [passed_parameters names 0 _ _ before]
              simp [arrowFollows, isClosing, isArrow]
            have sizes := listed.length_eq
            simp only [List.length_cons] at enough sizes
            have read := inner.chain steps others inBody (by omega)
            rw [readValue, if_pos (by simp [Token.tag, isOpening, Token.Kind.tag]), isLambda,
              if_pos rfl, readLambda]
            simpa [Parsed.expect, Parsed.andThen, Token.tag, isOpening, isArrow, Token.Kind.tag,
              parameters_of_spells listed] using read.map _

theorem reference?_exhausts (named : right.tag = .reference)
    (starts : Starts right.spelling tokens) : (reference? stop tokens).Exhausts := by
  cases right with
  | reference location name =>
      cases starts with
      | nil => exact Parsed.exhausts_end stop []
      | @cons _ _ token _ fits tail =>
          cases tail
          rw [reference?_of_spells named (.cons fits .nil)]
          exact Parsed.exhausts_accepted _
  | _ => cases named

theorem begun_binary {location : Location} (leftWritable : left.Writable)
    (complete : left.endsInBody = false) (takes : operator.Takes right)
    (first : left.Begun stop) (second : right.Begun stop) :
    (Expression.binary location operator left right).Begun stop where
  value single := absurd rfl single
  chain := by
    intro steps tokens starts enough
    rw [spelling] at starts
    rcases starts.append_inv with early | ⟨sign, behind, before, after⟩
    · exact first.chain steps tokens early enough
    · cases after with
      | cons fits operand =>
          have isSign : sign.kind = operator.kind := fits.1
          obtain ⟨others, remaining, read⟩ := (reads_of_writable leftWritable).chain steps tokens _
            before (endsBefore_operator complete isSign behind) enough
          rw [List.length_cons] at remaining
          obtain ⟨others, rfl⟩ := Nat.exists_eq_add_of_le' (by omega : 2 ≤ others)
          have onward (whole : Expression) : (readChain stop (others + 1) whole []).Exhausts := by
            rw [readChain]
            exact Parsed.exhausts_accepted whole
          rw [read, readChain]
          cases operator with
          | pipeline =>
              have value := second.value takes (others + 1) behind operand (by omega)
              simpa only [isSign, Operator.kind] using value.andThen fun _ => onward _
          | assign | mutate =>
              have target : (reference? stop behind).Exhausts := reference?_exhausts takes operand
              simpa only [isSign, Operator.kind] using target.andThen fun _ => onward _

theorem begun_of_writable (writable : expression.Writable) : expression.Begun stop := by
  induction expression with
  | number | string | boolean | reference =>
      exact begun_leaf rfl nofun (reads_of_writable writable) rfl
  | tuple location elements ih =>
      have each := writable_tuple.mp writable
      exact begun_tuple fun element member =>
        ⟨each element member, ih element member (each element member)⟩
  | lambda location names body ih => exact begun_lambda (ih (writable_lambda.mp writable))
  | binary location operator left right leftIH rightIH =>
      obtain ⟨⟨complete, takes⟩, first, second⟩ := writable_binary.mp writable
      exact begun_binary first complete takes (leftIH first) (rightIH second)

theorem readExpression_of_parse_unexpectedEnd {location : Location}
    (failed : parse tokens stop = .error ⟨location, .unexpectedEnd⟩) :
    (readExpression stop (stepsFor tokens) tokens).Starved := by
  rcases parse_eq_error failed with ⟨rest, rejected⟩ | ⟨_, _, _, _, trailing⟩
  · exact ⟨location, rest, rejected⟩
  · cases trailing

/-- Tokens with which a program starts are parsed, or more of them are asked for. -/
theorem parse_of_starts (program : Expression) (writable : program.Writable)
    (starts : Starts program.spelling tokens) (stop : Location) :
    (∃ whole, parse tokens stop = .ok whole) ∨
      ∃ location, parse tokens stop = .error ⟨location, .unexpectedEnd⟩ := by
  have begun : program.Begun stop := begun_of_writable writable
  have exhausts := begun.chain (stepsFor tokens) tokens starts (Nat.le_refl _)
  rcases exhausts with ⟨whole, read⟩ | ⟨location, rest, read⟩
  · exact .inl ⟨whole, parse_of_accepted read⟩
  · exact .inr ⟨location, parse_of_rejected read⟩

theorem parse_of_extended {more : List Token} {last : Location} {program : Expression}
    (parsed : parse (tokens ++ more) last = .ok program) (stop : Location) :
    (∃ whole, parse tokens stop = .ok whole) ∨
      ∃ location, parse tokens stop = .error ⟨location, .unexpectedEnd⟩ := by
  have written := written_of_parse parsed
  exact parse_of_starts program written.writable (written.spells.starts (Nat.zero_le _)) stop

theorem extended_of_unexpectedEnd {location : Location}
    (failed : parse tokens stop = .error ⟨location, .unexpectedEnd⟩) :
    ∃ more program, more ≠ [] ∧ parse (tokens ++ more) stop = .ok program := by
  obtain ⟨kinds, derives⟩ :=
    (readersStart stop _).expression (readExpression_of_parse_unexpectedEnd failed)
  have added : (kinds.map (Token.mk .start)).map Token.kind = kinds := by
    rw [List.map_map]
    exact List.map_id kinds
  have whole : Derives .program ((tokens ++ kinds.map (Token.mk .start)).map Token.kind) := by
    rw [List.map_append, added]
    exact .program derives
  obtain ⟨program, parsed⟩ := parse_of_derives whole stop
  refine ⟨kinds.map (Token.mk .start), program, ?_, parsed⟩
  intro nothing
  rw [nothing, List.append_nil, failed] at parsed
  cases parsed

/-- A parse asks for more tokens exactly when the tokens are no program but are the start of one.
After any other failure no more tokens can help. -/
theorem parse_unexpectedEnd_iff_incomplete (tokens : List Token) (stop : Location) :
    ((∃ location, parse tokens stop = .error ⟨location, .unexpectedEnd⟩) ↔
      (¬ ∃ program, parse tokens stop = .ok program) ∧
        ∃ more last program, more ≠ [] ∧ parse (tokens ++ more) last = .ok program) ∧
    ∀ error, parse tokens stop = .error error → error.cause ≠ .unexpectedEnd →
      ∀ more last, ∃ failure, parse (tokens ++ more) last = .error failure := by
  refine ⟨⟨?_, ?_⟩, ?_⟩
  · rintro ⟨location, failed⟩
    obtain ⟨more, program, some, parsed⟩ := extended_of_unexpectedEnd failed
    refine ⟨?_, more, stop, program, some, parsed⟩
    rintro ⟨whole, accepted⟩
    rw [failed] at accepted
    cases accepted
  · rintro ⟨noProgram, more, last, program, _, parsed⟩
    exact (parse_of_extended parsed stop).resolve_left noProgram
  · intro error failed other more last
    cases extended : parse (tokens ++ more) last with
    | error failure => exact ⟨failure, rfl⟩
    | ok program =>
        rcases parse_of_extended extended stop with ⟨whole, accepted⟩ | ⟨location, starved⟩
        · rw [failed] at accepted
          cases accepted
        · rw [failed] at starved
          cases starved
          exact absurd rfl other

end Expression

end PipeLang
