import PipeLang.Proofs.Lookahead

namespace PipeLang

/-! # Descents

The readers of the grammar at work on a stream. They look at tokens by their places, consume them
one by one, and stop at the first step that fails. Each call to the reader of expressions from
within a group or a body is noted, so that a descent tells at which cursor which call was made.
-/

/-- A call to the reader of expressions: where the expression or phrase began that makes it, and
where the called reader starts. -/
structure Call where
  since : Nat
  start : Nat

/-- What reading a phrase came to. There is no answer if the bound on the number of steps was too
small. -/
structure Descent (Phrase : Type) where
  answer? : Option (Except ParseError Phrase)
  after : Stream
  calls : List Call

namespace Descent

variable {Phrase First Second : Type}

def answered (answer : Except ParseError Phrase) (after : Stream) : Descent Phrase :=
  ⟨some answer, after, []⟩

def outOfSteps (stream : Stream) : Descent Phrase :=
  ⟨none, stream, []⟩

/-- A single step on the stream. -/
def ofStep (step : Except ParseError Phrase × Stream) : Descent Phrase :=
  answered step.1 step.2

/-- Goes on behind a phrase that was read. -/
def andThen (first : Descent First) (next : First → Stream → Descent Second) : Descent Second :=
  match first.answer? with
  | some (.ok phrase) =>
      let second := next phrase first.after
      ⟨second.answer?, second.after, first.calls ++ second.calls⟩
  | some (.error error) => ⟨some (.error error), first.after, first.calls⟩
  | none => ⟨none, first.after, first.calls⟩

/-- Builds another phrase from one that was read. -/
def map (build : First → Second) (first : Descent First) : Descent Second :=
  first.andThen fun phrase after => answered (.ok (build phrase)) after

/-- Notes the call that a descent comes from. -/
def noting (call : Call) (descent : Descent Phrase) : Descent Phrase :=
  { descent with calls := call :: descent.calls }

/-- Looks at the next token, which has to exist. -/
def looking (stream : Stream) (next : Token → Descent Phrase) : Descent Phrase :=
  match stream.peek with
  | .ok token => next token
  | .error error => answered (.error error) stream

/-- The target of an assignment. -/
def reference (stream : Stream) : Descent Expression :=
  (ofStep (stream.expect .identifier)).andThen fun token after =>
    answered (Expression.ofToken token) after

def name (stream : Stream) : Descent String :=
  (ofStep (stream.expect .identifier)).andThen fun token after =>
    match token.kind with
    | .identifier name => answered (.ok name) after
    | _ => answered (.error ⟨token.location, .unexpectedToken .identifier token.tag⟩) after

/-- What can stand behind an item of a list: a comma and more items, or a closing parenthesis. -/
def separated {Item : Type} (item : Item) (more : Stream → Descent (List Item)) (stream : Stream) :
    Descent (List Item) :=
  looking stream fun token =>
    if token.tag = .comma then
      (ofStep stream.advance).andThen fun _ after => (more after).map (item :: ·)
    else (ofStep (stream.expect .rightParen)).map fun _ => [item]

/-- The names of a parameter list that is not empty, with the closing parenthesis. -/
def names : Nat → Stream → Descent (List String)
  | 0, stream => outOfSteps stream
  | steps + 1, stream =>
      (name stream).andThen fun first after => separated first (names steps) after

/-- A parameter list behind its opening parenthesis. -/
def parameters (stream : Stream) : Descent (List String) :=
  looking stream fun token =>
    if token.tag = .rightParen then (ofStep (stream.expect .rightParen)).map fun _ => []
    else names (stream.remaining.length + 1) stream

mutual

def expression : Nat → Stream → Descent Expression
  | 0, stream => outOfSteps stream
  | steps + 1, stream =>
      (value stream.cursor steps stream).andThen fun left after =>
        chain stream.cursor steps left after
termination_by structural steps => steps

/-- The operators behind a left operand of an expression that began at the given cursor. -/
def chain (since : Nat) : Nat → Expression → Stream → Descent Expression
  | 0, _, stream => outOfSteps stream
  | steps + 1, left, stream =>
      match stream.peekNth? 1 with
      | none => answered (.ok left) stream
      | some token =>
          match token.kind with
          | .rightParen => answered (.ok left) stream
          | .comma => answered (.ok left) stream
          | .pipeline =>
              (ofStep stream.advance).andThen fun sign after =>
                (value since steps after).andThen fun right after =>
                  chain since steps (.binary sign.location .pipeline left right) after
          | .assign =>
              (ofStep stream.advance).andThen fun sign after =>
                (reference after).andThen fun right after =>
                  chain since steps (.binary sign.location .assign left right) after
          | .mutate =>
              (ofStep stream.advance).andThen fun sign after =>
                (reference after).andThen fun right after =>
                  chain since steps (.binary sign.location .mutate left right) after
          | _ => answered (.error ⟨token.location, .invalidExpression token.tag⟩) stream
termination_by structural steps => steps

/-- A value within an expression that began at the given cursor. -/
def value (since : Nat) : Nat → Stream → Descent Expression
  | 0, stream => outOfSteps stream
  | steps + 1, stream =>
      looking stream fun token =>
        if token.tag = .leftParen then
          if stream.arrowAhead 0 1 then lambda since steps stream else tuple since steps stream
        else ofStep stream.value
termination_by structural steps => steps

def tuple (since : Nat) : Nat → Stream → Descent Expression
  | 0, stream => outOfSteps stream
  | steps + 1, stream =>
      (ofStep (stream.expect .leftParen)).andThen fun opening after =>
        looking after fun token =>
          if token.tag = .rightParen then
            (ofStep (after.expect .rightParen)).map fun _ => .tuple opening.location []
          else (elements since steps after).map (.tuple opening.location)
termination_by structural steps => steps

/-- The elements of a tuple that has some, with the closing parenthesis. -/
def elements (since : Nat) : Nat → Stream → Descent (List Expression)
  | 0, stream => outOfSteps stream
  | steps + 1, stream =>
      ((expression steps stream).noting ⟨since, stream.cursor⟩).andThen fun element after =>
        separated element (elements since steps) after
termination_by structural steps => steps

def lambda (since : Nat) : Nat → Stream → Descent Expression
  | 0, stream => outOfSteps stream
  | steps + 1, stream =>
      (ofStep (stream.expect .leftParen)).andThen fun opening after =>
        (parameters after).andThen fun parameters after =>
          (ofStep (after.expect .arrow)).andThen fun _ after =>
            ((expression steps after).noting ⟨since, after.cursor⟩).map
              (.lambda opening.location parameters)
termination_by structural steps => steps

end

/-- The descent came to an answer further on, or where it began, and each call was made behind the
beginning of the expression that made it. -/
structure Within (stream : Stream) (descent : Descent Phrase) : Prop where
  answered : descent.answer? ≠ none
  onward : stream.Onward descent.after
  calls : ∀ call ∈ descent.calls, call.since < call.start

/-- Besides that, a phrase that was read has at least one token. -/
structure Advances (stream : Stream) (descent : Descent Phrase) : Prop
    extends Within stream descent where
  moved : ∀ phrase, descent.answer? = some (.ok phrase) → stream.cursor < descent.after.cursor

variable {stream : Stream} {descent : Descent Phrase} {first : Descent First}
  {next : First → Stream → Descent Second}

theorem within_answered (inside : stream.Inside) (answer : Except ParseError Phrase) :
    (answered answer stream).Within stream :=
  ⟨nofun, .refl inside, nofun⟩

theorem ofStep_advances {step : Except ParseError Phrase × Stream}
    (consumes : stream.Consumes step) : (ofStep step).Advances stream where
  answered := nofun
  onward := consumes.1
  calls := nofun
  moved phrase ok := consumes.2 phrase (Option.some.inj ok)

theorem expect_advances (inside : stream.Inside) (tag : Token.Tag) :
    (ofStep (stream.expect tag)).Advances stream :=
  ofStep_advances (Stream.expect_consumes inside tag)

theorem advance_advances (inside : stream.Inside) : (ofStep stream.advance).Advances stream :=
  ofStep_advances (Stream.advance_consumes inside)

/-- A first phrase that advances needs nothing more of the phrase behind it than to stay within the
tokens that are left. -/
theorem Advances.andThen (advances : first.Advances stream)
    (continues : ∀ phrase after, stream.Onward after → stream.cursor < after.cursor →
      (next phrase after).Within after) :
    (first.andThen next).Advances stream := by
  obtain ⟨answer?, after, calls⟩ := first
  cases answer? with
  | none => exact absurd rfl advances.answered
  | some answer =>
      cases answer with
      | error error => exact ⟨⟨nofun, advances.onward, advances.calls⟩, nofun⟩
      | ok phrase =>
          have moved : stream.cursor < after.cursor := advances.moved phrase rfl
          have within := continues phrase after advances.onward moved
          refine ⟨⟨within.answered, advances.onward.trans within.onward, ?_⟩, fun _ _ => ?_⟩
          · intro call noted
            rcases List.mem_append.mp noted with early | late
            · exact advances.calls call early
            · exact within.calls call late
          · exact Nat.lt_of_lt_of_le moved within.onward.forward

theorem Advances.map (build : First → Second) (advances : first.Advances stream) :
    (first.map build).Advances stream :=
  advances.andThen fun phrase _ onward _ => within_answered onward.inside (.ok (build phrase))

theorem Advances.noting {call : Call} (made : call.since < call.start)
    (advances : descent.Advances stream) : (descent.noting call).Advances stream :=
  ⟨⟨advances.answered, advances.onward, List.forall_mem_cons.mpr ⟨made, advances.calls⟩⟩,
    advances.moved⟩

theorem Advances.looking {reads : Token → Descent Phrase} (inside : stream.Inside)
    (advances : ∀ token, (reads token).Advances stream) :
    (looking stream reads).Advances stream := by
  unfold Descent.looking
  split
  next token _ => exact advances token
  next => exact ⟨within_answered inside _, nofun⟩

theorem reference_advances (inside : stream.Inside) : (reference stream).Advances stream :=
  (expect_advances inside _).andThen fun _ _ onward _ => within_answered onward.inside _

theorem name_advances (inside : stream.Inside) : (name stream).Advances stream := by
  refine (expect_advances inside _).andThen fun token after onward _ => ?_
  split
  · exact within_answered onward.inside _
  · exact within_answered onward.inside _

theorem closing_advances (inside : stream.Inside) (phrase : Phrase) :
    ((ofStep (stream.expect .rightParen)).map fun _ => phrase).Advances stream :=
  (expect_advances inside _).map _

theorem separated_advances {Item : Type} {more : Stream → Descent (List Item)} (item : Item)
    (inside : stream.Inside)
    (advances : ∀ after, stream.Onward after → (more after).Advances after) :
    (separated item more stream).Advances stream := by
  refine Advances.looking inside fun token => ?_
  split
  · exact (advance_advances inside).andThen fun _ after onward _ =>
      ((advances after onward).map _).toWithin
  · exact closing_advances inside _

theorem names_advances {steps : Nat} (inside : stream.Inside)
    (enough : stream.remaining.length < steps) : (names steps stream).Advances stream := by
  induction steps generalizing stream with
  | zero => exact absurd enough (Nat.not_lt_zero _)
  | succ steps ih =>
      rw [names]
      refine (name_advances inside).andThen fun first after onward moved => ?_
      have shorter := onward.remaining_lt moved
      refine (separated_advances first onward.inside fun others further => ?_).toWithin
      have notLonger := further.remaining_le
      exact ih further.inside (by omega)

theorem parameters_advances (inside : stream.Inside) : (parameters stream).Advances stream := by
  refine Advances.looking inside fun token => ?_
  split
  · exact closing_advances inside _
  · exact names_advances inside (Nat.lt_succ_self _)

/-- With so many steps all readers come to an answer, and what they keep. A reader that consumes a
token before it calls that of expressions may have begun where the expression did. -/
structure ReadersAdvance (steps : Nat) : Prop where
  expression (stream : Stream) (inside : stream.Inside)
    (enough : 4 * stream.remaining.length + 3 ≤ steps) : (expression steps stream).Advances stream
  chain (since : Nat) (left : Expression) (stream : Stream) (inside : stream.Inside)
    (began : since ≤ stream.cursor) (enough : 4 * stream.remaining.length + 1 ≤ steps) :
    (chain since steps left stream).Within stream
  value (since : Nat) (stream : Stream) (inside : stream.Inside) (began : since ≤ stream.cursor)
    (enough : 4 * stream.remaining.length + 2 ≤ steps) : (value since steps stream).Advances stream
  tuple (since : Nat) (stream : Stream) (inside : stream.Inside) (began : since ≤ stream.cursor)
    (enough : 4 * stream.remaining.length + 1 ≤ steps) : (tuple since steps stream).Advances stream
  elements (since : Nat) (stream : Stream) (inside : stream.Inside) (began : since < stream.cursor)
    (enough : 4 * stream.remaining.length + 4 ≤ steps) :
    (elements since steps stream).Advances stream
  lambda (since : Nat) (stream : Stream) (inside : stream.Inside) (began : since ≤ stream.cursor)
    (enough : 4 * stream.remaining.length + 1 ≤ steps) : (lambda since steps stream).Advances stream

namespace ReadersAdvance

variable {steps since : Nat}

theorem next_expression (readers : ReadersAdvance steps) (inside : stream.Inside)
    (enough : 4 * stream.remaining.length + 3 ≤ steps + 1) :
    (Descent.expression (steps + 1) stream).Advances stream := by
  rw [Descent.expression]
  refine (readers.value stream.cursor stream inside (Nat.le_refl _) (by omega)).andThen
    fun left after onward moved => ?_
  have shorter := onward.remaining_lt moved
  exact readers.chain stream.cursor left after onward.inside onward.forward (by omega)

theorem next_chain (readers : ReadersAdvance steps) (left : Expression) (inside : stream.Inside)
    (began : since ≤ stream.cursor) (enough : 4 * stream.remaining.length + 1 ≤ steps + 1) :
    (Descent.chain since (steps + 1) left stream).Within stream := by
  -- behind a sign there is an operand, whatever it is, and then the rest of the chain
  have goesOn (operand : Stream → Descent Expression) (operator : Operator)
      (reads : ∀ after, stream.Onward after → stream.cursor < after.cursor →
        (operand after).Advances after) :
      ((ofStep stream.advance).andThen fun sign after =>
        (operand after).andThen fun right after =>
          Descent.chain since steps (.binary sign.location operator left right) after).Within
        stream := by
    refine ((advance_advances inside).andThen fun sign after onward moved => ?_).toWithin
    refine ((reads after onward moved).andThen fun right others further _ => ?_).toWithin
    have shorter := onward.remaining_lt moved
    have notLonger := further.remaining_le
    exact readers.chain since _ others further.inside
      (Nat.le_trans began (Nat.le_trans onward.forward further.forward)) (by omega)
  rw [Descent.chain]
  split
  · exact within_answered inside _
  · split
    · exact within_answered inside _
    · exact within_answered inside _
    · refine goesOn (Descent.value since steps) .pipeline fun after onward moved => ?_
      have shorter := onward.remaining_lt moved
      exact readers.value since after onward.inside (Nat.le_trans began onward.forward) (by omega)
    · exact goesOn reference .assign fun after onward _ => reference_advances onward.inside
    · exact goesOn reference .mutate fun after onward _ => reference_advances onward.inside
    · exact within_answered inside _

theorem next_value (readers : ReadersAdvance steps) (inside : stream.Inside)
    (began : since ≤ stream.cursor) (enough : 4 * stream.remaining.length + 2 ≤ steps + 1) :
    (Descent.value since (steps + 1) stream).Advances stream := by
  rw [Descent.value]
  refine Advances.looking inside fun token => ?_
  split
  · split
    · exact readers.lambda since stream inside began (by omega)
    · exact readers.tuple since stream inside began (by omega)
  · exact ofStep_advances (Stream.value_consumes inside)

theorem next_tuple (readers : ReadersAdvance steps) (inside : stream.Inside)
    (began : since ≤ stream.cursor) (enough : 4 * stream.remaining.length + 1 ≤ steps + 1) :
    (Descent.tuple since (steps + 1) stream).Advances stream := by
  rw [Descent.tuple]
  refine (expect_advances inside _).andThen fun opening after onward moved => ?_
  have shorter := onward.remaining_lt moved
  refine (Advances.looking onward.inside fun token => ?_).toWithin
  split
  · exact closing_advances onward.inside _
  · exact (readers.elements since after onward.inside (Nat.lt_of_le_of_lt began moved)
      (by omega)).map _

theorem next_elements (readers : ReadersAdvance steps) (inside : stream.Inside)
    (began : since < stream.cursor) (enough : 4 * stream.remaining.length + 4 ≤ steps + 1) :
    (Descent.elements since (steps + 1) stream).Advances stream := by
  rw [Descent.elements]
  have element := readers.expression stream inside (by omega)
  refine (element.noting began).andThen fun element after onward moved => ?_
  have shorter := onward.remaining_lt moved
  refine (separated_advances element onward.inside fun others further => ?_).toWithin
  have notLonger := further.remaining_le
  exact readers.elements since others further.inside
    (Nat.lt_of_lt_of_le began (onward.trans further).forward) (by omega)

theorem next_lambda (readers : ReadersAdvance steps) (inside : stream.Inside)
    (began : since ≤ stream.cursor) (enough : 4 * stream.remaining.length + 1 ≤ steps + 1) :
    (Descent.lambda since (steps + 1) stream).Advances stream := by
  rw [Descent.lambda]
  refine (expect_advances inside _).andThen fun opening after onward moved => ?_
  have parameters := parameters_advances onward.inside
  refine (parameters.andThen fun _ behind further _ => ?_).toWithin
  refine ((expect_advances further.inside _).andThen fun _ body last _ => ?_).toWithin
  have shorter := onward.remaining_lt moved
  have notLonger := (further.trans last).remaining_le
  have made : since < body.cursor :=
    Nat.lt_of_lt_of_le (Nat.lt_of_le_of_lt began moved) (further.trans last).forward
  exact (((readers.expression body last.inside (by omega)).noting made).map _).toWithin

end ReadersAdvance

theorem readersAdvance (steps : Nat) : ReadersAdvance steps := by
  induction steps with
  | zero => constructor <;> intros <;> omega
  | succ steps ih =>
      exact ⟨fun _ => ih.next_expression, fun _ left _ => ih.next_chain left,
        fun _ _ => ih.next_value, fun _ _ => ih.next_tuple, fun _ _ => ih.next_elements,
        fun _ _ => ih.next_lambda⟩

end Descent

end PipeLang
