import PipeLang.Proofs.Agreement

namespace PipeLang

/-! # Progress

Every reader comes to an answer on every stream whose cursor is not past the end, in a number of
steps that the remaining tokens bound, and the answer does not depend on the bound. Therefore a
stream never gets past its end, whatever it is used for, and every parse ends.
-/

namespace Descent

variable {Phrase First Second : Type} {stream : Stream}

/-- The second descent is the first one, unless that ran out of steps. -/
def Below (first second : Descent Phrase) : Prop :=
  first.answer? = none ∨ second = first

theorem Below.refl (descent : Descent Phrase) : descent.Below descent := .inr rfl

theorem Below.eq {first second : Descent Phrase} (below : first.Below second)
    (answered : first.answer? ≠ none) : second = first :=
  below.resolve_left answered

theorem Below.andThen {first second : Descent First} {next later : First → Stream → Descent Second}
    (below : first.Below second)
    (continues : ∀ phrase after, (next phrase after).Below (later phrase after)) :
    (first.andThen next).Below (second.andThen later) := by
  obtain ⟨answer?, after, calls⟩ := first
  rcases below with none | rfl
  · cases none
    exact .inl rfl
  · cases answer? with
    | none => exact .inl rfl
    | some answer =>
        cases answer with
        | error error => exact .inr rfl
        | ok phrase =>
            rcases continues phrase after with none | same
            · exact .inl none
            · right
              simp only [Descent.andThen, same]

theorem Below.map {first second : Descent First} (build : First → Second)
    (below : first.Below second) : (first.map build).Below (second.map build) :=
  below.andThen fun _ _ => .refl _

theorem Below.noting {first second : Descent Phrase} (call : Call) (below : first.Below second) :
    (first.noting call).Below (second.noting call) := by
  rcases below with none | rfl
  · exact .inl none
  · exact .refl _

theorem Below.looking {reads rereads : Token → Descent Phrase}
    (below : ∀ token, (reads token).Below (rereads token)) :
    (looking stream reads).Below (looking stream rereads) := by
  unfold Descent.looking
  split
  next token _ => exact below token
  next => exact .refl _

theorem Below.separated {Item : Type} {more others : Stream → Descent (List Item)} (item : Item)
    (below : ∀ after, (more after).Below (others after)) :
    (separated item more stream).Below (separated item others stream) := by
  refine Below.looking fun token => ?_
  split
  · exact (Below.refl _).andThen fun _ after => (below after).map _
  · exact .refl _

/-- All readers give every answer that they give with fewer steps. -/
structure ReadersGrow (steps more : Nat) : Prop where
  expression (stream : Stream) : (expression steps stream).Below (expression more stream)
  chain (since : Nat) (left : Expression) (stream : Stream) :
    (chain since steps left stream).Below (chain since more left stream)
  value (since : Nat) (stream : Stream) : (value since steps stream).Below (value since more stream)
  tuple (since : Nat) (stream : Stream) : (tuple since steps stream).Below (tuple since more stream)
  elements (since : Nat) (stream : Stream) :
    (elements since steps stream).Below (elements since more stream)
  lambda (since : Nat) (stream : Stream) :
    (lambda since steps stream).Below (lambda since more stream)

namespace ReadersGrow

variable {steps more since : Nat}

theorem next_chain (readers : ReadersGrow steps more) (left : Expression) :
    (Descent.chain since (steps + 1) left stream).Below
      (Descent.chain since (more + 1) left stream) := by
  rw [Descent.chain, Descent.chain]
  split
  · exact .refl _
  · split
    · exact .refl _
    · exact .refl _
    · exact (Below.refl _).andThen fun sign after =>
        (readers.value since after).andThen fun right after => readers.chain since _ after
    · exact (Below.refl _).andThen fun sign after =>
        (Below.refl _).andThen fun right after => readers.chain since _ after
    · exact (Below.refl _).andThen fun sign after =>
        (Below.refl _).andThen fun right after => readers.chain since _ after
    · exact .refl _

theorem next_value (readers : ReadersGrow steps more) :
    (Descent.value since (steps + 1) stream).Below (Descent.value since (more + 1) stream) := by
  rw [Descent.value, Descent.value]
  refine Below.looking fun token => ?_
  split
  · split
    · exact readers.lambda since stream
    · exact readers.tuple since stream
  · exact .refl _

theorem next_tuple (readers : ReadersGrow steps more) :
    (Descent.tuple since (steps + 1) stream).Below (Descent.tuple since (more + 1) stream) := by
  rw [Descent.tuple, Descent.tuple]
  refine (Below.refl _).andThen fun opening after => Below.looking fun token => ?_
  split
  · exact .refl _
  · exact (readers.elements since after).map _

theorem next_elements (readers : ReadersGrow steps more) :
    (Descent.elements since (steps + 1) stream).Below
      (Descent.elements since (more + 1) stream) := by
  rw [Descent.elements, Descent.elements]
  exact ((readers.expression stream).noting _).andThen fun element after =>
    Below.separated element (readers.elements since)

theorem next_lambda (readers : ReadersGrow steps more) :
    (Descent.lambda since (steps + 1) stream).Below (Descent.lambda since (more + 1) stream) := by
  rw [Descent.lambda, Descent.lambda]
  exact (Below.refl _).andThen fun opening after =>
    (Below.refl _).andThen fun parameters after =>
      (Below.refl _).andThen fun _ after => ((readers.expression after).noting _).map _

end ReadersGrow

theorem readersGrow {steps more : Nat} (le : steps ≤ more) : ReadersGrow steps more := by
  induction steps generalizing more with
  | zero => constructor <;> intros <;> exact .inl rfl
  | succ steps ih =>
      cases more with
      | zero => exact absurd le (Nat.not_succ_le_zero steps)
      | succ more =>
          have readers := ih (Nat.le_of_succ_le_succ le)
          have expressions (stream : Stream) :
              (expression (steps + 1) stream).Below (expression (more + 1) stream) := by
            rw [expression, expression]
            exact (readers.value _ stream).andThen fun left after => readers.chain _ left after
          exact ⟨expressions, fun _ left _ => readers.next_chain left,
            fun _ _ => readers.next_value, fun _ _ => readers.next_tuple,
            fun _ _ => readers.next_elements, fun _ _ => readers.next_lambda⟩

/-- A whole program, behind which no token may be left. -/
def program (steps : Nat) (stream : Stream) : Descent Expression :=
  (expression steps stream).andThen fun program after =>
    match after.peekNth? 1 with
    | none => answered (.ok program) after
    | some token => answered (.error ⟨token.location, .trailingToken token.tag⟩) after

end Descent

/-- The readers of whole phrases. -/
inductive Reader where
  | expression
  | value
  | tuple
  | lambda

namespace Reader

/-- The reader on the tokens that remain. -/
def read (stop : Location) (steps : Nat) (tokens : List Token) : Reader → Parsed Expression
  | .expression => Expression.readExpression stop steps tokens
  | .value => Expression.readValue stop steps tokens
  | .tuple => Expression.readTuple stop steps tokens
  | .lambda => Expression.readLambda stop steps tokens

/-- The reader on a stream, for an expression that begins at the cursor. -/
def descend (steps : Nat) (stream : Stream) : Reader → Descent Expression
  | .expression => .expression steps stream
  | .value => .value stream.cursor steps stream
  | .tuple => .tuple stream.cursor steps stream
  | .lambda => .lambda stream.cursor steps stream

variable {stream : Stream} {steps more : Nat}

theorem descend_advances (reader : Reader) (inside : stream.Inside)
    (enough : Expression.stepsFor stream.remaining ≤ steps) :
    (reader.descend steps stream).Advances stream := by
  have readers := Descent.readersAdvance steps
  have here := Nat.le_refl stream.cursor
  unfold Expression.stepsFor at enough
  cases reader with
  | expression => exact readers.expression stream inside enough
  | value => exact readers.value _ stream inside here (by omega)
  | tuple => exact readers.tuple _ stream inside here (by omega)
  | lambda => exact readers.lambda _ stream inside here (by omega)

theorem descend_below (reader : Reader) (le : steps ≤ more) :
    (reader.descend steps stream).Below (reader.descend more stream) := by
  have readers := Descent.readersGrow le
  cases reader with
  | expression => exact readers.expression stream
  | value => exact readers.value _ stream
  | tuple => exact readers.tuple _ stream
  | lambda => exact readers.lambda _ stream

theorem descend_eq (reader : Reader) (inside : stream.Inside)
    (enough : Expression.stepsFor stream.remaining ≤ steps) :
    reader.descend steps stream = reader.descend (Expression.stepsFor stream.remaining) stream :=
  (reader.descend_below enough).eq (reader.descend_advances inside (Nat.le_refl _)).answered

theorem parsed_descend (reader : Reader) (inside : stream.Inside) (fits : stream.Fits)
    (steps : Nat) :
    (reader.descend steps stream).parsed = reader.read stream.stop steps stream.remaining := by
  have readers := Descent.readersAgree stream.stop steps
  have ready : stream.Ready stream.stop := ⟨inside, fits, rfl⟩
  cases reader with
  | expression => exact (readers.expression stream ready).parsed
  | value => exact (readers.value _ stream ready).parsed
  | tuple => exact (readers.tuple _ stream ready).parsed
  | lambda => exact (readers.lambda _ stream ready).parsed

end Reader

namespace Descent

variable {stream : Stream} {steps : Nat}

theorem program_advances (inside : stream.Inside)
    (enough : Expression.stepsFor stream.remaining ≤ steps) :
    (program steps stream).Advances stream := by
  have expression := (readersAdvance steps).expression stream inside enough
  refine expression.andThen fun _ _ onward _ => ?_
  split
  · exact within_answered onward.inside _
  · exact within_answered onward.inside _

theorem program_eq (inside : stream.Inside)
    (enough : Expression.stepsFor stream.remaining ≤ steps) :
    program steps stream = program (Expression.stepsFor stream.remaining) stream := by
  have same : expression steps stream = expression (Expression.stepsFor stream.remaining) stream :=
    Reader.descend_eq .expression inside enough
  rw [program, same, program]

/-- On a stream the whole program is what a parse of the remaining tokens gives. -/
theorem program_parses (inside : stream.Inside) (fits : stream.Fits) :
    (program (Expression.stepsFor stream.remaining) stream).answer? = some stream.parse := by
  have enough := Nat.le_refl (Expression.stepsFor stream.remaining)
  have advances := (readersAdvance _).expression stream inside enough
  have read : (expression (Expression.stepsFor stream.remaining) stream).parsed =
      Expression.readExpression stream.stop (Expression.stepsFor stream.remaining)
        stream.remaining :=
    Reader.parsed_descend .expression inside fits _
  rw [program, Stream.parse]
  generalize expression (Expression.stepsFor stream.remaining) stream = descent at *
  obtain ⟨answer?, after, calls⟩ := descent
  have onward : stream.Onward after := advances.onward
  match answer? with
  | none => exact absurd rfl advances.answered
  | some (.error error) => rw [Expression.parse_of_rejected read.symm]; rfl
  | some (.ok phrase) =>
      have next := Stream.peekNth?_one onward.inside (onward.fits fits)
      replace read : Parsed.accepted phrase after.remaining = _ := read
      cases ahead : after.remaining with
      | nil =>
          rw [ahead] at read next
          rw [Expression.parse_of_accepted read.symm]
          simp [andThen, next, answered]
      | cons token rest =>
          rw [ahead] at read next
          rw [Expression.parse_of_trailing read.symm]
          simp [andThen, next, answered]

end Descent

namespace Stream

/-- What a stream can be used for. -/
inductive Use where
  | lookAhead (count : UInt64)
  | peek
  | move (move : Move)
  | value
  | read (reader : Reader)
  | parse

/-- The stream after a use, whether or not it failed. -/
def use (stream : Stream) : Use → Stream
  | .lookAhead _ => stream
  | .peek => stream
  | .move move => stream.move move
  | .value => stream.value.2
  | .read reader => (reader.descend (Expression.stepsFor stream.remaining) stream).after
  | .parse => (Descent.program (Expression.stepsFor stream.remaining) stream).after

variable {stream : Stream}

theorem use_onward (inside : stream.Inside) (use : Use) : stream.Onward (stream.use use) := by
  have enough := Nat.le_refl (Expression.stepsFor stream.remaining)
  cases use with
  | lookAhead count => exact .refl inside
  | peek => exact .refl inside
  | move move => exact move_onward inside move
  | value => exact (value_consumes inside).1
  | read reader => exact (reader.descend_advances inside enough).onward
  | parse => exact (Descent.program_advances inside enough).onward

theorem uses_onward (inside : stream.Inside) (uses : List Use) :
    stream.Onward (uses.foldl use stream) :=
  Onward.foldl (fun _ step inside => use_onward inside step) inside uses

/-- Every reader comes to an answer, onward on the stream, and so does a whole program. What they
come to is what the grammar and a parse make of the remaining tokens. No use gets a stream past the
end of its tokens. -/
theorem readers_progress :
    (∀ (reader : Reader) (stream : Stream), stream.Inside →
      ∃ descent : Descent Expression, descent.Advances stream ∧
        ∀ steps, Expression.stepsFor stream.remaining ≤ steps →
          reader.descend steps stream = descent ∧
            (stream.Fits → reader.read stream.stop steps stream.remaining = descent.parsed)) ∧
    (∀ stream : Stream, stream.Inside →
      ∃ descent : Descent Expression, descent.Advances stream ∧
        (∀ steps, Expression.stepsFor stream.remaining ≤ steps →
          Descent.program steps stream = descent) ∧
        (stream.Fits → descent.answer? = some stream.parse)) ∧
    ∀ (uses : List Use) (stream : Stream), stream.Inside →
      let after := uses.foldl use stream
      stream.Onward after ∧ after.cursor + after.remaining.length = stream.tokens.length := by
  refine ⟨fun reader stream inside => ?_, fun stream inside => ?_, fun uses stream inside => ?_⟩
  · have enough := Nat.le_refl (Expression.stepsFor stream.remaining)
    refine ⟨_, reader.descend_advances inside enough, fun steps more => ?_⟩
    have same := reader.descend_eq inside more
    refine ⟨same, fun fits => ?_⟩
    rw [← same, reader.parsed_descend inside fits]
  · have enough := Nat.le_refl (Expression.stepsFor stream.remaining)
    exact ⟨_, Descent.program_advances inside enough, fun steps => Descent.program_eq inside,
      Descent.program_parses inside⟩
  · have onward := uses_onward inside uses
    refine ⟨onward, ?_⟩
    rw [length_remaining, ← onward.tokens]
    exact Nat.add_sub_cancel' onward.inside

theorem readers_progress_unclosed :
    let stream : Stream := ⟨[⟨⟨1, 1⟩, .leftParen⟩, ⟨⟨1, 2⟩, .identifier "a"⟩], 0, ⟨1, 3⟩⟩
    stream.Inside ∧ stream.Fits ∧
      ∃ descent : Descent Expression, descent.Advances stream ∧
        Reader.expression.descend 11 stream = descent ∧
        descent.parsed = .rejected ⟨⟨1, 3⟩, .unexpectedEnd⟩ [] := by
  intro stream
  have inside : stream.Inside := Nat.zero_le _
  have fits : stream.Fits := show 2 < UInt64.size by decide
  obtain ⟨descent, advances, settled⟩ := readers_progress.1 .expression stream inside
  obtain ⟨same, reads⟩ := settled 11 (by decide)
  exact ⟨inside, fits, descent, advances, same, (reads fits).symm⟩

end Stream

end PipeLang
