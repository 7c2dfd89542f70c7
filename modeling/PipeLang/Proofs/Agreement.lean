import PipeLang.Proofs.Descent

namespace PipeLang

/-! # Descents read what the grammar says

A descent on a stream comes to the same answer as the reader of the same name on the tokens that
remain, with the same bound on the number of steps, and leaves the same tokens over.
-/

namespace Stream

/-- Tokens that can be counted, with this position at their end. -/
structure Ready (stop : Location) (stream : Stream) : Prop where
  inside : stream.Inside
  fits : stream.Fits
  ends : stream.stop = stop

variable {stream after : Stream} {stop : Location} {token : Token} {rest : List Token}

theorem Ready.onward (ready : stream.Ready stop) (onward : stream.Onward after) :
    after.Ready stop :=
  ⟨onward.inside, onward.fits ready.fits, onward.stop.trans ready.ends⟩

theorem next_onward (inside : stream.Inside) (ahead : stream.remaining = token :: rest) :
    stream.Onward stream.next := by
  have onward := (advance_consumes inside).1
  rwa [advance_of_cons ahead] at onward

end Stream

namespace Expression

/-- The name at the front of a parameter list. -/
def readName (stop : Location) (tokens : List Token) : Parsed String :=
  (Parsed.expect stop .identifier tokens).andThen fun token rest =>
    match token.kind with
    | .identifier name => .accepted name rest
    | _ => .rejected ⟨token.location, .unexpectedToken .identifier token.tag⟩ rest

theorem parameterNames_eq (stop : Location) (tokens : List Token) :
    parameterNames stop tokens =
      (readName stop tokens).andThen fun first rest =>
        match rest with
        | [] => .rejected ⟨stop, .unexpectedEnd⟩ []
        | token :: others =>
            if token.tag = .comma then (parameterNames stop others).map (first :: ·)
            else (Parsed.expect stop .rightParen (token :: others)).map fun _ => [first] := by
  cases tokens with
  | nil => rfl
  | cons token rest =>
      obtain ⟨location, kind⟩ := token
      cases kind with
      | identifier name =>
          cases rest with
          | nil => rfl
          | cons next others =>
              obtain ⟨place, kind⟩ := next
              cases kind <;> rfl
      | _ => rfl

end Expression

namespace Descent

variable {Phrase First Second : Type}

/-- The answer with the tokens that are left over. -/
def parsed (descent : Descent Phrase) : Parsed Phrase :=
  match descent.answer? with
  | some (.ok phrase) => .accepted phrase descent.after.remaining
  | some (.error error) => .rejected error descent.after.remaining
  | none => .outOfSteps

/-- The descent on the stream came to this outcome, and stayed on the stream. -/
structure Agrees (stream : Stream) (descent : Descent Phrase) (outcome : Parsed Phrase) : Prop where
  onward : stream.Onward descent.after
  parsed : descent.parsed = outcome

variable {stream after : Stream} {stop : Location} {token : Token} {rest : List Token}
  {descent : Descent Phrase} {outcome : Parsed Phrase} {first : Descent First}
  {early : Parsed First}

theorem Agrees.behind (onward : stream.Onward after) (agrees : descent.Agrees after outcome) :
    descent.Agrees stream outcome :=
  ⟨onward.trans agrees.onward, agrees.parsed⟩

theorem Agrees.andThen {next : First → Stream → Descent Second}
    {later : First → List Token → Parsed Second} (ready : stream.Ready stop)
    (agrees : first.Agrees stream early)
    (continues : ∀ phrase after, stream.Onward after → after.Ready stop →
      (next phrase after).Agrees after (later phrase after.remaining)) :
    (first.andThen next).Agrees stream (early.andThen later) := by
  obtain ⟨onward, rfl⟩ := agrees
  obtain ⟨answer?, after, calls⟩ := first
  cases answer? with
  | none => exact ⟨onward, rfl⟩
  | some answer =>
      cases answer with
      | error error => exact ⟨onward, rfl⟩
      | ok phrase =>
          have second := continues phrase after onward (ready.onward onward)
          exact ⟨onward.trans second.onward, second.parsed⟩

theorem ok_agrees (ready : stream.Ready stop) (phrase : Phrase) :
    (answered (.ok phrase) stream).Agrees stream (.accepted phrase stream.remaining) :=
  ⟨.refl ready.inside, rfl⟩

theorem error_agrees (ready : stream.Ready stop) (error : ParseError) :
    (@answered Phrase (.error error) stream).Agrees stream (.rejected error stream.remaining) :=
  ⟨.refl ready.inside, rfl⟩

theorem Agrees.map {build : First → Second} (ready : stream.Ready stop)
    (agrees : first.Agrees stream early) : (first.map build).Agrees stream (early.map build) :=
  agrees.andThen ready fun phrase _ _ ready => ok_agrees ready (build phrase)

theorem Agrees.noting (call : Call) (agrees : descent.Agrees stream outcome) :
    (descent.noting call).Agrees stream outcome :=
  ⟨agrees.onward, agrees.parsed⟩

theorem advance_andThen {next : Token → Stream → Descent Phrase}
    (ahead : stream.remaining = token :: rest) :
    (ofStep stream.advance).andThen next = next token stream.next := by
  rw [Stream.advance_of_cons ahead]
  rfl

theorem expect_agrees (ready : stream.Ready stop) (tag : Token.Tag) :
    (ofStep (stream.expect tag)).Agrees stream (Parsed.expect stop tag stream.remaining) := by
  refine ⟨(Stream.expect_consumes ready.inside tag).1, ?_⟩
  cases ahead : stream.remaining with
  | nil =>
      rw [Stream.expect, Stream.peek_of_nil ready.inside ready.fits ahead, ready.ends,
        Parsed.expect]
      exact congrArg _ ahead
  | cons token rest =>
      rw [Stream.expect, Stream.peek_of_cons ready.inside ready.fits ahead, Parsed.expect]
      dsimp only
      split
      · rw [Stream.advance_of_cons ahead]
        exact congrArg _ (Stream.remaining_next ahead)
      · exact congrArg _ ahead

theorem closing_agrees (ready : stream.Ready stop) (ahead : stream.remaining = token :: rest)
    (closes : token.tag = .rightParen) (phrase : Phrase) :
    ((ofStep (stream.expect .rightParen)).map fun _ => phrase).Agrees stream
      (.accepted phrase rest) := by
  have expected := expect_agrees ready .rightParen
  rw [ahead, Parsed.expect_of_tag closes] at expected
  exact expected.map ready

theorem looking_agrees {reads : Token → Descent Phrase} (ready : stream.Ready stop)
    (ended : stream.remaining = [] → outcome = .rejected ⟨stop, .unexpectedEnd⟩ [])
    (agrees : ∀ token rest, stream.remaining = token :: rest →
      (reads token).Agrees stream outcome) :
    (looking stream reads).Agrees stream outcome := by
  unfold Descent.looking
  cases ahead : stream.remaining with
  | nil =>
      rw [Stream.peek_of_nil ready.inside ready.fits ahead, ended ahead, ready.ends, ← ahead]
      exact error_agrees ready _
  | cons token rest =>
      rw [Stream.peek_of_cons ready.inside ready.fits ahead]
      exact agrees token rest ahead

theorem reference_agrees (ready : stream.Ready stop) :
    (reference stream).Agrees stream (Expression.reference? stop stream.remaining) := by
  refine (expect_agrees ready .identifier).andThen ready fun token after _ ready => ?_
  cases Expression.ofToken token with
  | ok target => exact ok_agrees ready target
  | error error => exact error_agrees ready error

theorem name_agrees (ready : stream.Ready stop) :
    (name stream).Agrees stream (Expression.readName stop stream.remaining) := by
  refine (expect_agrees ready .identifier).andThen ready fun token after _ ready => ?_
  cases token.kind with
  | identifier name => exact ok_agrees ready name
  | _ => exact error_agrees ready _

theorem separated_agrees {Item : Type} {more : Stream → Descent (List Item)}
    {later : List Token → Parsed (List Item)} (item : Item) (ready : stream.Ready stop)
    (agrees : ∀ after, after.remaining.length < stream.remaining.length → after.Ready stop →
      (more after).Agrees after (later after.remaining)) :
    (separated item more stream).Agrees stream
      (match stream.remaining with
        | [] => .rejected ⟨stop, .unexpectedEnd⟩ []
        | token :: others =>
            if token.tag = .comma then (later others).map (item :: ·)
            else (Parsed.expect stop .rightParen (token :: others)).map fun _ => [item]) := by
  refine looking_agrees ready (fun none => by rw [none]) fun token rest ahead => ?_
  rw [ahead]
  dsimp only
  split
  · have onward := Stream.next_onward ready.inside ahead
    have next := ready.onward onward
    have shorter : stream.next.remaining.length < stream.remaining.length :=
      onward.remaining_lt (Nat.lt_succ_self _)
    rw [advance_andThen ahead, ← Stream.remaining_next ahead]
    exact ((agrees stream.next shorter next).map next).behind onward
  · rw [← ahead]
    exact (expect_agrees ready .rightParen).map ready

theorem names_agrees {steps : Nat} (ready : stream.Ready stop)
    (enough : stream.remaining.length < steps) :
    (names steps stream).Agrees stream (Expression.parameterNames stop stream.remaining) := by
  induction steps generalizing stream with
  | zero => exact absurd enough (Nat.not_lt_zero _)
  | succ steps ih =>
      rw [names, Expression.parameterNames_eq]
      refine (name_agrees ready).andThen ready fun first after onward behind => ?_
      have notLonger := onward.remaining_le
      exact separated_agrees first behind fun others shorter rest => ih rest (by omega)

theorem parameters_agrees (ready : stream.Ready stop) :
    (parameters stream).Agrees stream (Expression.parameters stop stream.remaining) := by
  refine looking_agrees ready (fun none => by rw [none]; rfl) fun token rest ahead => ?_
  rw [ahead]
  dsimp only [Expression.parameters]
  split
  next closes => exact closing_agrees ready ahead closes []
  next =>
    rw [← ahead]
    exact names_agrees ready (Nat.lt_succ_self _)

/-- All readers agree with the grammar, with so many steps. -/
structure ReadersAgree (stop : Location) (steps : Nat) : Prop where
  expression (stream : Stream) (ready : stream.Ready stop) :
    (expression steps stream).Agrees stream
      (Expression.readExpression stop steps stream.remaining)
  chain (since : Nat) (left : Expression) (stream : Stream) (ready : stream.Ready stop) :
    (chain since steps left stream).Agrees stream
      (Expression.readChain stop steps left stream.remaining)
  value (since : Nat) (stream : Stream) (ready : stream.Ready stop) :
    (value since steps stream).Agrees stream (Expression.readValue stop steps stream.remaining)
  tuple (since : Nat) (stream : Stream) (ready : stream.Ready stop) :
    (tuple since steps stream).Agrees stream (Expression.readTuple stop steps stream.remaining)
  elements (since : Nat) (stream : Stream) (ready : stream.Ready stop) :
    (elements since steps stream).Agrees stream
      (Expression.readElements stop steps stream.remaining)
  lambda (since : Nat) (stream : Stream) (ready : stream.Ready stop) :
    (lambda since steps stream).Agrees stream (Expression.readLambda stop steps stream.remaining)

namespace ReadersAgree

variable {steps : Nat}

theorem next_expression (readers : ReadersAgree stop steps) (ready : stream.Ready stop) :
    (Descent.expression (steps + 1) stream).Agrees stream
      (Expression.readExpression stop (steps + 1) stream.remaining) := by
  rw [Descent.expression, Expression.readExpression]
  exact (readers.value stream.cursor stream ready).andThen ready fun left after _ ready =>
    readers.chain stream.cursor left after ready

theorem next_chain (readers : ReadersAgree stop steps) (since : Nat) (left : Expression)
    (ready : stream.Ready stop) :
    (Descent.chain since (steps + 1) left stream).Agrees stream
      (Expression.readChain stop (steps + 1) left stream.remaining) := by
  rw [Descent.chain, Stream.peekNth?_one ready.inside ready.fits]
  cases ahead : stream.remaining with
  | nil =>
      have stays := ok_agrees ready left
      rw [ahead] at stays
      exact stays
  | cons token rest =>
      have onward := Stream.next_onward ready.inside ahead
      have next := ready.onward onward
      -- the sign is consumed, then its operand and the rest of the chain are read
      have goesOn {operand : Stream → Descent Expression} {read : List Token → Parsed Expression}
          (operator : Operator)
          (agrees : (operand stream.next).Agrees stream.next (read stream.next.remaining)) :
          ((ofStep stream.advance).andThen fun sign after =>
            (operand after).andThen fun right after =>
              Descent.chain since steps (.binary sign.location operator left right) after).Agrees
            stream
            ((read rest).andThen fun right others =>
              Expression.readChain stop steps (.binary token.location operator left right)
                others) := by
        rw [advance_andThen ahead, ← Stream.remaining_next ahead]
        have extended := agrees.andThen next fun right after _ ready =>
          readers.chain since (.binary token.location operator left right) after ready
        exact extended.behind onward
      have stays := ok_agrees ready left
      have fails := @error_agrees Expression _ _ ready
        ⟨token.location, .invalidExpression token.tag⟩
      rw [ahead] at stays fails
      rw [List.head?_cons, Expression.readChain]
      dsimp only
      cases token.kind with
      | rightParen => exact stays
      | comma => exact stays
      | pipeline => exact goesOn .pipeline (readers.value since stream.next next)
      | assign => exact goesOn .assign (reference_agrees next)
      | mutate => exact goesOn .mutate (reference_agrees next)
      | _ => exact fails

theorem next_value (readers : ReadersAgree stop steps) (since : Nat) (ready : stream.Ready stop) :
    (Descent.value since (steps + 1) stream).Agrees stream
      (Expression.readValue stop (steps + 1) stream.remaining) := by
  rw [Descent.value]
  refine looking_agrees ready (fun none => by rw [none, Expression.readValue])
    fun token rest ahead => ?_
  rw [ahead, Expression.readValue, Stream.arrowAhead_one ready.inside ready.fits, ahead]
  split
  · split
    · rw [← ahead]
      exact readers.lambda since stream ready
    · rw [← ahead]
      exact readers.tuple since stream ready
  · have onward := Stream.next_onward ready.inside ahead
    have next := ready.onward onward
    rw [Stream.value, Stream.advance_of_cons ahead, ← Stream.remaining_next ahead]
    dsimp only
    cases Expression.ofToken token with
    | ok value => exact (ok_agrees next value).behind onward
    | error error => exact (error_agrees next error).behind onward

theorem next_tuple (readers : ReadersAgree stop steps) (since : Nat) (ready : stream.Ready stop) :
    (Descent.tuple since (steps + 1) stream).Agrees stream
      (Expression.readTuple stop (steps + 1) stream.remaining) := by
  rw [Descent.tuple, Expression.readTuple]
  refine (expect_agrees ready .leftParen).andThen ready fun opening after _ ready => ?_
  refine looking_agrees ready (fun none => by rw [none]) fun token rest ahead => ?_
  rw [ahead]
  dsimp only
  split
  next closes => exact closing_agrees ready ahead closes _
  next =>
    rw [← ahead]
    exact (readers.elements since after ready).map ready

theorem next_elements (readers : ReadersAgree stop steps) (since : Nat)
    (ready : stream.Ready stop) :
    (Descent.elements since (steps + 1) stream).Agrees stream
      (Expression.readElements stop (steps + 1) stream.remaining) := by
  rw [Descent.elements, Expression.readElements]
  exact ((readers.expression stream ready).noting _).andThen ready fun element after _ ready =>
    separated_agrees element ready fun others _ ready => readers.elements since others ready

theorem next_lambda (readers : ReadersAgree stop steps) (since : Nat) (ready : stream.Ready stop) :
    (Descent.lambda since (steps + 1) stream).Agrees stream
      (Expression.readLambda stop (steps + 1) stream.remaining) := by
  rw [Descent.lambda, Expression.readLambda]
  refine (expect_agrees ready .leftParen).andThen ready fun opening after _ ready => ?_
  refine (parameters_agrees ready).andThen ready fun parameters after _ ready => ?_
  refine (expect_agrees ready .arrow).andThen ready fun _ after _ ready => ?_
  exact ((readers.expression after ready).noting _).map ready

end ReadersAgree

theorem readersAgree (stop : Location) (steps : Nat) : ReadersAgree stop steps := by
  induction steps with
  | zero => constructor <;> intros <;> exact ⟨.refl ‹Stream.Ready stop _›.inside, rfl⟩
  | succ steps ih =>
      exact ⟨fun _ => ih.next_expression, fun since left _ => ih.next_chain since left,
        fun since _ => ih.next_value since, fun since _ => ih.next_tuple since,
        fun since _ => ih.next_elements since, fun since _ => ih.next_lambda since⟩

end Descent

end PipeLang
