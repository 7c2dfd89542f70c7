import PipeLang.Stream

namespace PipeLang.Stream

/-! # The cursor of a stream

Nothing that can be asked of a stream changes its tokens. The cursor only moves forward, and it
never moves past the end.
-/

/-- The cursor is not past the end of the tokens. -/
def Inside (stream : Stream) : Prop :=
  stream.cursor ≤ stream.tokens.length

/-- The tokens can be counted in 64 bits. -/
def Fits (stream : Stream) : Prop :=
  stream.tokens.length < UInt64.size

/-- The same stream further on, or where it was. -/
structure Onward (stream after : Stream) : Prop where
  tokens : after.tokens = stream.tokens
  stop : after.stop = stream.stop
  forward : stream.cursor ≤ after.cursor
  inside : after.Inside

variable {stream middle after : Stream} {token : Token} {rest : List Token} {Phrase : Type}

theorem ofTokens_inside (tokens : List Token) (stop : Location) : (ofTokens tokens stop).Inside :=
  Nat.zero_le _

theorem Onward.refl (inside : stream.Inside) : stream.Onward stream :=
  ⟨rfl, rfl, Nat.le_refl _, inside⟩

theorem Onward.trans (first : stream.Onward middle) (second : middle.Onward after) :
    stream.Onward after :=
  ⟨second.tokens.trans first.tokens, second.stop.trans first.stop,
    Nat.le_trans first.forward second.forward, second.inside⟩

theorem Onward.fits (onward : stream.Onward after) (fits : stream.Fits) : after.Fits := by
  rwa [Fits, onward.tokens]

/-- Steps that each lead onward lead onward together. -/
theorem Onward.foldl {Step : Type} {run : Stream → Step → Stream}
    (each : ∀ (stream : Stream) (step : Step), stream.Inside → stream.Onward (run stream step))
    (inside : stream.Inside) (steps : List Step) : stream.Onward (steps.foldl run stream) := by
  induction steps generalizing stream with
  | nil => exact .refl inside
  | cons first others ih =>
      have onward := each stream first inside
      exact onward.trans (ih onward.inside)

theorem length_remaining (stream : Stream) :
    stream.remaining.length = stream.tokens.length - stream.cursor :=
  List.length_drop

theorem Onward.remaining_le (onward : stream.Onward after) :
    after.remaining.length ≤ stream.remaining.length := by
  rw [length_remaining, length_remaining, onward.tokens]
  exact Nat.sub_le_sub_left onward.forward _

theorem Onward.remaining_lt (onward : stream.Onward after) (moved : stream.cursor < after.cursor) :
    after.remaining.length < stream.remaining.length := by
  have inside := onward.inside
  rw [Inside, onward.tokens] at inside
  rw [length_remaining, length_remaining, onward.tokens]
  omega

theorem getElem?_cursor (stream : Stream) :
    stream.tokens[stream.cursor]? = stream.remaining.head? :=
  List.head?_drop.symm

/-- The stream behind the token under the cursor. -/
def next (stream : Stream) : Stream :=
  { stream with cursor := stream.cursor + 1 }

theorem remaining_next (ahead : stream.remaining = token :: rest) :
    stream.next.remaining = rest := by
  rw [remaining, next, ← List.tail_drop]
  exact congrArg List.tail ahead

theorem advance_of_nil (ahead : stream.remaining = []) :
    stream.advance = (.error ⟨stream.stop, .unexpectedEnd⟩, stream) := by
  simp [advance, getElem?_cursor, ahead]

theorem advance_of_cons (ahead : stream.remaining = token :: rest) :
    stream.advance = (.ok token, stream.next) := by
  simp [advance, getElem?_cursor, ahead, next]

/-- A step that moves the cursor onward, and really moves it if it succeeds. -/
def Consumes (stream : Stream) (step : Except ParseError Phrase × Stream) : Prop :=
  stream.Onward step.2 ∧ ∀ phrase, step.1 = .ok phrase → stream.cursor < step.2.cursor

theorem consumes_error (inside : stream.Inside) (error : ParseError) :
    @Consumes Phrase stream (.error error, stream) :=
  ⟨.refl inside, nofun⟩

theorem advance_consumes (inside : stream.Inside) : stream.Consumes stream.advance := by
  cases ahead : stream.remaining with
  | nil =>
      rw [advance_of_nil ahead]
      exact consumes_error inside _
  | cons token rest =>
      have some : stream.cursor < stream.tokens.length := by
        have length := congrArg List.length ahead
        rw [length_remaining, List.length_cons] at length
        omega
      rw [advance_of_cons ahead]
      exact ⟨⟨rfl, rfl, Nat.le_succ _, some⟩, fun _ _ => Nat.lt_succ_self _⟩

theorem expect_consumes (inside : stream.Inside) (tag : Token.Tag) :
    stream.Consumes (stream.expect tag) := by
  unfold expect
  split
  · exact consumes_error inside _
  · split
    · exact advance_consumes inside
    · exact consumes_error inside _

/-- A step that is meant to consume the next token. -/
inductive Move where
  | advance
  | expect (tag : Token.Tag)

/-- The stream behind such a step, whether or not it failed. -/
def move (stream : Stream) : Move → Stream
  | .advance => stream.advance.2
  | .expect tag => (stream.expect tag).2

theorem move_onward (inside : stream.Inside) (move : Move) : stream.Onward (stream.move move) := by
  cases move with
  | advance => exact (advance_consumes inside).1
  | expect tag => exact (expect_consumes inside tag).1

theorem moves_onward (inside : stream.Inside) (moves : List Move) :
    stream.Onward (moves.foldl move stream) :=
  Onward.foldl (fun _ step inside => move_onward inside step) inside moves

theorem value_consumes (inside : stream.Inside) : stream.Consumes stream.value := by
  obtain ⟨onward, moved⟩ := advance_consumes inside
  unfold value
  split
  next failed =>
    rw [failed] at onward
    exact ⟨onward, nofun⟩
  next found =>
    rw [found] at onward moved
    exact ⟨onward, fun _ _ => moved _ rfl⟩

end PipeLang.Stream
