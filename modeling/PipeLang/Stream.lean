import PipeLang.Expression.Parse

namespace PipeLang

/-!
# Streams of tokens

A stream hands out the tokens of a text from front to back. Looking ahead does not
consume anything, and neither does an expectation that fails.
-/

structure Stream where
  tokens : List Token
  /-- How many tokens have been consumed. -/
  cursor : Nat
  /-- The position just past the last character of the text. -/
  stop : Location

namespace Stream

def ofTokens (tokens : List Token) (stop : Location) : Stream :=
  ⟨tokens, 0, stop⟩

def ofScanned (scanned : Scanned) : Stream :=
  ofTokens scanned.tokens scanned.stop

/-- The tokens that are not consumed yet. -/
def remaining (stream : Stream) : List Token :=
  stream.tokens.drop stream.cursor

def isEmpty (stream : Stream) : Bool :=
  stream.tokens.length ≤ stream.cursor

/-- The token `count` places ahead; the next token is one place ahead. Places are
words of 64 bits, so a sum that does not fit starts again from zero. -/
def peekNth? (stream : Stream) (count : UInt64) : Option Token :=
  if count = 0 then none
  else stream.tokens[(UInt64.ofNat stream.cursor + (count - 1)).toNat]?

/-- The next token, which has to exist. -/
def peek (stream : Stream) : Except ParseError Token :=
  match stream.peekNth? 1 with
  | some token => .ok token
  | none => .error ⟨stream.stop, .unexpectedEnd⟩

/-- Consumes the next token, which has to exist. -/
def advance (stream : Stream) : Except ParseError Token × Stream :=
  match stream.tokens[stream.cursor]? with
  | some token => (.ok token, { stream with cursor := stream.cursor + 1 })
  | none => (.error ⟨stream.stop, .unexpectedEnd⟩, stream)

/-- Consumes the next token if it has the given tag. -/
def expect (stream : Stream) (tag : Token.Tag) : Except ParseError Token × Stream :=
  match stream.peek with
  | .error failure => (.error failure, stream)
  | .ok token =>
      if token.tag = tag then stream.advance
      else (.error ⟨token.location, .unexpectedToken tag token.tag⟩, stream)

/-- Consumes the next token, whatever it is, and reads it as an expression. -/
def value (stream : Stream) : Except ParseError Expression × Stream :=
  match stream.advance with
  | (.error failure, after) => (.error failure, after)
  | (.ok token, after) => (Expression.ofToken token, after)

/-- Parses all remaining tokens as one program. The stream itself does not move. -/
def parse (stream : Stream) : Except ParseError Expression :=
  Expression.parse stream.remaining stream.stop

end Stream

end PipeLang
