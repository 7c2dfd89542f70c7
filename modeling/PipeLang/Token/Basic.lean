import PipeLang.Location
import PipeLang.Number.Shortest
import PipeLang.Text.Quoted

namespace PipeLang

/-!
# Tokens

A token is a kind of phrase of the source text, with what it denotes, at the
position of its first character.
-/

namespace Token

/-- The kinds of tokens without what they denote. -/
inductive Tag where
  | leftParen
  | rightParen
  | comma
  | shorthand
  | arrow
  | pipeline
  | assign
  | mutate
  | identifier
  | number
  | string
  | boolean
deriving DecidableEq, Repr

/-- The name of a kind in listings and error messages. -/
def Tag.name : Tag → String
  | .leftParen => "lparen"
  | .rightParen => "rparen"
  | .comma => "comma"
  | .shorthand => "shorthand"
  | .arrow => "arrow"
  | .pipeline => "pipeline"
  | .assign => "assign"
  | .mutate => "mutate"
  | .identifier => "identifier"
  | .number => "number"
  | .string => "string"
  | .boolean => "boolean"

/-- All tags, in the order of their declaration. -/
def Tag.all : List Tag :=
  [.leftParen, .rightParen, .comma, .shorthand, .arrow, .pipeline, .assign, .mutate,
   .identifier, .number, .string, .boolean]

/-- The tag that a name stands for. -/
def Tag.named? (name : String) : Option Tag :=
  Tag.all.find? (·.name == name)

/-- The kinds of tokens. Numbers and strings are held as what they denote, not as
they were spelled. Operators such as `+` are identifiers like any other name. -/
inductive Kind where
  | leftParen
  | rightParen
  | comma
  | shorthand
  | arrow
  | pipeline
  | assign
  | mutate
  | identifier (name : String)
  | number (value : Float)
  | string (text : String)
  | boolean (value : Bool)
deriving DecidableEq

namespace Kind

def tag : Kind → Tag
  | .leftParen => .leftParen
  | .rightParen => .rightParen
  | .comma => .comma
  | .shorthand => .shorthand
  | .arrow => .arrow
  | .pipeline => .pipeline
  | .assign => .assign
  | .mutate => .mutate
  | .identifier _ => .identifier
  | .number _ => .number
  | .string _ => .string
  | .boolean _ => .boolean

/-- The text of what the token denotes, for the kinds that denote something. -/
def payload? : Kind → Option String
  | .identifier name => some name
  | .number value => some (Number.render .source value)
  | .string text => some (Text.quote text)
  | .boolean value => some (Text.boolean value)
  | _ => none

/-- A kind that denotes nothing is known by its tag. -/
theorem eq_of_tag {kind bare : Kind} (denotes : bare.payload? = none) (same : kind.tag = bare.tag) :
    kind = bare := by
  cases bare <;> simp only [payload?, reduceCtorEq] at denotes <;> cases kind <;>
    first | rfl | cases same

theorem identifier_of_tag {kind : Kind} (same : kind.tag = .identifier) :
    ∃ name, kind = .identifier name := by
  cases kind with
  | identifier name => exact ⟨name, rfl⟩
  | _ => cases same

end Kind

end Token

structure Token where
  location : Location
  kind : Token.Kind
deriving DecidableEq

namespace Token

def tag (token : Token) : Tag :=
  token.kind.tag

/-- One line of a token listing: position, kind and what the token denotes. -/
def render (token : Token) : String :=
  let head := token.location.render ++ ":" ++ token.tag.name
  match token.kind.payload? with
  | none => head
  | some payload => head ++ ": " ++ payload

end Token

end PipeLang
