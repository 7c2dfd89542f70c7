import PipeLang.Location

namespace PipeLang

/-!
# Expressions

A program is one expression. Every node knows the position of the token that
introduced it: the operator for a binary node, the opening parenthesis for a tuple
or lambda, and the token itself otherwise.
-/

/-- The binary operators. They bind equally strongly and group to the left. -/
inductive Operator where
  | pipeline
  | assign
  | mutate
deriving DecidableEq, Repr

def Operator.symbol : Operator → String
  | .pipeline => "|>"
  | .assign => "->"
  | .mutate => "->>"

def Operator.name : Operator → String
  | .pipeline => "pipeline"
  | .assign => "assign"
  | .mutate => "mutate"

inductive Expression where
  | number (location : Location) (value : Float)
  | string (location : Location) (text : String)
  | boolean (location : Location) (value : Bool)
  | reference (location : Location) (name : String)
  | tuple (location : Location) (elements : List Expression)
  | lambda (location : Location) (parameters : List String) (body : Expression)
  | binary (location : Location) (operator : Operator) (left right : Expression)

namespace Expression

/-- The shapes of expressions. -/
inductive Tag where
  | number
  | string
  | boolean
  | reference
  | tuple
  | lambda
  | binary
deriving DecidableEq, Repr

/-- The name of a shape in listings and error messages. -/
def Tag.name : Tag → String
  | .number => "number"
  | .string => "string"
  | .boolean => "boolean"
  | .reference => "variable"
  | .tuple => "tuple"
  | .lambda => "lambda"
  | .binary => "binary"

def tag : Expression → Tag
  | .number .. => .number
  | .string .. => .string
  | .boolean .. => .boolean
  | .reference .. => .reference
  | .tuple .. => .tuple
  | .lambda .. => .lambda
  | .binary .. => .binary

def location : Expression → Location
  | .number location _ => location
  | .string location _ => location
  | .boolean location _ => location
  | .reference location _ => location
  | .tuple location _ => location
  | .lambda location _ _ => location
  | .binary location _ _ _ => location

end Expression

end PipeLang
