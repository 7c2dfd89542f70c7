import PipeLang.Expression.Basic
import PipeLang.Number.Shortest
import PipeLang.Scope
import PipeLang.Text.Quoted

namespace PipeLang

/-!
# Values

Every expression evaluates to a list of values. A lambda value is a closure: it keeps
the scope it was made in. Two closures are equal only if they come from the same
evaluation of a lambda, which their identities tell.
-/

structure Closure where
  identity : Nat
  parameters : List String
  scope : Scope
  body : Expression

inductive Value where
  | number (value : Float)
  | string (text : String)
  | boolean (value : Bool)
  | tuple (elements : List Value)
  | lambda (closure : Closure)

namespace Value

/-- The types of values. -/
inductive Kind where
  | number
  | string
  | boolean
  | tuple
  | lambda
deriving DecidableEq, Repr

def Kind.name : Kind → String
  | .number => "number"
  | .string => "string"
  | .boolean => "boolean"
  | .tuple => "tuple"
  | .lambda => "lambda"

def kind : Value → Kind
  | .number _ => .number
  | .string _ => .string
  | .boolean _ => .boolean
  | .tuple _ => .tuple
  | .lambda _ => .lambda

mutual

/-- The text of a value. Strings stand for themselves, without quotation marks. -/
def render : Value → String
  | .number value => Number.render .display value
  | .string text => text
  | .boolean value => Text.boolean value
  | .tuple elements => "(" ++ ", ".intercalate (renderEach elements) ++ ")"
  | .lambda closure => "<lambda(" ++ ", ".intercalate closure.parameters ++ ")>"

def renderEach : List Value → List String
  | [] => []
  | value :: others => render value :: renderEach others

end

/-- The text of a list of values as it is shown on one line. -/
def renderLine (values : List Value) : String :=
  ", ".intercalate (renderEach values)

mutual

/-- Equality of values. Numbers compare as numbers: an undefined one differs from
itself, and the two zeros are equal. -/
def equal : Value → Value → Bool
  | .number left, .number right => left == right
  | .string left, .string right => left == right
  | .boolean left, .boolean right => left == right
  | .tuple left, .tuple right => equalLists left right
  | .lambda left, .lambda right => left.identity == right.identity
  | _, _ => false

def equalLists : List Value → List Value → Bool
  | [], [] => true
  | left :: lefts, right :: rights => equal left right && equalLists lefts rights
  | _, _ => false

end

theorem renderEach_eq_map (values : List Value) : renderEach values = values.map render := by
  induction values with
  | nil => rfl
  | cons value others ih => rw [renderEach, ih, List.map_cons]

end Value

end PipeLang
