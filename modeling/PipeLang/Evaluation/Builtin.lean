import PipeLang.Evaluation.Outcome

namespace PipeLang

/-!
# Builtin functions

The functions that are known without a definition. Those that neither write nor call back
are given here by their results.
-/

/-- Reads a value as a number. -/
def Value.asNumber : Value → Except RuntimeCause Float
  | .number value => .ok value
  | other => .error (.typeMismatch .number other.kind)

/-- Reads a value as a truth value. -/
def Value.asBoolean : Value → Except RuntimeCause Bool
  | .boolean value => .ok value
  | other => .error (.typeMismatch .boolean other.kind)

/-- Reads a value as a lambda. -/
def Value.asLambda : Value → Except RuntimeCause Closure
  | .lambda closure => .ok closure
  | other => .error (.typeMismatch .lambda other.kind)

/-- Reads all values as numbers; the first that is none is the error. -/
def Value.asNumbers : List Value → Except RuntimeCause (List Float)
  | [] => .ok []
  | value :: others =>
      match value.asNumber with
      | .error cause => .error cause
      | .ok first =>
          match asNumbers others with
          | .error cause => .error cause
          | .ok rest => .ok (first :: rest)

inductive Arithmetic where
  | add
  | multiply
  | subtract
  | divide
deriving DecidableEq, Repr

namespace Arithmetic

def name : Arithmetic → String
  | .add => "+"
  | .multiply => "*"
  | .subtract => "-"
  | .divide => "/"

def operation : Arithmetic → Float → Float → Float
  | .add => (· + ·)
  | .multiply => (· * ·)
  | .subtract => (· - ·)
  | .divide => (· / ·)

/-- The value of the empty sum and product; differences and quotients have none. -/
def neutral? : Arithmetic → Option Float
  | .add => some 0
  | .multiply => some 1
  | .subtract => none
  | .divide => none

/-- Combines all arguments from left to right, starting from the neutral number if there is
one and from the first argument otherwise. All arguments have to be numbers. -/
def apply (arithmetic : Arithmetic) (arguments : List Value) : Except RuntimeCause (List Value) :=
  match Value.asNumbers arguments with
  | .error cause => .error cause
  | .ok numbers =>
      match arithmetic.neutral?, numbers with
      | some start, numbers => .ok [.number (numbers.foldl arithmetic.operation start)]
      | none, first :: others => .ok [.number (others.foldl arithmetic.operation first)]
      | none, [] => .error (.missingArguments arithmetic.name 1 0)

end Arithmetic

inductive Comparison where
  | greater
  | greaterOrEqual
  | less
  | lessOrEqual
  | equal
  | notEqual
deriving DecidableEq, Repr

namespace Comparison

def name : Comparison → String
  | .greater => ">"
  | .greaterOrEqual => ">="
  | .less => "<"
  | .lessOrEqual => "<="
  | .equal => "=="
  | .notEqual => "!="

/-- The relation between two numbers. An undefined number only differs from others. -/
def holds : Comparison → Float → Float → Bool
  | .greater, left, right => right < left
  | .greaterOrEqual, left, right => right ≤ left
  | .less, left, right => left < right
  | .lessOrEqual, left, right => left ≤ right
  | .equal, left, right => left == right
  | .notEqual, left, right => left != right

/-- Whether the relation holds between all neighbours. The first pair for which it does not
settles the answer, and what comes after that pair need not even be a number. -/
def holdsBetween (comparison : Comparison) : List Value → Except RuntimeCause Bool
  | left :: right :: others =>
      match left.asNumber, right.asNumber with
      | .error cause, _ => .error cause
      | .ok _, .error cause => .error cause
      | .ok first, .ok second =>
          if comparison.holds first second then holdsBetween comparison (right :: others)
          else .ok false
  | _ => .ok true

def apply (comparison : Comparison) (arguments : List Value) : Except RuntimeCause (List Value) :=
  if arguments.length < 2 then .error .comparisonOperands
  else
    match holdsBetween comparison arguments with
    | .error cause => .error cause
    | .ok answer => .ok [.boolean answer]

end Comparison

inductive Builtin where
  | identity
  | toText
  | print
  | arithmetic (operation : Arithmetic)
  | comparison (relation : Comparison)
  | repeatWhile
  | runWhen
deriving DecidableEq, Repr

namespace Builtin

/-- The name under which programs call the function. -/
def name : Builtin → String
  | .identity => "identity"
  | .toText => "to_string"
  | .print => "show"
  | .arithmetic operation => operation.name
  | .comparison relation => relation.name
  | .repeatWhile => "loop"
  | .runWhen => "if"

def all : List Builtin :=
  [.identity, .toText, .print, .arithmetic .add, .arithmetic .multiply, .arithmetic .subtract,
   .arithmetic .divide, .comparison .greater, .comparison .greaterOrEqual, .comparison .less,
   .comparison .lessOrEqual, .comparison .equal, .comparison .notEqual, .repeatWhile, .runWhen]

def named? (name : String) : Option Builtin :=
  all.find? (·.name == name)

end Builtin

end PipeLang
