import PipeLang.Expression.Basic
import PipeLang.Expression.Parsed

namespace PipeLang

/-!
# The grammar of expressions

    program    := expression
    expression := value { "|>" value | ("->" | "->>") reference }
    value      := lambda | tuple | reference | number | string | boolean
    tuple      := "(" [ expression { "," expression } ] ")"
    lambda     := "(" [ name { "," name } ] ")" "=>" expression

An opening parenthesis starts a lambda exactly when an arrow follows the closing
parenthesis that matches it. There is one reader for each kind of phrase. The readers
call each other, so each takes a bound on the number of nested steps.
-/

namespace Expression

/-- The expression that a single token denotes. -/
def ofToken (token : Token) : Except ParseError Expression :=
  match token.kind with
  | .number value => .ok (.number token.location value)
  | .string text => .ok (.string token.location text)
  | .boolean value => .ok (.boolean token.location value)
  | .identifier name => .ok (.reference token.location name)
  | _ => .error ⟨token.location, .expectedValue token.tag⟩

/-- Whether an arrow follows the parenthesis that closes the group in which `depth`
parentheses are open. -/
def arrowFollows : Nat → List Token → Bool
  | _, [] => false
  | depth, token :: rest =>
      match token.kind with
      | .leftParen => arrowFollows (depth + 1) rest
      | .rightParen =>
          if depth ≤ 1 then rest.head?.any (·.kind == .arrow) else arrowFollows (depth - 1) rest
      | _ => arrowFollows depth rest

/-- The target of an assignment. -/
def reference? (stop : Location) (tokens : List Token) : Parsed Expression :=
  (Parsed.expect stop .identifier tokens).andThen fun token rest =>
    match ofToken token with
    | .ok target => .accepted target rest
    | .error error => .rejected error rest

/-- The names of a parameter list that is not empty, with the closing parenthesis. -/
def parameterNames (stop : Location) : List Token → Parsed (List String)
  | [] => .rejected ⟨stop, .unexpectedEnd⟩ []
  | token :: rest =>
      match token.kind with
      | .identifier name =>
          match rest with
          | [] => .rejected ⟨stop, .unexpectedEnd⟩ []
          | next :: others =>
              match next.kind with
              | .comma =>
                  (parameterNames stop others).map (name :: ·)
              | .rightParen => .accepted [name] others
              | _ =>
                  .rejected ⟨next.location, .unexpectedToken .rightParen next.tag⟩ (next :: others)
      | _ => .rejected ⟨token.location, .unexpectedToken .identifier token.tag⟩ (token :: rest)

/-- A parameter list behind its opening parenthesis. -/
def parameters (stop : Location) (tokens : List Token) : Parsed (List String) :=
  match tokens with
  | [] => .rejected ⟨stop, .unexpectedEnd⟩ []
  | token :: rest =>
      if token.tag = .rightParen then .accepted [] rest else parameterNames stop (token :: rest)

mutual

/-- Reads a value and the operators behind it. -/
def readExpression (stop : Location) : Nat → List Token → Parsed Expression
  | 0, _ => .outOfSteps
  | steps + 1, tokens =>
      (readValue stop steps tokens).andThen fun left rest => readChain stop steps left rest

/-- Reads the operators behind a left operand, grouping to the left. -/
def readChain (stop : Location) : Nat → Expression → List Token → Parsed Expression
  | 0, _, _ => .outOfSteps
  | _ + 1, left, [] => .accepted left []
  | steps + 1, left, token :: rest =>
      match token.kind with
      | .rightParen => .accepted left (token :: rest)
      | .comma => .accepted left (token :: rest)
      | .pipeline =>
          (readValue stop steps rest).andThen fun right others =>
            readChain stop steps (.binary token.location .pipeline left right) others
      | .assign =>
          (reference? stop rest).andThen fun right others =>
            readChain stop steps (.binary token.location .assign left right) others
      | .mutate =>
          (reference? stop rest).andThen fun right others =>
            readChain stop steps (.binary token.location .mutate left right) others
      | _ => .rejected ⟨token.location, .invalidExpression token.tag⟩ (token :: rest)

/-- Reads what can stand on either side of a pipeline. -/
def readValue (stop : Location) : Nat → List Token → Parsed Expression
  | 0, _ => .outOfSteps
  | _ + 1, [] => .rejected ⟨stop, .unexpectedEnd⟩ []
  | steps + 1, token :: rest =>
      if token.tag = .leftParen then
        if arrowFollows 0 (token :: rest) then readLambda stop steps (token :: rest)
        else readTuple stop steps (token :: rest)
      else
        match ofToken token with
        | .ok value => .accepted value rest
        | .error error => .rejected error rest

/-- Reads expressions in parentheses with commas between them. -/
def readTuple (stop : Location) : Nat → List Token → Parsed Expression
  | 0, _ => .outOfSteps
  | steps + 1, tokens =>
      (Parsed.expect stop .leftParen tokens).andThen fun opening rest =>
        match rest with
        | [] => .rejected ⟨stop, .unexpectedEnd⟩ []
        | token :: others =>
            if token.tag = .rightParen then .accepted (.tuple opening.location []) others
            else
              (readElements stop steps (token :: others)).map (.tuple opening.location)

/-- Reads the elements of a tuple that has some, with the closing parenthesis. -/
def readElements (stop : Location) : Nat → List Token → Parsed (List Expression)
  | 0, _ => .outOfSteps
  | steps + 1, tokens =>
      (readExpression stop steps tokens).andThen fun element rest =>
        match rest with
        | [] => .rejected ⟨stop, .unexpectedEnd⟩ []
        | token :: others =>
            if token.tag = .comma then
              (readElements stop steps others).map (element :: ·)
            else
              (Parsed.expect stop .rightParen (token :: others)).map fun _ => [element]

/-- Reads a parameter list, an arrow and a body. -/
def readLambda (stop : Location) : Nat → List Token → Parsed Expression
  | 0, _ => .outOfSteps
  | steps + 1, tokens =>
      (Parsed.expect stop .leftParen tokens).andThen fun opening rest =>
        (parameters stop rest).andThen fun parameters rest =>
          (Parsed.expect stop .arrow rest).andThen fun _ rest =>
            (readExpression stop steps rest).map (.lambda opening.location parameters)

end

end Expression

end PipeLang
