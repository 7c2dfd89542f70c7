import PipeLang.Expression.Basic
import PipeLang.Number.Shortest
import PipeLang.Text.Quoted

namespace PipeLang.Expression

/-!
# Written forms of expressions

The symbolic form puts each node in parentheses, operator first. The tree form has one
line for each node, in the order of a walk from the root, with its position and lines
that connect it to its parent.
-/

mutual

/-- The symbolic form of an expression. -/
def symbolic : Expression → String
  | .number _ value => Number.render .source value
  | .string _ text => Text.quote text
  | .boolean _ value => Text.boolean value
  | .reference _ name => name
  | .tuple _ elements => "(tuple" ++ symbolicElements elements ++ ")"
  | .lambda _ parameters body =>
      "(lambda (" ++ " ".intercalate parameters ++ ") " ++ symbolic body ++ ")"
  | .binary _ operator left right =>
      "(" ++ operator.symbol ++ " " ++ symbolic left ++ " " ++ symbolic right ++ ")"

/-- The symbolic forms of elements, each behind a space. -/
def symbolicElements : List Expression → String
  | [] => ""
  | element :: others => " " ++ symbolic element ++ symbolicElements others

end

/-- A connecting line, drawn in grey and followed by a space. -/
def connector (line : String) : String :=
  "\x1b[90m" ++ line ++ "\x1b[0m "

/-- In front of the first line of a child that has younger siblings. -/
def branch : String := connector "├"

/-- In front of the other lines of a child that has younger siblings. -/
def trunk : String := connector "│"

/-- In front of the first line of the last child. -/
def corner : String := connector "╰"

/-- In front of the other lines of the last child. -/
def margin : String := "  "

/-- Puts one text in front of the first line and another in front of the others. -/
def indent (first others : String) : List String → List String
  | [] => []
  | line :: lines => (first ++ line) :: lines.map (others ++ ·)

/-- What the line of a node says behind its position. -/
def header : Expression → String
  | .number _ value => "number: " ++ Number.render .source value
  | .string _ text => "string: " ++ Text.quote text
  | .boolean _ value => "boolean: " ++ Text.boolean value
  | .reference _ name => "variable: " ++ name
  | .tuple _ _ => "tuple:"
  | .lambda _ parameters _ => "lambda (" ++ ", ".intercalate parameters ++ "):"
  | .binary _ operator _ _ => operator.name ++ ":"

/-- The line of a node without the lines that connect it to its parent. -/
def nodeLine (expression : Expression) : String :=
  expression.location.render ++ ":" ++ expression.header

mutual

/-- The lines of the tree form, the root first. -/
def treeLines : Expression → List String
  | expression@(.tuple _ elements) => expression.nodeLine :: childLines elements
  | expression@(.lambda _ _ body) =>
      expression.nodeLine :: indent corner margin (treeLines body)
  | expression@(.binary _ _ left right) =>
      expression.nodeLine ::
        (indent branch trunk (treeLines left) ++ indent corner margin (treeLines right))
  | expression => [expression.nodeLine]

/-- The lines of the children of a node, connected to it. -/
def childLines : List Expression → List String
  | [] => []
  | [last] => indent corner margin (treeLines last)
  | child :: next :: others =>
      indent branch trunk (treeLines child) ++ childLines (next :: others)

end

/-- The tree form as one text, without a line end after its last line. -/
def tree (expression : Expression) : String :=
  "\n".intercalate expression.treeLines

end PipeLang.Expression
