import PipeLang.Proofs.Nodes
import PipeLang.Token.Basic

namespace PipeLang

/-! # Spelling expressions

An expression lists the tokens it is written with. It records the location of one token for
each of its nodes, which introduces the node, and nothing about where the other tokens stand.
-/

/-- What an expression tells about one of its tokens. -/
structure Mark where
  kind : Token.Kind
  location? : Option Location

namespace Mark

/-- A token that introduces a node at the given location. -/
def introducing (location : Location) (kind : Token.Kind) : Mark := ⟨kind, some location⟩

def plain (kind : Token.Kind) : Mark := ⟨kind, none⟩

def Fits (mark : Mark) (token : Token) : Prop :=
  token.kind = mark.kind ∧ ∀ location ∈ mark.location?, token.location = location

theorem fits_introducing {token : Token} {kind : Token.Kind} (same : token.kind = kind) :
    (introducing token.location kind).Fits token := by
  refine ⟨same, ?_⟩
  rintro location ⟨⟩
  rfl

theorem fits_plain {token : Token} {kind : Token.Kind} (same : token.kind = kind) :
    (plain kind).Fits token :=
  ⟨same, nofun⟩

/-- Phrases with commas between them. -/
def separated (phrases : List (List Mark)) : List Mark :=
  [plain .comma].intercalate phrases

@[simp] theorem separated_singleton (phrase : List Mark) : separated [phrase] = phrase :=
  List.intercalate_singleton

@[simp] theorem separated_cons_cons (first second : List Mark) (others : List (List Mark)) :
    separated (first :: second :: others) =
      first ++ plain .comma :: separated (second :: others) := by
  simp [separated]

end Mark

def Operator.kind : Operator → Token.Kind
  | .pipeline => .pipeline
  | .assign => .assign
  | .mutate => .mutate

namespace Expression

def parameterSpelling (parameters : List String) : List Mark :=
  Mark.separated (parameters.map fun name => [.plain (.identifier name)])

mutual

def spelling : Expression → List Mark
  | .number location value => [.introducing location (.number value)]
  | .string location text => [.introducing location (.string text)]
  | .boolean location value => [.introducing location (.boolean value)]
  | .reference location name => [.introducing location (.identifier name)]
  | .tuple location elements =>
      .introducing location .leftParen ::
        (Mark.separated (spellings elements) ++ [.plain .rightParen])
  | .lambda location parameters body =>
      .introducing location .leftParen ::
        (parameterSpelling parameters ++ .plain .rightParen :: .plain .arrow :: spelling body)
  | .binary location operator left right =>
      spelling left ++ .introducing location operator.kind :: spelling right

def spellings : List Expression → List (List Mark)
  | [] => []
  | element :: others => spelling element :: spellings others

end

/-- The kinds of the tokens that an expression is written with. -/
def unparse (expression : Expression) : List Token.Kind :=
  expression.spelling.map Mark.kind

/-- The expression ends in the body of a lambda, to which all operators behind it belong. -/
def endsInBody : Expression → Bool
  | .lambda .. => true
  | .binary _ .pipeline _ (.lambda ..) => true
  | _ => false

end Expression

/-- The expression can stand to the right of the operator. -/
def Operator.Takes : Operator → Expression → Prop
  | .pipeline, right => right.tag ≠ .binary
  | .assign, right => right.tag = .reference
  | .mutate, right => right.tag = .reference

namespace Expression

/-- The operands of a node can be written next to its operator as they are. -/
def OperandsAllowed : Expression → Prop
  | .binary _ operator left right => left.endsInBody = false ∧ operator.Takes right
  | _ => True

/-- The expression can be written without parentheses around any of its operands. -/
def Writable (expression : Expression) : Prop :=
  ∀ node ∈ expression.nodes, node.OperandsAllowed

instance (operator : Operator) (right : Expression) : Decidable (operator.Takes right) :=
  match operator with
  | .pipeline => inferInstanceAs (Decidable (right.tag ≠ .binary))
  | .assign => inferInstanceAs (Decidable (right.tag = .reference))
  | .mutate => inferInstanceAs (Decidable (right.tag = .reference))

instance (expression : Expression) : Decidable expression.OperandsAllowed :=
  match expression with
  | .binary _ operator left right =>
      inferInstanceAs (Decidable (left.endsInBody = false ∧ operator.Takes right))
  | .number .. | .string .. | .boolean .. | .reference .. | .tuple .. | .lambda .. =>
      inferInstanceAs (Decidable True)

instance (expression : Expression) : Decidable expression.Writable :=
  inferInstanceAs (Decidable (∀ node ∈ expression.nodes, node.OperandsAllowed))

variable {location : Location}

theorem writable_tuple {elements : List Expression} :
    (Expression.tuple location elements).Writable ↔ ∀ element ∈ elements, element.Writable := by
  simp only [Writable, nodes, mem_nodesWith_tuple]
  constructor
  · intro all element member node inside
    exact all node (.inr ⟨element, member, inside⟩)
  · rintro each node (rfl | ⟨element, member, inside⟩)
    · exact trivial
    · exact each element member node inside

theorem writable_lambda {parameters : List String} {body : Expression} :
    (Expression.lambda location parameters body).Writable ↔ body.Writable := by
  simp only [Writable, mem_nodes_lambda]
  constructor
  · intro all node inside
    exact all node (.inr inside)
  · rintro inner node (rfl | inside)
    · exact trivial
    · exact inner node inside

theorem writable_binary {operator : Operator} {left right : Expression} :
    (Expression.binary location operator left right).Writable ↔
      (left.endsInBody = false ∧ operator.Takes right) ∧ left.Writable ∧ right.Writable := by
  simp only [Writable, nodes, mem_nodesWith_binary]
  constructor
  · intro all
    refine ⟨all _ (.inl rfl), ?_, ?_⟩
    · intro node inside
      exact all node (.inr (.inl inside))
    · intro node inside
      exact all node (.inr (.inr inside))
  · rintro ⟨allowed, first, second⟩ node (rfl | inside | inside)
    · exact allowed
    · exact first node inside
    · exact second node inside

end Expression

/-- The marks fit the tokens before the rest, one by one. -/
inductive Spells : List Mark → List Token → List Token → Prop where
  | nil {rest : List Token} : Spells [] rest rest
  | cons {mark : Mark} {marks : List Mark} {token : Token} {tokens rest : List Token}
      (fits : mark.Fits token) (tail : Spells marks tokens rest) :
      Spells (mark :: marks) (token :: tokens) rest

namespace Spells

theorem append {first second : List Mark} {tokens middle rest : List Token}
    (before : Spells first tokens middle) (after : Spells second middle rest) :
    Spells (first ++ second) tokens rest := by
  induction before with
  | nil => exact after
  | cons fits _ ih => exact .cons fits (ih after)

theorem kinds {marks : List Mark} {tokens rest : List Token} (spells : Spells marks tokens rest) :
    tokens.map Token.kind = marks.map Mark.kind ++ rest.map Token.kind := by
  induction spells with
  | nil => rfl
  | cons fits _ ih => rw [List.map_cons, fits.1, ih, List.map_cons, List.cons_append]

theorem isSuffix {marks : List Mark} {tokens rest : List Token}
    (spells : Spells marks tokens rest) : rest <:+ tokens := by
  induction spells with
  | nil => exact List.suffix_refl _
  | cons _ _ ih => exact ih.trans (List.suffix_cons _ _)

end Spells

end PipeLang
