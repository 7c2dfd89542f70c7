import PipeLang.Token.Basic

namespace PipeLang

/-!
# Reading phrases from tokens

A phrase is read from the front of a list of tokens. The outcome keeps the tokens
that were left when reading stopped, also when it stopped because of an error.
-/

/-- Why tokens cannot be read as a program. -/
inductive ParseCause where
  /-- Another token than the one the grammar requires. -/
  | unexpectedToken (expected found : Token.Tag)
  /-- The tokens end where the grammar requires more. -/
  | unexpectedEnd
  /-- A token that cannot start a value where one is required. -/
  | expectedValue (found : Token.Tag)
  /-- A token where an operator or the end of the expression belongs. -/
  | invalidExpression (found : Token.Tag)
  /-- A token after the end of the program. -/
  | trailingToken (found : Token.Tag)
deriving DecidableEq, Repr

def ParseCause.message : ParseCause → String
  | .unexpectedToken expected found => s!"expected token {expected.name}, got {found.name}"
  | .unexpectedEnd => "finished token stream when expected more"
  | .expectedValue found => s!"expected a value, got {found.name}"
  | .invalidExpression found => s!"invalid expression: unexpected {found.name}"
  | .trailingToken found => s!"unexpected token {found.name} after expression"

/-- A parse fails at the offending token, or at the end of the text. -/
abbrev ParseError := Located ParseCause

/-- The outcome of reading one phrase. -/
inductive Parsed (Phrase : Type) where
  | accepted (phrase : Phrase) (rest : List Token)
  | rejected (error : ParseError) (rest : List Token)
  /-- The bound on the number of steps was too small to tell. -/
  | outOfSteps

namespace Parsed

/-- Goes on behind an accepted phrase. -/
def andThen {First Second : Type} (first : Parsed First)
    (next : First → List Token → Parsed Second) : Parsed Second :=
  match first with
  | .accepted phrase rest => next phrase rest
  | .rejected error rest => .rejected error rest
  | .outOfSteps => .outOfSteps

/-- Builds another phrase from an accepted one. -/
def map {First Second : Type} (build : First → Second) (first : Parsed First) : Parsed Second :=
  first.andThen fun phrase rest => .accepted (build phrase) rest

/-- Reads the next token if it has the given tag. -/
def expect (stop : Location) (tag : Token.Tag) : List Token → Parsed Token
  | [] => .rejected ⟨stop, .unexpectedEnd⟩ []
  | token :: rest =>
      if token.tag = tag then .accepted token rest
      else .rejected ⟨token.location, .unexpectedToken tag token.tag⟩ (token :: rest)

theorem andThen_eq_accepted {First Second : Type} {first : Parsed First}
    {next : First → List Token → Parsed Second} {phrase : Second} {rest : List Token}
    (read : first.andThen next = .accepted phrase rest) :
    ∃ early middle, first = .accepted early middle ∧ next early middle = .accepted phrase rest := by
  cases first with
  | accepted early middle => exact ⟨early, middle, rfl, read⟩
  | rejected error middle => cases read
  | outOfSteps => cases read

theorem map_eq_accepted {First Second : Type} {build : First → Second} {first : Parsed First}
    {phrase : Second} {rest : List Token} (read : first.map build = .accepted phrase rest) :
    ∃ early, first = .accepted early rest ∧ build early = phrase := by
  obtain ⟨early, middle, accepted, built⟩ := andThen_eq_accepted read
  cases built
  exact ⟨early, accepted, rfl⟩

theorem andThen_eq_rejected {First Second : Type} {first : Parsed First}
    {next : First → List Token → Parsed Second} {error : ParseError} {rest : List Token}
    (read : first.andThen next = .rejected error rest) :
    first = .rejected error rest ∨
      ∃ early middle, first = .accepted early middle ∧ next early middle = .rejected error rest := by
  cases first with
  | accepted early middle => exact .inr ⟨early, middle, rfl, read⟩
  | rejected failure middle =>
      cases read
      exact .inl rfl
  | outOfSteps => cases read

theorem map_eq_rejected {First Second : Type} {build : First → Second} {first : Parsed First}
    {error : ParseError} {rest : List Token} (read : first.map build = .rejected error rest) :
    first = .rejected error rest := by
  rcases andThen_eq_rejected read with rejected | ⟨early, middle, accepted, built⟩
  · exact rejected
  · cases built

theorem expect_of_tag {tag : Token.Tag} {token : Token} (same : token.tag = tag)
    (stop : Location) (rest : List Token) :
    expect stop tag (token :: rest) = .accepted token rest :=
  if_pos same

theorem expect_eq_accepted {stop : Location} {tag : Token.Tag} {tokens rest : List Token}
    {token : Token} (read : expect stop tag tokens = .accepted token rest) :
    tokens = token :: rest ∧ token.tag = tag := by
  cases tokens with
  | nil => cases read
  | cons head others =>
      rw [expect] at read
      split at read
      next matching =>
        cases read
        exact ⟨rfl, matching⟩
      next => cases read

/-- Reading came to an answer and stopped within the given tokens. -/
def Within {Phrase : Type} (tokens : List Token) : Parsed Phrase → Prop
  | .accepted _ rest => rest <:+ tokens
  | .rejected _ rest => rest <:+ tokens
  | .outOfSteps => False

/-- Reading came to an answer, and an accepted phrase has at least one token. -/
def Advances {Phrase : Type} (tokens : List Token) : Parsed Phrase → Prop
  | .accepted _ rest => rest <:+ tokens ∧ rest.length < tokens.length
  | .rejected _ rest => rest <:+ tokens
  | .outOfSteps => False

theorem Advances.within {Phrase : Type} {tokens : List Token} {parsed : Parsed Phrase}
    (advances : parsed.Advances tokens) : parsed.Within tokens := by
  cases parsed with
  | accepted phrase rest => exact advances.1
  | rejected error rest => exact advances
  | outOfSteps => exact advances

theorem Within.advances_of_lt {Phrase : Type} {tokens more : List Token} {parsed : Parsed Phrase}
    (within : parsed.Within tokens) (suffix : tokens <:+ more)
    (shorter : tokens.length < more.length) : parsed.Advances more := by
  cases parsed with
  | accepted phrase rest =>
      exact ⟨List.IsSuffix.trans within suffix,
        Nat.lt_of_le_of_lt (List.IsSuffix.length_le within) shorter⟩
  | rejected error rest => exact List.IsSuffix.trans within suffix
  | outOfSteps => exact within

/-- A first phrase that advances needs nothing more of the phrase behind it than to
stay within the tokens that are left. -/
theorem Advances.andThen {First Second : Type} {tokens : List Token} {first : Parsed First}
    {next : First → List Token → Parsed Second} (advances : first.Advances tokens)
    (continues : ∀ phrase rest, rest <:+ tokens → rest.length < tokens.length →
      (next phrase rest).Within rest) :
    (first.andThen next).Advances tokens := by
  cases first with
  | accepted phrase rest =>
      exact (continues phrase rest advances.1 advances.2).advances_of_lt advances.1 advances.2
  | rejected error rest => exact advances
  | outOfSteps => exact advances

theorem Advances.map {First Second : Type} {tokens : List Token} {first : Parsed First}
    (build : First → Second) (advances : first.Advances tokens) :
    (first.map build).Advances tokens :=
  advances.andThen fun _ rest _ _ => List.suffix_refl rest

theorem expect_advances (stop : Location) (tag : Token.Tag) (tokens : List Token) :
    (expect stop tag tokens).Advances tokens := by
  cases tokens with
  | nil => exact List.suffix_refl []
  | cons token rest =>
      by_cases matching : token.tag = tag <;> simp [expect, matching, Advances]

end Parsed

end PipeLang
