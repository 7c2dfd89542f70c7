import PipeLang.Expression.Grammar
import PipeLang.Token.Scan

namespace PipeLang

/-!
# Parsing

A parse reads one expression and requires that no token is left. The readers of the
grammar consume a token before they call themselves on the rest, so a number of steps
that is linear in the number of tokens suffices, whatever the tokens are.
-/

/-- Why a source text is no program. -/
inductive SourceError where
  | scan (error : ScanError)
  | parse (error : ParseError)

namespace Expression

theorem reference?_advances (stop : Location) (tokens : List Token) :
    (reference? stop tokens).Advances tokens := by
  refine (Parsed.expect_advances stop .identifier tokens).andThen fun token rest _ _ => ?_
  cases ofToken token <;> exact List.suffix_refl rest

theorem parameterNames_advances (stop : Location) (tokens : List Token) :
    (parameterNames stop tokens).Advances tokens := by
  fun_induction parameterNames stop tokens with
  | case1 => exact List.suffix_refl []
  | case2 => simp [Parsed.Advances]
  | case3 token name named next others isComma ih =>
      refine (ih.map (name :: ·)).within.advances_of_lt ?_ ?_
      · exact (List.suffix_cons next others).trans (List.suffix_cons token _)
      · simp only [List.length_cons]
        omega
  | case4 token name named next others =>
      simp only [Parsed.Advances, List.length_cons]
      exact ⟨(List.suffix_cons next others).trans (List.suffix_cons token _), by omega⟩
  | case5 token name named next others => exact List.suffix_cons token _
  | case6 token rest => exact List.suffix_refl _

theorem parameters_advances (stop : Location) (tokens : List Token) :
    (parameters stop tokens).Advances tokens := by
  cases tokens with
  | nil => exact List.suffix_refl []
  | cons token rest =>
      by_cases closes : token.tag = .rightParen
      · simp [parameters, closes, Parsed.Advances]
      · simpa [parameters, closes] using parameterNames_advances stop (token :: rest)

/-- With enough steps every reader comes to an answer, stops within its tokens and, if it
accepts, has consumed at least one of them; only a chain may be empty. -/
theorem readers_advance (stop : Location) (steps : Nat) :
    (∀ tokens : List Token, 4 * tokens.length + 3 ≤ steps →
      (readExpression stop steps tokens).Advances tokens) ∧
    (∀ (left : Expression) (tokens : List Token), 4 * tokens.length + 1 ≤ steps →
      (readChain stop steps left tokens).Within tokens) ∧
    (∀ tokens : List Token, 4 * tokens.length + 2 ≤ steps →
      (readValue stop steps tokens).Advances tokens) ∧
    (∀ tokens : List Token, 4 * tokens.length + 1 ≤ steps →
      (readTuple stop steps tokens).Advances tokens) ∧
    (∀ tokens : List Token, 4 * tokens.length + 4 ≤ steps →
      (readElements stop steps tokens).Advances tokens) ∧
    (∀ tokens : List Token, 4 * tokens.length + 1 ≤ steps →
      (readLambda stop steps tokens).Advances tokens) := by
  induction steps with
  | zero => simp
  | succ steps ih =>
      obtain ⟨expressions, chains, values, tuples, elements, lambdas⟩ := ih
      refine ⟨?_, ?_, ?_, ?_, ?_, ?_⟩
      · intro tokens enough
        rw [readExpression]
        exact (values tokens (by omega)).andThen fun left rest _ shorter =>
          chains left rest (by omega)
      · intro left tokens enough
        cases tokens with
        | nil => simp [readChain, Parsed.Within]
        | cons token rest =>
            simp only [List.length_cons] at enough
            have onward {Phrase : Type} {parsed : Parsed Phrase} (advances : parsed.Advances rest) :
                parsed.Within (token :: rest) :=
              (advances.within.advances_of_lt (List.suffix_cons token rest)
                (Nat.lt_succ_self _)).within
            rw [readChain]
            split
            · exact List.suffix_refl _
            · exact List.suffix_refl _
            · exact onward ((values rest (by omega)).andThen fun right others _ shorter =>
                chains _ others (by omega))
            · exact onward ((reference?_advances stop rest).andThen fun right others _ shorter =>
                chains _ others (by omega))
            · exact onward ((reference?_advances stop rest).andThen fun right others _ shorter =>
                chains _ others (by omega))
            · exact List.suffix_refl _
      · intro tokens enough
        cases tokens with
        | nil => simp [readValue, Parsed.Advances]
        | cons token rest =>
            rw [readValue]
            split
            · split
              · exact lambdas _ (by omega)
              · exact tuples _ (by omega)
            · split
              · simp [Parsed.Advances]
              · exact List.suffix_cons token rest
      · intro tokens enough
        rw [readTuple]
        refine (Parsed.expect_advances stop .leftParen tokens).andThen fun opening rest _ shorter => ?_
        cases rest with
        | nil => exact List.suffix_refl []
        | cons token others =>
            dsimp only
            split
            · exact List.suffix_cons token others
            · exact ((elements _ (by omega)).map _).within
      · intro tokens enough
        rw [readElements]
        refine (expressions tokens (by omega)).andThen fun element rest _ shorter => ?_
        cases rest with
        | nil => exact List.suffix_refl []
        | cons token others =>
            simp only [List.length_cons] at shorter
            dsimp only
            split
            · exact (((elements others (by omega)).map _).within.advances_of_lt
                (List.suffix_cons token others) (Nat.lt_succ_self _)).within
            · exact ((Parsed.expect_advances stop .rightParen (token :: others)).map _).within
      · intro tokens enough
        rw [readLambda]
        refine (Parsed.expect_advances stop .leftParen tokens).andThen fun opening rest _ _ => ?_
        refine ((parameters_advances stop rest).andThen fun parameters rest _ _ => ?_).within
        refine ((Parsed.expect_advances stop .arrow rest).andThen fun _ rest _ _ => ?_).within
        exact ((expressions rest (by omega)).map _).within

/-- A bound on the number of nested steps that reading an expression takes. -/
def stepsFor (tokens : List Token) : Nat :=
  4 * tokens.length + 3

theorem readExpression_ne_outOfSteps (stop : Location) (tokens : List Token) :
    readExpression stop (stepsFor tokens) tokens ≠ .outOfSteps := by
  intro exhausted
  have advances := (readers_advance stop (stepsFor tokens)).1 tokens (Nat.le_refl _)
  rw [exhausted] at advances
  exact advances

/-- Reads all tokens as one program. -/
def parse (tokens : List Token) (stop : Location) : Except ParseError Expression :=
  match outcome : readExpression stop (stepsFor tokens) tokens with
  | .accepted program [] => .ok program
  | .accepted _ (token :: _) => .error ⟨token.location, .trailingToken token.tag⟩
  | .rejected error _ => .error error
  | .outOfSteps => absurd outcome (readExpression_ne_outOfSteps stop tokens)

theorem parse_of_accepted {tokens : List Token} {stop : Location} {program : Expression}
    (read : readExpression stop (stepsFor tokens) tokens = .accepted program []) :
    parse tokens stop = .ok program := by
  unfold parse
  split <;> simp_all

theorem accepted_of_parse {tokens : List Token} {stop : Location} {program : Expression}
    (parsed : parse tokens stop = .ok program) :
    readExpression stop (stepsFor tokens) tokens = .accepted program [] := by
  unfold parse at parsed
  split at parsed
  next accepted =>
    cases parsed
    exact accepted
  next => cases parsed
  next => cases parsed
  next exhausted => exact absurd exhausted (readExpression_ne_outOfSteps stop tokens)

theorem parse_of_trailing {tokens rest : List Token} {stop : Location} {program : Expression}
    {token : Token}
    (read : readExpression stop (stepsFor tokens) tokens = .accepted program (token :: rest)) :
    parse tokens stop = .error ⟨token.location, .trailingToken token.tag⟩ := by
  unfold parse
  split <;> simp_all

theorem parse_of_rejected {tokens rest : List Token} {stop : Location} {error : ParseError}
    (read : readExpression stop (stepsFor tokens) tokens = .rejected error rest) :
    parse tokens stop = .error error := by
  unfold parse
  split <;> simp_all

theorem parse_eq_error {tokens : List Token} {stop : Location} {error : ParseError}
    (failed : parse tokens stop = .error error) :
    (∃ rest, readExpression stop (stepsFor tokens) tokens = .rejected error rest) ∨
      ∃ program token rest,
        readExpression stop (stepsFor tokens) tokens = .accepted program (token :: rest) ∧
          error = ⟨token.location, .trailingToken token.tag⟩ := by
  unfold parse at failed
  split at failed
  next => cases failed
  next program token rest accepted =>
    cases failed
    exact .inr ⟨program, token, rest, accepted, rfl⟩
  next rest rejected =>
    cases failed
    exact .inl ⟨rest, rejected⟩
  next exhausted => exact absurd exhausted (readExpression_ne_outOfSteps stop tokens)

/-- The program that a source text spells. An error in its tokens comes before any error
in their order. -/
def ofSource (source : String) : Except SourceError Expression :=
  match scan source with
  | .error error => .error (.scan error)
  | .ok scanned =>
      match parse scanned.tokens scanned.stop with
      | .error error => .error (.parse error)
      | .ok program => .ok program

theorem ofSource_eq_ok {source : String} {program : Expression}
    (parsed : ofSource source = .ok program) :
    ∃ scanned, scan source = .ok scanned ∧ parse scanned.tokens scanned.stop = .ok program := by
  unfold ofSource at parsed
  split at parsed
  next => cases parsed
  next scanned found =>
    split at parsed
    next => cases parsed
    next read =>
      cases parsed
      exact ⟨scanned, found, read⟩

end Expression

end PipeLang
