import PipeLang.Proofs.Lines
import PipeLang.Proofs.Recognition

namespace PipeLang

/-! # Every way to space tokens

Take the texts of any tokens and put gaps between them. If words are kept apart, and no comment
follows a word without a blank in front of it, then scanning finds exactly these tokens, each
where its text starts.
-/

theorem scanFrom_written {here : Location} {text following : List Char} {kind : Token.Kind}
    (written : kind.WrittenAs text) (ends : kind.delimits = true ∨ Token.Ends following) :
    scanFrom here (text ++ following) =
      (scanFrom (here.after text) following).map (Scanned.following [⟨here, kind⟩]) := by
  obtain ⟨first, rest, rfl, read⟩ := Token.readFront_of_written here written ends
  exact scanFrom_of_readFront_ok read

theorem scanFrom_of_readFront_none {here place : Location} {first : Char} {rest others : List Char}
    (read : Token.readFront here first rest = .ok ⟨none, place, others⟩) :
    scanFrom here (first :: rest) = scanFrom place others := by
  rw [scanFrom_of_readFront_ok read]
  cases scanFrom place others <;> rfl

theorem scanFrom_gap {gap : List Char} (blank : Gap false gap) (here : Location)
    (following : List Char) :
    scanFrom here (gap ++ following) = scanFrom (here.after gap) following := by
  induction blank generalizing here with
  | nil => rfl
  | @blank character rest listed others ih =>
      have space : Token.isSpace character = true := by
        simpa [Token.isSpace, or_assoc] using listed
      have read : Token.readFront here character (rest ++ following) =
          .ok ⟨none, here.next character, rest ++ following⟩ := if_pos space
      exact (scanFrom_of_readFront_none read).trans (ih (here.next character))
  | @comment line rest oneLine others ih =>
      have skipped :=
        Token.skipComment_of_line oneLine ((here.next '-').next '-') (rest ++ following)
      have read : Token.readFront here '-' ('-' :: (line ++ '\n' :: (rest ++ following))) =
          .ok ⟨none, here.after ('-' :: '-' :: (line ++ ['\n'])), rest ++ following⟩ :=
        congrArg Except.ok skipped
      have joined := (scanFrom_of_readFront_none read).trans (ih _)
      simpa using joined
  | unfinished atEnd => cases atEnd

/-- The text of a token and the gap behind it. -/
structure Lexeme where
  kind : Token.Kind
  text : List Char
  gap : List Char
  written : kind.WrittenAs text
  blank : Gap false gap
  /-- A comment does not touch a word. -/
  noComment : kind.delimits = true ∨ ¬ ['-', '-'] <+: gap

namespace Lexeme

def source (lexeme : Lexeme) : List Char :=
  lexeme.text ++ lexeme.gap

/-- Words and operators that are neighbours do not touch. -/
def Parted (lexeme next : Lexeme) : Prop :=
  lexeme.gap = [] → lexeme.kind.delimits = true ∨ next.kind.delimits = true

/-- The tokens of texts that stand behind `before`. -/
def tokensFrom (before : List Char) : List Lexeme → List Token
  | [] => []
  | lexeme :: others =>
      ⟨.past before, lexeme.kind⟩ :: tokensFrom (before ++ lexeme.source) others

theorem ends {lexeme : Lexeme} {others : List Lexeme}
    (parted : (lexeme :: others).IsChain Parted) :
    lexeme.kind.delimits = true ∨ Token.Ends (lexeme.gap ++ others.flatMap source) := by
  obtain ⟨kind, text, gap, written, blank, noComment⟩ := lexeme
  cases blank with
  | nil =>
      cases others with
      | nil => exact .inr fun first member => nomatch member
      | cons next others =>
          rcases (List.isChain_cons_cons.mp parted).1 rfl with delimits | delimits
          · exact .inl delimits
          · have ends :=
              Token.delimiter_ends next.written delimits (next.gap ++ others.flatMap source)
            rw [← List.append_assoc] at ends
            exact .inr ends
  | blank listed =>
      right
      intro first member
      cases member
      exact List.mem_append_left ['(', ')', ',', '"'] listed
  | comment =>
      rcases noComment with delimits | absent
      · exact .inl delimits
      · exact absurd (List.prefix_append ['-', '-'] _) absent
  | unfinished atEnd => cases atEnd

end Lexeme

theorem scanFrom_lexemes {lexemes : List Lexeme} (parted : lexemes.IsChain Lexeme.Parted)
    (before : List Char) :
    scanFrom (.past before) (lexemes.flatMap Lexeme.source) =
      .ok ⟨Lexeme.tokensFrom before lexemes, .past (before ++ lexemes.flatMap Lexeme.source)⟩ := by
  induction lexemes generalizing before with
  | nil => simp [Lexeme.tokensFrom]
  | cons lexeme others ih =>
      have rest := ih parted.tail (before ++ lexeme.source)
      have passed : ((Location.past before).after lexeme.text).after lexeme.gap =
          .past (before ++ lexeme.source) := by
        rw [Lexeme.source, Location.past_append, Location.after_append]
      calc scanFrom (.past before) ((lexeme :: others).flatMap Lexeme.source)
        _ = scanFrom (.past before)
              (lexeme.text ++ (lexeme.gap ++ others.flatMap Lexeme.source)) := by
          rw [List.flatMap_cons, Lexeme.source, List.append_assoc]
        _ = (scanFrom (.past (before ++ lexeme.source)) (others.flatMap Lexeme.source)).map
              (Scanned.following [⟨.past before, lexeme.kind⟩]) := by
          rw [scanFrom_written lexeme.written (Lexeme.ends parted), scanFrom_gap lexeme.blank,
            passed]
        _ = _ := by
          simp [rest, Except.map, Scanned.following, Lexeme.tokensFrom]

/-- However tokens are written and spaced, scanning finds them all, each where its text starts. -/
theorem scan_of_lexemes {gap : List Char} {lexemes : List Lexeme} (blank : Gap false gap)
    (parted : lexemes.IsChain Lexeme.Parted) :
    scan (String.ofList (gap ++ lexemes.flatMap Lexeme.source)) =
      .ok ⟨Lexeme.tokensFrom gap lexemes, .past (gap ++ lexemes.flatMap Lexeme.source)⟩ := by
  rw [scan, String.toList_ofList, scanFrom_gap blank, ← Location.past_eq_after]
  exact scanFrom_lexemes parted gap

def touchingLexemes : List Lexeme :=
  [⟨.leftParen, "(".toList, [], .fixed rfl, .nil, .inl rfl⟩,
    ⟨.identifier (String.ofList ['a', '_']), ['a', '_'], [' '],
      .identifier ⟨by simp, by simp [Number.isDigit], by simp, by simp, by decide⟩,
      .blank (by simp) .nil, .inr (by decide)⟩,
    ⟨.mutate, "->>".toList, [], .fixed rfl, .nil, .inr (by decide)⟩,
    ⟨.string (String.ofList ['J']), '"' :: (['\\', 'x', '4', 'A'] ++ ['"']),
      '-' :: '-' :: ([' ', 'c'] ++ ['\n']),
      .string (.cons (@Token.CharacterText.coded '4' 'A' 4 10 (by decide) (by decide)) .nil),
      .comment (by simp) .nil, .inl rfl⟩,
    ⟨.comma, ",".toList, [], .fixed rfl, .nil, .inl rfl⟩,
    ⟨.number (Number.Decimal.toFloat ⟨15, -1⟩), ['1'] ++ '.' :: ['5'], [],
      .number (.fraction (by simp) (by simp [Number.isDigit]) (by simp) (by simp [Number.isDigit])),
      .nil, .inr (by decide)⟩,
    ⟨.rightParen, ")".toList, [], .fixed rfl, .nil, .inl rfl⟩]

/-- Parentheses, a comma and a string touch what is next to them, and a comment does so too. -/
theorem scan_of_lexemes_touching :
    scan "\t(a_ ->>\"\\x4A\"-- c\n,1.5)" =
      .ok ⟨[⟨⟨1, 2⟩, .leftParen⟩, ⟨⟨1, 3⟩, .identifier "a_"⟩, ⟨⟨1, 6⟩, .mutate⟩,
        ⟨⟨1, 9⟩, .string "J"⟩, ⟨⟨2, 1⟩, .comma⟩,
        ⟨⟨2, 2⟩, .number (Number.Decimal.toFloat ⟨15, -1⟩)⟩, ⟨⟨2, 5⟩, .rightParen⟩], ⟨2, 6⟩⟩ := by
  have blank : Gap false ['\t'] := .blank (by simp) .nil
  have parted : touchingLexemes.IsChain Lexeme.Parted := by
    simp [touchingLexemes, Lexeme.Parted, Token.Kind.delimits]
  have tokens : Lexeme.tokensFrom ['\t'] touchingLexemes =
      [⟨⟨1, 2⟩, .leftParen⟩, ⟨⟨1, 3⟩, .identifier "a_"⟩, ⟨⟨1, 6⟩, .mutate⟩,
        ⟨⟨1, 9⟩, .string "J"⟩, ⟨⟨2, 1⟩, .comma⟩,
        ⟨⟨2, 2⟩, .number (Number.Decimal.toFloat ⟨15, -1⟩)⟩, ⟨⟨2, 5⟩, .rightParen⟩] := by
    rfl
  have text : ['\t'] ++ touchingLexemes.flatMap Lexeme.source =
      "\t(a_ ->>\"\\x4A\"-- c\n,1.5)".toList := by
    rfl
  have found := scan_of_lexemes blank parted
  rw [tokens, text, String.ofList_toList] at found
  exact found

end PipeLang
