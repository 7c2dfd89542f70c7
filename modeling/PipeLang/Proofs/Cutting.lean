import Mathlib
import PipeLang.Proofs.Lexemes

namespace PipeLang

/-! # Scanning is lossless

A text that can be scanned is cut into the texts of its tokens and the gaps between them, and
every token stands where the text before it ends. Nothing of the text is left out.
-/

/-- The position just past a text that stands at the start of a source: one line more than it has
line feeds, and one column more than it has characters behind the last of them. -/
def Location.past (text : List Char) : Location :=
  ⟨1 + text.count '\n', 1 + (text.reverse.takeWhile (· != '\n')).length⟩

theorem Location.past_append_singleton (text : List Char) (character : Char) :
    past (text ++ [character]) = (past text).next character := by
  by_cases feed : character = '\n'
  · simp [past, next, feed, Nat.add_assoc]
  · simp [past, next, feed]
    omega

theorem Location.past_append (before text : List Char) :
    past (before ++ text) = (past before).after text := by
  induction text generalizing before with
  | nil => simp
  | cons character rest ih =>
      have step := ih (before ++ [character])
      rw [past_append_singleton] at step
      simpa using step

theorem Location.past_eq_after (text : List Char) : past text = start.after text :=
  past_append [] text

/-- Blanks and comments. A comment that ends with the source needs no line feed. -/
inductive Gap (last : Bool) : List Char → Prop where
  | nil : Gap last []
  | blank {character : Char} {rest : List Char} (listed : character ∈ [' ', '\t', '\r', '\n'])
      (others : Gap last rest) : Gap last (character :: rest)
  | comment {line rest : List Char} (oneLine : '\n' ∉ line) (others : Gap last rest) :
      Gap last ('-' :: '-' :: (line ++ '\n' :: rest))
  | unfinished {line : List Char} (atEnd : last = true) (oneLine : '\n' ∉ line) :
      Gap last ('-' :: '-' :: line)

/-- The text behind `before` is a gap, the text of the first token, a gap, and so on up to a last
gap, and each token is located where its text starts. -/
inductive Cut : List Char → List Char → List Token → Prop where
  | last {before gap : List Char} (blank : Gap true gap) : Cut before gap []
  | token {before gap text rest : List Char} {token : Token} {tokens : List Token}
      (blank : Gap false gap) (written : token.kind.WrittenAs text)
      (place : token.location = .past (before ++ gap))
      (others : Cut (before ++ gap ++ text) rest tokens) :
      Cut before (gap ++ text ++ rest) (token :: tokens)

/-- What can stand in front of any gap. -/
def Blank (piece : List Char) : Prop :=
  ∀ (last : Bool) (gap : List Char), Gap last gap → Gap last (piece ++ gap)

theorem Cut.behind_blank {before piece rest : List Char} {tokens : List Token} (blank : Blank piece)
    (cut : Cut (before ++ piece) rest tokens) : Cut before (piece ++ rest) tokens := by
  cases cut with
  | last gap => exact .last (blank true _ gap)
  | token gap written place others =>
      have whole := Cut.token (blank false _ gap) written (by simpa using place)
        (by simpa using others)
      simpa using whole

namespace Token

theorem skipComment_eq (here : Location) (text : List Char) :
    ∃ line, '\n' ∉ line ∧
      (text = line ∧ skipComment here text = ⟨none, here.after line, []⟩ ∨
        ∃ rest, text = line ++ '\n' :: rest ∧
          skipComment here text = ⟨none, here.after (line ++ ['\n']), rest⟩) := by
  induction text generalizing here with
  | nil => exact ⟨[], by simp, .inl ⟨rfl, rfl⟩⟩
  | cons character rest ih =>
      unfold skipComment
      by_cases feed : character = '\n'
      · subst feed
        exact ⟨[], by simp, .inr ⟨rest, rfl, rfl⟩⟩
      · rw [if_neg feed]
        obtain ⟨line, oneLine, ⟨rfl, skipped⟩ | ⟨others, rfl, skipped⟩⟩ := ih (here.next character)
        · exact ⟨character :: rest, by simp [oneLine, Ne.symm feed], .inl ⟨rfl, skipped⟩⟩
        · exact ⟨character :: line, by simp [oneLine, Ne.symm feed], .inr ⟨others, rfl, skipped⟩⟩

/-- What was read off the front of a text. -/
inductive FrontRead (here : Location) (consumed : List Char) : Reading (Option Token) → Prop where
  | blank {rest : List Char} (blank : Blank consumed) :
      FrontRead here consumed ⟨none, here.after consumed, rest⟩
  | lastComment (gap : Gap true consumed) : FrontRead here consumed ⟨none, here.after consumed, []⟩
  | token {kind : Kind} {rest : List Char} (written : kind.WrittenAs consumed) :
      FrontRead here consumed ⟨some ⟨here, kind⟩, here.after consumed, rest⟩

theorem skipComment_frontRead (here : Location) (rest : List Char) :
    ∃ consumed, '-' :: '-' :: rest = consumed ++ (skipComment (here.next '-') ('-' :: rest)).rest ∧
      FrontRead here consumed (skipComment (here.next '-') ('-' :: rest)) := by
  obtain ⟨line, oneLine, ⟨rfl, skipped⟩ | ⟨others, rfl, skipped⟩⟩ :=
    skipComment_eq ((here.next '-').next '-') rest
  · have passed : skipComment (here.next '-') ('-' :: rest) =
        ⟨none, here.after ('-' :: '-' :: rest), []⟩ := skipped
    rw [passed]
    exact ⟨'-' :: '-' :: rest, by simp, .lastComment (.unfinished rfl oneLine)⟩
  · have passed : skipComment (here.next '-') ('-' :: (line ++ '\n' :: others)) =
        ⟨none, here.after ('-' :: '-' :: (line ++ ['\n'])), others⟩ := skipped
    rw [passed]
    refine ⟨'-' :: '-' :: (line ++ ['\n']), by simp, .blank ?_⟩
    intro last gap isGap
    simpa using isGap.comment oneLine

theorem fixedText?_of_mem {spelling : List Char} {kind : Kind}
    (listed : (spelling, kind) ∈ fixedSpellings) :
    kind.fixedText? = some (String.ofList spelling) := by
  have each : ∀ entry ∈ fixedSpellings, entry.2.fixedText? = some (String.ofList entry.1) := by
    decide
  exact each _ listed

theorem isPrefixOf_singleton {first character : Char} (different : first ≠ character)
    (rest : List Char) : [character].isPrefixOf (first :: rest) = false := by
  simp [List.isPrefixOf, Ne.symm different]

/-- A text that starts neither with a gap nor with a fixed spelling starts with a word. -/
theorem not_breaksWord {first : Char} {rest : List Char} (notSpace : ¬ isSpace first = true)
    (notComment : ¬ ['-', '-'].isPrefixOf (first :: rest) = true) (notQuote : first ≠ '"')
    (notFixed : fixed? (first :: rest) = none) :
    breaksWord (first :: rest) = false ∧ first ≠ '_' := by
  have absent (sign : List Char) (kind : Kind) (listed : (sign, kind) ∈ fixedSpellings) :
      sign.isPrefixOf (first :: rest) = false :=
    Bool.eq_false_iff.mpr (List.find?_eq_none.mp notFixed (sign, kind) listed)
  have single {character : Char} (different : first ≠ character) :
      [character].isPrefixOf (first :: rest) = false := isPrefixOf_singleton different rest
  simp only [isSpace, Bool.or_eq_true, beq_iff_eq, not_or] at notSpace
  obtain ⟨⟨⟨notBlank, notTab⟩, notReturn⟩, notFeed⟩ := notSpace
  refine ⟨?_, ?_⟩
  · simp only [breaksWord, List.isEmpty_cons, Bool.false_or, wordBreaks, List.any_cons, List.any_nil,
      Bool.or_false, Bool.or_eq_false_iff]
    exact ⟨single notBlank, single notTab, single notReturn, single notFeed,
      absent _ .leftParen (by decide), absent _ .rightParen (by decide),
      absent _ .comma (by decide), single notQuote, absent _ .arrow (by decide),
      absent _ .pipeline (by decide), absent _ .assign (by decide), Bool.eq_false_iff.mpr notComment⟩
  · rintro rfl
    have wrong : ['_'].isPrefixOf ('_' :: rest) = false := absent _ .shorthand (by decide)
    simp [List.isPrefixOf] at wrong

/-- What the front of a text can be, and what comes of reading it. -/
inductive FrontCase (here : Location) (first : Char) (rest : List Char) :
    Except ScanError (Reading (Option Token)) → Prop where
  | space (space : isSpace first = true) :
      FrontCase here first rest (.ok ⟨none, here.next first, rest⟩)
  | comment (notSpace : ¬ isSpace first = true)
      (dashes : ['-', '-'].isPrefixOf (first :: rest) = true) :
      FrontCase here first rest (.ok (skipComment (here.next first) rest))
  | string {inner : Reading (List Char)} (quote : first = '"')
      (found : readString here (here.next first) rest = .ok inner) :
      FrontCase here first rest
        (.ok ⟨some ⟨here, .string (String.ofList inner.content)⟩, inner.location, inner.rest⟩)
  | brokenString {failure : ScanError} (quote : first = '"')
      (failed : readString here (here.next first) rest = .error failure) :
      FrontCase here first rest (.error failure)
  | fixed {spelling : List Char} {kind : Kind} (notSpace : ¬ isSpace first = true)
      (notComment : ¬ ['-', '-'].isPrefixOf (first :: rest) = true) (notQuote : first ≠ '"')
      (found : fixed? (first :: rest) = some (spelling, kind)) :
      FrontCase here first rest
        (.ok ⟨some ⟨here, kind⟩, here.after spelling, (first :: rest).drop spelling.length⟩)
  | word {kind : Kind} (notSpace : ¬ isSpace first = true)
      (notComment : ¬ ['-', '-'].isPrefixOf (first :: rest) = true) (notQuote : first ≠ '"')
      (notFixed : fixed? (first :: rest) = none)
      (classified : classify (first :: (splitWord rest).1) = .ok kind) :
      FrontCase here first rest
        (.ok ⟨some ⟨here, kind⟩, here.after (first :: (splitWord rest).1), (splitWord rest).2⟩)
  | brokenWord {cause : ScanCause} (notSpace : ¬ isSpace first = true)
      (notComment : ¬ ['-', '-'].isPrefixOf (first :: rest) = true) (notQuote : first ≠ '"')
      (notFixed : fixed? (first :: rest) = none)
      (failed : classify (first :: (splitWord rest).1) = .error cause) :
      FrontCase here first rest (.error ⟨here, cause⟩)

theorem readFront_cases {here : Location} {first : Char} {rest : List Char}
    {outcome : Except ScanError (Reading (Option Token))}
    (read : readFront here first rest = outcome) : FrontCase here first rest outcome := by
  unfold readFront at read
  subst read
  split
  next space => exact .space space
  next notSpace =>
    split
    next dashes => exact .comment notSpace dashes
    next notComment =>
      split
      next quote =>
        split
        next found => exact .string quote found
        next failed => exact .brokenString quote failed
      next notQuote =>
        split
        next found => exact .fixed notSpace notComment notQuote found
        next notFixed =>
          dsimp only
          split
          next classified => exact .word notSpace notComment notQuote notFixed classified
          next failed => exact .brokenWord notSpace notComment notQuote notFixed failed

theorem FrontCase.readFront_eq {here : Location} {first : Char} {rest : List Char}
    {outcome : Except ScanError (Reading (Option Token))}
    (front : FrontCase here first rest outcome) : readFront here first rest = outcome := by
  cases front with
  | space space => exact if_pos space
  | comment notSpace dashes => rw [readFront, if_neg notSpace, if_pos dashes]
  | string quote found | brokenString quote found =>
      subst quote
      simp [readFront, isSpace, found]
  | fixed notSpace notComment notQuote found =>
      simp [readFront, notSpace, notComment, notQuote, found]
  | word notSpace notComment notQuote notFixed classified
  | brokenWord notSpace notComment notQuote notFixed classified =>
      simp [readFront, notSpace, notComment, notQuote, notFixed, classified]

theorem readFront_frontRead {here : Location} {first : Char} {rest : List Char}
    {reading : Reading (Option Token)} (read : readFront here first rest = .ok reading) :
    ∃ consumed, first :: rest = consumed ++ reading.rest ∧ FrontRead here consumed reading := by
  cases readFront_cases read with
  | space space =>
      refine ⟨[first], rfl, .blank ?_⟩
      intro last gap isGap
      exact .blank (by simpa [isSpace, or_assoc] using space) isGap
  | comment notSpace dashes =>
      obtain ⟨others, starts⟩ := List.isPrefixOf_iff_prefix.mp dashes
      cases starts
      exact skipComment_frontRead here others
  | @string inner quote found =>
      obtain ⟨written, characters, rfl, place⟩ := readString_written found
      refine ⟨'"' :: (written ++ ['"']), by simp [quote], ?_⟩
      have passed : inner.location = here.after ('"' :: (written ++ ['"'])) := by
        rw [place, quote, Location.after_cons]
      rw [passed]
      exact .token (.string characters)
  | @fixed spelling kind notSpace notComment notQuote found =>
      have starts : spelling.isPrefixOf (first :: rest) = true := by
        simpa using List.find?_some found
      obtain ⟨others, same⟩ := List.isPrefixOf_iff_prefix.mp starts
      have written : kind.WrittenAs spelling := by
        simpa using Kind.WrittenAs.fixed (fixedText?_of_mem (fixed?_mem found))
      exact ⟨spelling, by simp [← same], .token written⟩
  | word notSpace notComment notQuote notFixed classified =>
      have parts : first :: rest = (first :: (splitWord rest).1) ++ (splitWord rest).2 := by
        rw [List.cons_append, splitWord_append]
      obtain ⟨continues, notShorthand⟩ := not_breaksWord notSpace notComment notQuote notFixed
      rw [parts] at continues
      have unbroken := (splitWord_unbroken rest).cons continues
      exact ⟨_, parts, .token (classify_written unbroken notShorthand classified)⟩

end Token

theorem scanFrom_cut {here : Location} {before text : List Char} {scanned : Scanned}
    (place : here = .past before) (succeeded : scanFrom here text = .ok scanned) :
    Cut before text scanned.tokens ∧ scanned.stop = .past (before ++ text) := by
  fun_induction scanFrom here text generalizing before scanned with
  | case1 here =>
      cases succeeded
      exact ⟨.last .nil, by simpa using place⟩
  | case2 => cases succeeded
  | case3 here first rest reading front _ ih =>
      cases inner : scanFrom reading.location reading.rest with
      | error failure => simp [inner, Except.map] at succeeded
      | ok others =>
          simp only [inner, Except.map, Except.ok.injEq] at succeeded
          subst succeeded
          subst place
          obtain ⟨consumed, same, read⟩ := Token.readFront_frontRead front
          rw [same]
          cases read with
          | blank blank =>
              obtain ⟨cut, stop⟩ := ih (Location.past_append before consumed).symm inner
              exact ⟨cut.behind_blank blank, by simpa [Scanned.behind] using stop⟩
          | lastComment gap =>
              rw [scanFrom_nil] at inner
              cases inner
              have whole : Cut before consumed [] := .last gap
              exact ⟨by simpa [Scanned.behind] using whole,
                by simp [Scanned.behind, Location.past_append]⟩
          | @token kind remaining written =>
              obtain ⟨cut, stop⟩ := ih (Location.past_append before consumed).symm inner
              have whole : Cut before (consumed ++ remaining)
                  (⟨.past before, kind⟩ :: others.tokens) :=
                .token .nil written (by simp) (by simpa using cut)
              exact ⟨whole, by simpa [Scanned.behind] using stop⟩

/-- A source that can be scanned is cut into tokens and gaps, and it ends where its characters do. -/
theorem scan_lossless (source : String) (scanned : Scanned) (succeeded : scan source = .ok scanned) :
    Cut [] source.toList scanned.tokens ∧ scanned.stop = .past source.toList :=
  scanFrom_cut rfl succeeded

/-- Words that touch operators and a comment, and a string with escapes on two lines. -/
def touchingSource : String := "a_->b--c\n\"\\x4a\n\\n\"|>true--"

theorem scan_lossless_touching :
    ∃ scanned, scan touchingSource = .ok scanned ∧ scanned.tokens.length = 6 ∧
      Cut [] touchingSource.toList scanned.tokens ∧
      scanned.stop = .past touchingSource.toList := by
  have succeeded : scan touchingSource =
      .ok ⟨[⟨⟨1, 1⟩, .identifier "a_"⟩, ⟨⟨1, 3⟩, .assign⟩, ⟨⟨1, 5⟩, .identifier "b"⟩,
        ⟨⟨2, 1⟩, .string "J\n\n"⟩, ⟨⟨3, 4⟩, .pipeline⟩, ⟨⟨3, 6⟩, .boolean true⟩], ⟨3, 12⟩⟩ := by
    cbv
  obtain ⟨cut, stop⟩ := scan_lossless touchingSource _ succeeded
  exact ⟨_, succeeded, rfl, cut, stop⟩

end PipeLang
