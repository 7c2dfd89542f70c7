import PipeLang.Token.Scan

namespace PipeLang

/-! # The texts of tokens

Which texts denote a token is said here without regard to how a text is scanned. A word that
scanning takes for a number, a truth value or an identifier is such a text, and so is a string
with its quotation marks.
-/

namespace Token

/-- The letters of the escapes that have one, with the characters they stand for. -/
def namedEscapes : List (Char × Char) :=
  [('a', '\x07'), ('b', '\x08'), ('e', '\x1b'), ('f', '\x0c'), ('n', '\n'), ('r', '\r'),
   ('t', '\t'), ('v', '\x0b'), ('\\', '\\'), ('"', '"')]

/-- The digit stands for a value below sixteen, in either case. -/
def HexDigit (digit : Char) (value : Nat) : Prop :=
  "0123456789abcdef".toList[value]? = some digit.toLower

instance (digit : Char) (value : Nat) : Decidable (HexDigit digit value) :=
  inferInstanceAs (Decidable (_ = _))

/-- The ways to write a character inside a string. -/
inductive CharacterText : Char → List Char → Prop where
  | plain {character : Char} (notQuote : character ≠ '"') (notBackslash : character ≠ '\\') :
      CharacterText character [character]
  | named {letter character : Char} (listed : (letter, character) ∈ namedEscapes) :
      CharacterText character ['\\', letter]
  | coded {first second : Char} {high low : Nat} (firstDigit : HexDigit first high)
      (secondDigit : HexDigit second low) :
      CharacterText (Char.ofNat (16 * high + low)) ['\\', 'x', first, second]

/-- The characters of a string, written one after the other. -/
inductive CharacterTexts : List Char → List Char → Prop where
  | nil : CharacterTexts [] []
  | cons {character : Char} {characters text rest : List Char}
      (first : CharacterText character text) (others : CharacterTexts characters rest) :
      CharacterTexts (character :: characters) (text ++ rest)

/-- Digits, or digits with a point between them, and the decimal number they spell. -/
inductive Numeral : List Char → Number.Decimal → Prop where
  | whole {digits : List Char} (some : digits ≠ []) (all : ∀ digit ∈ digits, Number.isDigit digit) :
      Numeral digits ⟨Number.digitsValue digits, 0⟩
  | fraction {digits places : List Char} (some : digits ≠ [])
      (all : ∀ digit ∈ digits, Number.isDigit digit) (someMore : places ≠ [])
      (allMore : ∀ digit ∈ places, Number.isDigit digit) :
      Numeral (digits ++ '.' :: places)
        ⟨Number.digitsValue (digits ++ places), -places.length⟩

structure IdentifierText (text : List Char) : Prop where
  nonempty : text ≠ []
  start : ∀ first ∈ text.head?, first ≠ '_' ∧ Number.isDigit first = false
  notBoolean : text ≠ "true".toList ∧ text ≠ "false".toList
  noSeparator : ∀ character ∈ text, character ∉ [' ', '\t', '\r', '\n', '(', ')', ',', '"']
  noOperator : ∀ sign ∈ ["=>", "|>", "->", "--"], ¬ sign.toList <:+: text

/-- The kinds that are always written in the same way, with their texts. -/
def Kind.fixedText? : Kind → Option String
  | .leftParen => some "("
  | .rightParen => some ")"
  | .comma => some ","
  | .shorthand => some "_"
  | .arrow => some "=>"
  | .pipeline => some "|>"
  | .assign => some "->"
  | .mutate => some "->>"
  | _ => none

/-- The text denotes a token of the kind. -/
inductive Kind.WrittenAs : Kind → List Char → Prop where
  | fixed {kind : Kind} {text : String} (known : kind.fixedText? = some text) :
      WrittenAs kind text.toList
  | number {text : List Char} {decimal : Number.Decimal} (numeral : Numeral text decimal) :
      WrittenAs (.number decimal.toFloat) text
  | true : WrittenAs (.boolean true) "true".toList
  | false : WrittenAs (.boolean false) "false".toList
  | string {characters text : List Char} (written : CharacterTexts characters text) :
      WrittenAs (.string (String.ofList characters)) ('"' :: (text ++ ['"']))
  | identifier {text : List Char} (valid : IdentifierText text) :
      WrittenAs (.identifier (String.ofList text)) text

theorem namedEscapes_of_escaped? {letter character : Char}
    (found : escaped? letter = some character) : (letter, character) ∈ namedEscapes := by
  unfold escaped? at found
  split at found <;> cases found <;> decide

theorem hexDigit_of_hexDigit? {digit : Char} {value : Nat} (found : hexDigit? digit = some value) :
    HexDigit digit value := by
  have span (first last : Char) (offset : Nat)
      (listed : ∀ step ≤ last.toNat - first.toNat,
        HexDigit (Char.ofNat (first.toNat + step)) (step + offset))
      (range : first ≤ digit ∧ digit ≤ last) : HexDigit digit (digit.toNat - first.toNat + offset) := by
    have lower : first.toNat ≤ digit.toNat := range.1
    have upper : digit.toNat ≤ last.toNat := range.2
    have settled := listed (digit.toNat - first.toNat) (by omega)
    rwa [Nat.add_sub_cancel' lower, Char.ofNat_toNat] at settled
  unfold hexDigit? at found
  split at found
  next range =>
    cases found
    exact span '0' '9' 0 (by decide) range
  next =>
    split at found
    next range =>
      cases found
      exact span 'a' 'f' 10 (by decide) range
    next =>
      split at found
      next range =>
        cases found
        exact span 'A' 'F' 10 (by decide) range
      next => cases found

theorem characterText_of_hexPair? {first second code : Char}
    (found : hexPair? first second = some code) :
    CharacterText code ['\\', 'x', first, second] := by
  cases firstFound : hexDigit? first with
  | none => simp [hexPair?, firstFound] at found
  | some high =>
      cases secondFound : hexDigit? second with
      | none => simp [hexPair?, firstFound, secondFound] at found
      | some low =>
          simp only [hexPair?, firstFound, secondFound, Option.bind_eq_bind, Option.bind_some,
            Option.pure_def, Option.some.injEq] at found
          subst found
          exact .coded (hexDigit_of_hexDigit? firstFound) (hexDigit_of_hexDigit? secondFound)

section Strings

variable {opening here : Location} {character code high low letter : Char} {rest : List Char}

theorem readString_quote : readString opening here ('"' :: rest) = .ok ⟨[], here.next '"', rest⟩ := by
  unfold readString
  rfl

theorem readString_coded (found : hexPair? high low = some code) :
    readString opening here ('\\' :: 'x' :: high :: low :: rest) =
      startingWith code (readString opening (here.after ['\\', 'x', high, low]) rest) := by
  rw [readString.eq_def]
  simp [found]

theorem readString_named (notCoded : letter ≠ 'x') (found : escaped? letter = some code) :
    readString opening here ('\\' :: letter :: rest) =
      startingWith code (readString opening (here.after ['\\', letter]) rest) := by
  rw [readString.eq_def]
  simp [notCoded, found]

theorem readString_plain (notQuote : character ≠ '"') (notBackslash : character ≠ '\\') :
    readString opening here (character :: rest) =
      startingWith character (readString opening (here.next character) rest) := by
  rw [readString.eq_def]
  simp [notQuote, notBackslash]

end Strings

/-- What follows a backslash is no escape, for one of these reasons. -/
inductive BrokenEscape : List Char → ScanCause → Prop where
  | unknown {letter : Char} {rest : List Char} (notCoded : letter ≠ 'x')
      (unnamed : escaped? letter = none) : BrokenEscape (letter :: rest) (.unknownEscape letter)
  | invalid {high low : Char} {rest : List Char} (uncoded : hexPair? high low = none) :
      BrokenEscape ('x' :: high :: low :: rest) (.invalidHexEscape (String.ofList [high, low]))
  | unterminated {rest : List Char}
      (short : rest = [] ∨ rest = ['x'] ∨ ∃ digit, rest = ['x', digit]) :
      BrokenEscape rest .unterminatedEscape

theorem readString_broken {opening here : Location} {rest : List Char} {cause : ScanCause}
    (broken : BrokenEscape rest cause) :
    readString opening here ('\\' :: rest) = .error ⟨here, cause⟩ := by
  rw [readString.eq_def]
  cases broken with
  | unknown notCoded unnamed => simp [notCoded, unnamed]
  | invalid uncoded => simp [uncoded]
  | unterminated short => rcases short with rfl | rfl | ⟨digit, rfl⟩ <;> rfl

/-- Induction along the characters of a string, up to its end or to an escape that is none. -/
theorem readString_induction {motive : Location → List Char → Prop}
    (nil : ∀ here, motive here []) (quote : ∀ here rest, motive here ('"' :: rest))
    (coded : ∀ here high low rest code, hexPair? high low = some code →
      motive (here.after ['\\', 'x', high, low]) rest →
      motive here ('\\' :: 'x' :: high :: low :: rest))
    (named : ∀ here letter rest code, letter ≠ 'x' → escaped? letter = some code →
      motive (here.after ['\\', letter]) rest → motive here ('\\' :: letter :: rest))
    (plain : ∀ here character rest, character ≠ '"' → character ≠ '\\' →
      motive (here.next character) rest → motive here (character :: rest))
    (broken : ∀ here rest cause, BrokenEscape rest cause → motive here ('\\' :: rest))
    (here : Location) (text : List Char) : motive here text := by
  induction size : text.length using Nat.strongRecOn generalizing here text with
  | ind length ih =>
      rcases text with _ | ⟨character, rest⟩
      · exact nil here
      by_cases isQuote : character = '"'
      · subst isQuote
        exact quote here rest
      by_cases isBackslash : character ≠ '\\'
      · refine plain here character rest isQuote isBackslash (ih rest.length ?_ _ rest rfl)
        simp [← size]
      obtain rfl : character = '\\' := Decidable.not_not.mp isBackslash
      rcases rest with _ | ⟨letter, rest⟩
      · exact broken here [] _ (.unterminated (.inl rfl))
      by_cases isCode : letter = 'x'
      · subst isCode
        rcases rest with _ | ⟨high, _ | ⟨low, rest⟩⟩
        · exact broken here _ _ (.unterminated (.inr (.inl rfl)))
        · exact broken here _ _ (.unterminated (.inr (.inr ⟨high, rfl⟩)))
        cases found : hexPair? high low with
        | some code =>
            refine coded here high low rest code found (ih rest.length ?_ _ rest rfl)
            simp only [← size, List.length_cons]
            omega
        | none => exact broken here _ _ (.invalid found)
      · cases found : escaped? letter with
        | some code =>
            refine named here letter rest code isCode found (ih rest.length ?_ _ rest rfl)
            simp only [← size, List.length_cons]
            omega
        | none => exact broken here _ _ (.unknown isCode found)

/-- A string that is read to its end is written as its characters and a quotation mark. -/
theorem readString_written {opening here : Location} {text : List Char}
    {reading : Reading (List Char)} (succeeded : readString opening here text = .ok reading) :
    ∃ written, CharacterTexts reading.content written ∧
      text = written ++ '"' :: reading.rest ∧
      reading.location = here.after (written ++ ['"']) := by
  -- Every way to write a character goes on with the rest of the string behind it.
  have onward {code : Char} {piece rest : List Char} {here : Location}
      {reading : Reading (List Char)} (first : CharacterText code piece)
      (ih : ∀ {inner : Reading (List Char)}, readString opening (here.after piece) rest = .ok inner →
        ∃ written, CharacterTexts inner.content written ∧ rest = written ++ '"' :: inner.rest ∧
          inner.location = (here.after piece).after (written ++ ['"']))
      (found : startingWith code (readString opening (here.after piece) rest) = .ok reading) :
      ∃ written, CharacterTexts reading.content written ∧
        piece ++ rest = written ++ '"' :: reading.rest ∧
        reading.location = here.after (written ++ ['"']) := by
    obtain ⟨inner, read, rfl⟩ := startingWith_eq_ok found
    obtain ⟨written, others, same, place⟩ := ih read
    refine ⟨piece ++ written, .cons first others, by simp [same], ?_⟩
    rw [List.append_assoc, Location.after_append]
    exact place
  induction here, text using readString_induction generalizing reading with
  | nil => cases succeeded
  | quote here rest =>
      rw [readString_quote] at succeeded
      cases succeeded
      exact ⟨[], .nil, rfl, rfl⟩
  | coded here high low rest code found ih =>
      rw [readString_coded found] at succeeded
      exact onward (characterText_of_hexPair? found) ih succeeded
  | named here letter rest code notCoded found ih =>
      rw [readString_named notCoded found] at succeeded
      exact onward (.named (namedEscapes_of_escaped? found)) ih succeeded
  | plain here character rest notQuote notBackslash ih =>
      rw [readString_plain notQuote notBackslash] at succeeded
      exact onward (.plain notQuote notBackslash) ih succeeded
  | broken here rest cause broken =>
      rw [readString_broken broken] at succeeded
      cases succeeded

/-- No word break stands in front of any part of the word. -/
def Unbroken (word others : List Char) : Prop :=
  ∀ before after : List Char, word = before ++ after → after ≠ [] →
    breaksWord (after ++ others) = false

theorem Unbroken.cons {first : Char} {word others : List Char} (unbroken : Unbroken word others)
    (continues : breaksWord (first :: (word ++ others)) = false) :
    Unbroken (first :: word) others := by
  intro before after same some
  cases before with
  | nil =>
      rw [List.nil_append] at same
      simpa [← same] using continues
  | cons character before =>
      obtain ⟨-, rest⟩ := List.cons.inj same
      exact unbroken before after rest some

theorem splitWord_unbroken (text : List Char) :
    Unbroken (splitWord text).1 (splitWord text).2 := by
  have empty (others : List Char) : Unbroken [] others := by
    intro before after same some
    exact absurd (List.append_eq_nil_iff.mp same.symm).2 some
  fun_induction splitWord text with
  | case1 => exact empty []
  | case2 character rest => exact empty (character :: rest)
  | case3 character rest continues word others split ih =>
      have whole := splitWord_append rest
      rw [split] at ih whole
      exact ih.cons (by simpa [whole] using continues)

theorem breaksWord_of_starts {sign text : List Char} (listed : sign ∈ wordBreaks)
    (starts : sign.isPrefixOf text = true) : breaksWord text = true := by
  rw [breaksWord, Bool.or_eq_true, List.any_eq_true]
  exact .inr ⟨sign, listed, starts⟩

theorem Unbroken.not_break {word others sign : List Char} (unbroken : Unbroken word others)
    (listed : sign ∈ wordBreaks) : ¬ sign <:+: word := by
  rintro ⟨before, after, same⟩
  have some : sign ++ after ≠ [] := by
    intro empty
    rw [(List.append_eq_nil_iff.mp empty).1] at listed
    revert listed
    decide
  have continues := unbroken before (sign ++ after) (by simp [← same]) some
  have stands : sign.isPrefixOf (sign ++ after ++ others) = true := by
    rw [List.isPrefixOf_iff_prefix, List.append_assoc]
    exact List.prefix_append sign (after ++ others)
  rw [breaksWord_of_starts listed stands] at continues
  cases continues

theorem isDigits_iff {text : List Char} :
    Number.isDigits text = true ↔ text ≠ [] ∧ ∀ digit ∈ text, Number.isDigit digit := by
  simp [Number.isDigits]

theorem numeral_of_ofText? {text : List Char} {decimal : Number.Decimal}
    (read : Number.Decimal.ofText? text = some decimal) : Numeral text decimal := by
  have whole : text.takeWhile (· != '.') ++ text.dropWhile (· != '.') = text :=
    List.takeWhile_append_dropWhile
  have point := List.head?_dropWhile_not (· != '.') text
  unfold Number.Decimal.ofText? at read
  split at read
  next none =>
    simp only at read
    split at read
    next digits =>
      cases read
      obtain ⟨some, all⟩ := isDigits_iff.mp digits
      rw [none, List.append_nil] at whole
      rw [whole] at some all ⊢
      exact .whole some all
    next => cases read
  next separator places found =>
    rw [found] at whole point
    have isPoint : separator = '.' := by simpa using point
    simp only at read
    split at read
    next digits =>
      cases read
      rw [Bool.and_eq_true, isDigits_iff, isDigits_iff] at digits
      obtain ⟨⟨some, all⟩, someMore, allMore⟩ := digits
      rw [isPoint] at whole
      have numeral := Numeral.fraction some all someMore allMore
      rwa [whole] at numeral
    next => cases read

theorem classify_written {first : Char} {word others : List Char} {kind : Kind}
    (unbroken : Unbroken (first :: word) others) (notShorthand : first ≠ '_')
    (classified : classify (first :: word) = .ok kind) : kind.WrittenAs (first :: word) := by
  unfold classify at classified
  split at classified
  next same =>
    cases classified
    rw [same]
    exact .true
  next notTrue =>
    split at classified
    next same =>
      cases classified
      rw [same]
      exact .false
    next notFalse =>
      split at classified
      next digit =>
        split at classified
        next value read =>
          cases classified
          obtain ⟨decimal, spelled, rfl⟩ := Option.map_eq_some_iff.mp read
          exact .number (numeral_of_ofText? spelled)
        next => cases classified
      next notDigit =>
        cases classified
        refine .identifier ⟨List.cons_ne_nil first word, ?_, ⟨notTrue, notFalse⟩, ?_, ?_⟩
        · rintro character ⟨⟩
          exact ⟨notShorthand, by simpa using notDigit⟩
        · have listed : ∀ character ∈ [' ', '\t', '\r', '\n', '(', ')', ',', '"'],
              [character] ∈ wordBreaks := by simp [wordBreaks]
          intro character member separator
          obtain ⟨before, after, same⟩ := List.append_of_mem member
          exact unbroken.not_break (listed character separator) ⟨before, after, by simp [same]⟩
        · intro sign member
          refine unbroken.not_break ?_
          revert sign
          decide

end Token

end PipeLang
