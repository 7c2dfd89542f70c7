import PipeLang.Proofs.Recognition

namespace PipeLang

/-! # Where scanning fails

A text that cannot be scanned is cut in two: what comes before the offending part, and that part
with all that follows. The error stands at the cut. A word or a string offends where everything
before it can be scanned; an escape offends inside a string that is not closed before it. So the
error that is reported is the first one there is.
-/

namespace Token

/-- Whatever ends in front of the first text ends in front of the second one too. -/
structure EndsLike (following others : List Char) : Prop where
  nonempty : following ≠ []
  breaks : breaksWord following = true → breaksWord others = true
  head : ∀ character, others.head? = some character → following.head? = some character

theorem wordBreaks_length_le {sign : List Char} (listed : sign ∈ wordBreaks) : sign.length ≤ 2 := by
  have each : ∀ sign ∈ wordBreaks, sign.length ≤ 2 := by decide
  exact each sign listed

theorem breaksWord_cons {first : Char} {rest : List Char}
    (breaks : breaksWord (first :: rest) = true) :
    ∃ sign ∈ wordBreaks, sign <+: first :: rest := by
  rw [breaksWord, List.isEmpty_cons, Bool.false_or, List.any_eq_true] at breaks
  obtain ⟨sign, listed, starts⟩ := breaks
  exact ⟨sign, listed, List.isPrefixOf_iff_prefix.mp starts⟩

/-- A sign that reaches at most one character into what follows depends on that character only. -/
theorem starts_of_head {sign piece following others : List Char}
    (short : sign.length ≤ piece.length + 1)
    (head : ∀ character, others.head? = some character → following.head? = some character)
    (starts : sign <+: piece ++ others) : sign <+: piece ++ following := by
  induction piece generalizing sign with
  | nil =>
      match sign, short with
      | [], _ => exact List.nil_prefix
      | [character], _ =>
          obtain ⟨rest, same⟩ := starts
          obtain ⟨later, rfl⟩ :=
            List.head?_eq_some_iff.mp (head character (congrArg List.head? same).symm)
          exact ⟨later, rfl⟩
  | cons first piece ih =>
      cases sign with
      | nil => exact List.nil_prefix
      | cons character sign =>
          rw [List.cons_append, List.cons_prefix_cons] at starts ⊢
          exact ⟨starts.1, ih (Nat.le_of_succ_le_succ short) starts.2⟩

theorem Unbroken.endsLike {word following others : List Char} (unbroken : Unbroken word following)
    (like : EndsLike following others) : Unbroken word others := by
  intro before after same some
  cases after with
  | nil => exact absurd rfl some
  | cons first rest =>
      rw [Bool.eq_false_iff]
      intro breaks
      obtain ⟨sign, listed, starts⟩ := breaksWord_cons breaks
      have short : sign.length ≤ (first :: rest).length + 1 :=
        Nat.le_trans (wordBreaks_length_le listed) (Nat.le_add_left 2 rest.length)
      have stands := List.isPrefixOf_iff_prefix.mpr (starts_of_head short like.head starts)
      have continues := unbroken before (first :: rest) same some
      rw [breaksWord_of_starts listed stands] at continues
      cases continues

theorem breaksWord_splitWord (text : List Char) : breaksWord (splitWord text).2 = true := by
  fun_induction splitWord text with
  | case1 => rfl
  | case2 character rest breaks => exact breaks
  | case3 character rest continues word others split ih =>
      rw [split] at ih
      exact ih

theorem skipComment_endsLike {here : Location} {text : List Char}
    (goesOn : (skipComment here text).rest ≠ []) (others : List Char) :
    ∃ line, text = line ++ (skipComment here text).rest ∧
      (skipComment here text).location = here.after line ∧
      skipComment here (line ++ others) = { skipComment here text with rest := others } := by
  obtain ⟨line, oneLine, ⟨_, skipped⟩ | ⟨remaining, rfl, skipped⟩⟩ := skipComment_eq here text
  · rw [skipped] at goesOn
    exact absurd rfl goesOn
  · rw [skipped]
    refine ⟨line ++ ['\n'], by simp, rfl, ?_⟩
    rw [List.append_assoc]
    exact skipComment_of_line oneLine here others

theorem readFront_fixed_endsLike {here : Location} {first : Char} {rest spelling others : List Char}
    {kind : Kind} (found : fixed? (first :: rest) = some (spelling, kind))
    (like : EndsLike ((first :: rest).drop spelling.length) others) :
    ∃ tail, first :: rest = first :: tail ++ (first :: rest).drop spelling.length ∧
      spelling = first :: tail ∧
      readFront here first (tail ++ others) =
        .ok ⟨some ⟨here, kind⟩, here.after spelling, others⟩ := by
  have listed := fixed?_mem found
  have starts : spelling.isPrefixOf (first :: rest) = true := by
    simpa using List.find?_some found
  obtain ⟨remaining, same⟩ := List.isPrefixOf_iff_prefix.mp starts
  rw [← same, List.drop_left] at like
  have longest : kind = .assign → others.head? ≠ some '>' := by
    intro assigns longer
    subst assigns
    have spelled : spelling = ['-', '>'] := by simpa [fixedSpellings] using listed
    obtain ⟨later, goesOn⟩ := List.head?_eq_some_iff.mp (like.head '>' longer)
    rw [← same, spelled, goesOn] at found
    cases found
  obtain ⟨character, tail, rfl, again⟩ := @readFront_fixed here _ _ _ listed longest
  obtain ⟨rfl, whole⟩ := List.cons.inj same
  exact ⟨tail, by simp [← whole], rfl, again⟩

/-- What was read off the front of a text is also read where it is followed by another text in
front of which it ends as well. -/
theorem readFront_endsLike {here : Location} {first : Char} {rest others : List Char}
    {reading : Reading (Option Token)} (read : readFront here first rest = .ok reading)
    (like : EndsLike reading.rest others) :
    ∃ tail, rest = tail ++ reading.rest ∧ reading.location = here.after (first :: tail) ∧
      readFront here first (tail ++ others) = .ok { reading with rest := others } := by
  cases readFront_cases read with
  | space space => exact ⟨[], rfl, rfl, (FrontCase.space space).readFront_eq⟩
  | comment notSpace dashes =>
      obtain ⟨text, starts⟩ := List.isPrefixOf_iff_prefix.mp dashes
      cases starts
      -- The second dash is no line feed, so the comment goes on behind it.
      have goesOn : (skipComment ((here.next '-').next '-') text).rest ≠ [] := like.nonempty
      obtain ⟨line, same, place, again⟩ := skipComment_endsLike goesOn others
      exact ⟨'-' :: line, congrArg ('-' :: ·) same, place, congrArg Except.ok again⟩
  | string quote found =>
      subst quote
      obtain ⟨written, characters, rfl, place⟩ := readString_written found
      have again := readString_of_characterTexts characters here (here.next '"') others
      refine ⟨written ++ ['"'], by simp, place, ?_⟩
      rw [List.append_assoc, List.singleton_append, place]
      exact (FrontCase.string rfl again).readFront_eq
  | fixed notSpace notComment notQuote found =>
      obtain ⟨tail, same, rfl, again⟩ := readFront_fixed_endsLike found like
      exact ⟨tail, (List.cons.inj same).2, rfl, again⟩
  | word notSpace notComment notQuote notFixed classified =>
      obtain ⟨continues, notShorthand⟩ := not_breaksWord notSpace notComment notQuote notFixed
      have unbroken : Unbroken (first :: (splitWord rest).1) (splitWord rest).2 :=
        (splitWord_unbroken rest).cons (by rwa [splitWord_append])
      have breaks := like.breaks (breaksWord_splitWord rest)
      exact ⟨(splitWord rest).1, (splitWord_append rest).symm, rfl,
        readFront_unbroken (unbroken.endsLike like) breaks notShorthand classified⟩

/-- An odd number of backslashes stands right before, so what follows is escaped. -/
def Escaped (before : List Char) : Prop :=
  (before.reverse.takeWhile (· == '\\')).length % 2 = 1

instance (before : List Char) : Decidable (Escaped before) :=
  inferInstanceAs (Decidable (_ = _))

theorem escaped_append {piece : List Char} (whole : ¬ Escaped piece) (inside : List Char) :
    Escaped (piece ++ inside) ↔ Escaped inside := by
  unfold Escaped at whole ⊢
  rw [List.reverse_append, List.takeWhile_append]
  split
  next all =>
    rw [List.length_append, all]
    omega
  next => rfl

theorem HexDigit.ne {digit : Char} {value : Nat} (spells : HexDigit digit value) {other : Char}
    (different : other.toLower ∉ "0123456789abcdef".toList) : digit ≠ other := by
  intro same
  subst same
  exact different (List.mem_of_getElem? spells)

theorem CharacterText.not_escaped {character : Char} {text : List Char}
    (written : CharacterText character text) : ¬ Escaped text := by
  cases written with
  | plain notQuote notBackslash => simp [Escaped, notBackslash]
  | @named letter _ listed =>
      by_cases backslash : letter = '\\'
      · subst backslash
        decide
      · simp [Escaped, backslash]
  | coded firstDigit secondDigit =>
      have notBackslash := secondDigit.ne (show '\\'.toLower ∉ _ by decide)
      simp [Escaped, notBackslash]

theorem CharacterText.quote_escaped {character : Char} {text inside after : List Char}
    (written : CharacterText character text) (same : text = inside ++ '"' :: after) :
    Escaped inside := by
  cases written with
  | plain notQuote notBackslash =>
      cases inside with
      | nil => simp_all
      | cons first inside => simp at same
  | named listed =>
      rcases inside with _ | ⟨first, _ | ⟨second, inside⟩⟩
      · simp at same
      · obtain ⟨rfl, _⟩ := List.cons.inj same
        decide
      · simp at same
  | coded firstDigit secondDigit =>
      have firstOther := firstDigit.ne (show '"'.toLower ∉ _ by decide)
      have secondOther := secondDigit.ne (show '"'.toLower ∉ _ by decide)
      rcases inside with _ | ⟨_, _ | ⟨_, _ | ⟨_, _ | ⟨_, inside⟩⟩⟩⟩ <;> simp_all

theorem CharacterTexts.quotes_escaped {characters text inside after : List Char}
    (written : CharacterTexts characters text) (same : text = inside ++ '"' :: after) :
    Escaped inside := by
  induction written generalizing inside with
  | nil => simp at same
  | @cons character characters text rest first others ih =>
      rcases List.append_eq_append_iff.mp same with ⟨middle, rfl, later⟩ | ⟨middle, earlier, later⟩
      · rw [escaped_append first.not_escaped]
        exact ih later
      · cases middle with
        | nil =>
            have bare : Escaped [] := ih later.symm
            cases bare
        | cons mark middle =>
            obtain ⟨rfl, _⟩ := List.cons.inj later
            exact first.quote_escaped earlier

theorem startingWith_eq_error {character : Char} {outcome : Except ScanError (Reading (List Char))}
    {failure : ScanError} (failed : startingWith character outcome = .error failure) :
    outcome = .error failure := by
  cases outcome with
  | error other => exact failed
  | ok inner => cases failed

/-- The characters of a string are written out up to the end of the text, or up to a backslash
that begins no escape. -/
inductive Unreadable (opening here : Location) : List Char → ScanError → Prop where
  | unclosed {characters written : List Char} (texts : CharacterTexts characters written) :
      Unreadable opening here written ⟨opening, .unterminatedString⟩
  | escape {characters written rest : List Char} {cause : ScanCause}
      (texts : CharacterTexts characters written) (broken : BrokenEscape rest cause) :
      Unreadable opening here (written ++ '\\' :: rest) ⟨here.after written, cause⟩

theorem Unreadable.cons {opening here : Location} {code : Char} {piece rest : List Char}
    {failure : ScanError} (first : CharacterText code piece)
    (unreadable : Unreadable opening (here.after piece) rest failure) :
    Unreadable opening here (piece ++ rest) failure := by
  cases unreadable with
  | unclosed texts => exact .unclosed (.cons first texts)
  | escape texts broken =>
      have whole : Unreadable opening here _ _ := .escape (.cons first texts) broken
      rwa [Location.after_append, List.append_assoc] at whole

theorem readString_failed {opening here : Location} {text : List Char} {failure : ScanError}
    (failed : readString opening here text = .error failure) :
    Unreadable opening here text failure := by
  induction here, text using readString_induction with
  | nil here =>
      cases failed
      exact .unclosed .nil
  | quote here rest =>
      rw [readString_quote] at failed
      cases failed
  | coded here high low rest code found ih =>
      rw [readString_coded found] at failed
      exact .cons (characterText_of_hexPair? found) (ih (startingWith_eq_error failed))
  | named here letter rest code notCoded found ih =>
      rw [readString_named notCoded found] at failed
      have first := CharacterText.named (namedEscapes_of_escaped? found)
      exact .cons first (ih (startingWith_eq_error failed))
  | plain here character rest notQuote notBackslash ih =>
      rw [readString_plain notQuote notBackslash] at failed
      exact .cons (.plain notQuote notBackslash) (ih (startingWith_eq_error failed))
  | broken here rest cause broken =>
      rw [readString_broken broken] at failed
      cases failed
      exact .escape .nil broken

theorem readString_unclosed {opening here : Location} {characters written : List Char}
    (texts : CharacterTexts characters written) :
    readString opening here written = .error ⟨opening, .unterminatedString⟩ := by
  have read := readString_behind texts opening here []
  rw [List.append_nil] at read
  exact read

theorem readString_escape {opening here : Location} {characters written rest : List Char}
    {cause : ScanCause} (texts : CharacterTexts characters written)
    (broken : BrokenEscape rest cause) :
    readString opening here (written ++ '\\' :: rest) = .error ⟨here.after written, cause⟩ := by
  rw [readString_behind texts, readString_broken broken]
  rfl

theorem classify_failed {word : List Char} {cause : ScanCause}
    (failed : classify word = .error cause) :
    cause = .digitLeadingIdentifier (String.ofList word) ∧
      (∃ first ∈ word.head?, Number.isDigit first = true) ∧ ∀ decimal, ¬ Numeral word decimal := by
  unfold classify at failed
  split at failed
  · cases failed
  · split at failed
    · cases failed
    · split at failed
      next digit =>
        split at failed
        · cases failed
        next unread =>
          cases failed
          refine ⟨rfl, ?_, ?_⟩
          · simpa [Option.any_eq_true] using digit
          · intro decimal numeral
            rw [Number.read?, ofText?_of_numeral numeral] at unread
            cases unread
      next => cases failed

theorem readFront_failed {here : Location} {first : Char} {rest : List Char} {failure : ScanError}
    (failed : readFront here first rest = .error failure) :
    (first = '"' ∧ Unreadable here (here.next '"') rest failure) ∨
      ∃ cause, failure = ⟨here, cause⟩ ∧ classify (first :: (splitWord rest).1) = .error cause := by
  cases readFront_cases failed with
  | brokenString quote unread =>
      subst quote
      exact .inl ⟨rfl, readString_failed unread⟩
  | brokenWord notSpace notComment notQuote notFixed classified =>
      exact .inr ⟨_, rfl, classified⟩

end Token

namespace ScanCause

/-- What is wrong with the offending part of a text. -/
def Marks (offending : List Char) : ScanCause → Prop
  | .digitLeadingIdentifier text =>
      text.toList <+: offending ∧ (∃ first ∈ text.toList.head?, Number.isDigit first = true) ∧
        ∀ decimal, ¬ Token.Numeral text.toList decimal
  | .unterminatedString =>
      ∃ rest, offending = '"' :: rest ∧
        ∀ inside after, rest = inside ++ '"' :: after → Token.Escaped inside
  | .unterminatedEscape =>
      ∃ rest, offending = '\\' :: rest ∧ (rest = [] ∨ rest = ['x'] ∨ ∃ digit, rest = ['x', digit])
  | .unknownEscape letter =>
      ['\\', letter] <+: offending ∧ letter ≠ 'x' ∧
        ∀ meaning, (letter, meaning) ∉ Token.namedEscapes
  | .invalidHexEscape digits =>
      ∃ high low, digits = String.ofList [high, low] ∧ ['\\', 'x', high, low] <+: offending ∧
        ∀ first second, ¬ (Token.HexDigit high first ∧ Token.HexDigit low second)

/-- How the text before the offending part is scanned: to its end, or into a string that it leaves
open. -/
def Follows (outcome : Except ScanError Scanned) : ScanCause → Prop
  | .digitLeadingIdentifier _ | .unterminatedString => ∃ scanned, outcome = .ok scanned
  | .unterminatedEscape | .unknownEscape _ | .invalidHexEscape _ =>
      ∃ opening, outcome = .error ⟨opening, .unterminatedString⟩

/-- Nothing that is added to the end of the text helps. -/
def irreparable : ScanCause → Bool
  | .unknownEscape _ | .invalidHexEscape _ => true
  | _ => false

variable {cause : ScanCause} {offending rest : List Char}

theorem Follows.map {outcome : Except ScanError Scanned} (follows : cause.Follows outcome)
    (change : Scanned → Scanned) : cause.Follows (outcome.map change) := by
  cases cause <;> obtain ⟨result, rfl⟩ := follows <;> exact ⟨_, rfl⟩

/-- What offends begins with a digit, a quotation mark or a backslash. -/
theorem Marks.start (marks : cause.Marks offending) :
    ∃ first rest, offending = first :: rest ∧ first ≠ '>' ∧ first ≠ '-' := by
  cases cause with
  | digitLeadingIdentifier text =>
      obtain ⟨⟨later, rfl⟩, ⟨first, front, digit⟩, _⟩ := marks
      obtain ⟨others, same⟩ := List.head?_eq_some_iff.mp front
      refine ⟨first, others ++ later, by rw [same, List.cons_append], ?_, ?_⟩
      · intro arrow
        exact absurd (arrow ▸ digit) (by decide)
      · intro dash
        exact absurd (dash ▸ digit) (by decide)
  | unterminatedString =>
      obtain ⟨rest, rfl, _⟩ := marks
      exact ⟨'"', rest, rfl, by decide, by decide⟩
  | unterminatedEscape =>
      obtain ⟨rest, rfl, _⟩ := marks
      exact ⟨'\\', rest, rfl, by decide, by decide⟩
  | unknownEscape letter =>
      obtain ⟨⟨later, rfl⟩, _⟩ := marks
      exact ⟨'\\', _, rfl, by decide, by decide⟩
  | invalidHexEscape digits =>
      obtain ⟨high, low, _, ⟨later, rfl⟩, _⟩ := marks
      exact ⟨'\\', _, rfl, by decide, by decide⟩

theorem marks_of_brokenEscape (broken : Token.BrokenEscape rest cause) :
    cause.Marks ('\\' :: rest) := by
  cases broken with
  | @unknown letter rest notCoded unnamed =>
      refine ⟨⟨rest, rfl⟩, notCoded, fun meaning listed => ?_⟩
      rw [(Token.escaped?_of_namedEscapes listed).1] at unnamed
      cases unnamed
  | @invalid high low rest uncoded =>
      refine ⟨high, low, rfl, ⟨rest, rfl⟩, fun first second ⟨firstDigit, secondDigit⟩ => ?_⟩
      rw [Token.hexPair?, Token.hexDigit?_of_hexDigit firstDigit,
        Token.hexDigit?_of_hexDigit secondDigit] at uncoded
      cases uncoded
  | unterminated short => exact ⟨rest, rfl, short⟩

theorem follows_of_brokenEscape (broken : Token.BrokenEscape rest cause) (opening : Location) :
    cause.Follows (.error ⟨opening, .unterminatedString⟩) := by
  cases broken <;> exact ⟨opening, rfl⟩

theorem brokenEscape_append (broken : Token.BrokenEscape rest cause)
    (final : cause.irreparable = true) (more : List Char) :
    Token.BrokenEscape (rest ++ more) cause := by
  cases broken with
  | unknown notCoded unnamed => exact .unknown notCoded unnamed
  | invalid uncoded => exact .invalid uncoded
  | unterminated => cases final

end ScanCause

namespace Token

theorem endsLike_before {before offending : List Char} {cause : ScanCause}
    (marks : cause.Marks offending) : EndsLike (before ++ offending) before := by
  obtain ⟨mark, rest, rfl, notArrow, notDash⟩ := marks.start
  have second :
      ∀ sign ∈ wordBreaks, ∀ character ∈ sign.tail, character = '>' ∨ character = '-' := by
    simp [wordBreaks]
  refine ⟨by simp, ?_, ?_⟩
  · intro breaks
    cases before with
    | nil => rfl
    | cons first others =>
        obtain ⟨sign, listed, starts⟩ := breaksWord_cons breaks
        refine breaksWord_of_starts listed (List.isPrefixOf_iff_prefix.mpr ?_)
        -- A sign that reached the mark would have it behind its first character.
        rcases List.prefix_or_prefix_of_prefix starts (List.prefix_append (first :: others) _) with
          within | ⟨beyond, rfl⟩
        · exact within
        · cases beyond with
          | nil => simp
          | cons character beyond =>
              obtain ⟨rfl, _⟩ :=
                List.cons_prefix_cons.mp ((List.prefix_append_right_inj _).mp starts)
              rcases second _ listed character (by simp) with rfl | rfl
              · exact absurd rfl notArrow
              · exact absurd rfl notDash
  · intro character front
    obtain ⟨others, rfl⟩ := List.head?_eq_some_iff.mp front
    rfl

theorem endsLike_append {text : List Char} (some : text ≠ []) (more : List Char) :
    EndsLike text (text ++ more) := by
  cases text with
  | nil => exact absurd rfl some
  | cons first rest =>
      refine ⟨some, fun breaks => ?_, fun character front => front⟩
      obtain ⟨sign, listed, starts⟩ := breaksWord_cons breaks
      have extended := starts.trans (List.prefix_append (first :: rest) more)
      exact breaksWord_of_starts listed (List.isPrefixOf_iff_prefix.mpr extended)

end Token

/-- The failure of a text that starts at `here` stands at the cut, what is behind the cut offends,
and what is before it is scanned as far as the cause allows. -/
structure Offends (here : Location) (text : List Char) (failure : ScanError) : Prop where
  cut : ∃ before offending, text = before ++ offending ∧ failure.location = here.after before ∧
    failure.cause.Follows (scanFrom here before) ∧ failure.cause.Marks offending
  lasting : failure.cause.irreparable = true →
    ∀ more, scanFrom here (text ++ more) = .error failure

theorem offends_string {here : Location} {rest : List Char} {failure : ScanError}
    (unreadable : Token.Unreadable here (here.next '"') rest failure) :
    Offends here ('"' :: rest) failure := by
  cases unreadable with
  | unclosed texts =>
      refine ⟨⟨[], '"' :: rest, rfl, rfl, ⟨_, scanFrom_nil here⟩, rest, rfl, ?_⟩, nofun⟩
      exact fun inside after same => texts.quotes_escaped same
  | @escape characters written rest cause texts broken =>
      have inString : scanFrom here ('"' :: written) = .error ⟨here, .unterminatedString⟩ :=
        scanFrom_of_readFront_error
          (Token.FrontCase.brokenString rfl (Token.readString_unclosed texts)).readFront_eq
      constructor
      · refine ⟨'"' :: written, '\\' :: rest, rfl, rfl, ?_, cause.marks_of_brokenEscape broken⟩
        rw [inString]
        exact ScanCause.follows_of_brokenEscape broken here
      · intro final more
        have extended := ScanCause.brokenEscape_append broken final more
        have read : Token.readString here (here.next '"') (written ++ '\\' :: (rest ++ more)) =
            .error ⟨(here.next '"').after written, cause⟩ := Token.readString_escape texts extended
        have failed :=
          scanFrom_of_readFront_error (Token.FrontCase.brokenString rfl read).readFront_eq
        simpa using failed

theorem offends_word {here : Location} {first : Char} {rest : List Char} {cause : ScanCause}
    (failed : Token.classify (first :: (Token.splitWord rest).1) = .error cause) :
    Offends here (first :: rest) ⟨here, cause⟩ := by
  obtain ⟨rfl, digit, notNumeral⟩ := Token.classify_failed failed
  refine ⟨⟨[], first :: rest, rfl, rfl, ⟨_, scanFrom_nil here⟩, ?_⟩, nofun⟩
  simp only [ScanCause.Marks, String.toList_ofList]
  exact ⟨⟨(Token.splitWord rest).2, by simp [Token.splitWord_append]⟩, digit, notNumeral⟩

theorem Offends.behind {here : Location} {first : Char} {rest : List Char} {failure : ScanError}
    {reading : Reading (Option Token)} (front : Token.readFront here first rest = .ok reading)
    (offends : Offends reading.location reading.rest failure) :
    Offends here (first :: rest) failure := by
  obtain ⟨⟨before, offending, same, place, follows, marks⟩, lasting⟩ := offends
  have start := marks.start
  constructor
  · have like : Token.EndsLike reading.rest before := same ▸ Token.endsLike_before marks
    obtain ⟨tail, whole, passed, again⟩ := Token.readFront_endsLike front like
    refine ⟨first :: tail ++ before, offending, by simp [whole, same], ?_, ?_, marks⟩
    · rw [place, passed, Location.after_append]
    · rw [List.cons_append, scanFrom_of_readFront_ok again]
      exact follows.map _
  · intro final more
    have some : reading.rest ≠ [] := by
      obtain ⟨mark, others, rfl, _⟩ := start
      simp [same]
    obtain ⟨tail, whole, _, again⟩ :=
      Token.readFront_endsLike front (Token.endsLike_append some more)
    rw [whole, List.cons_append, List.append_assoc, scanFrom_of_readFront_ok again,
      lasting final more]
    rfl

theorem scanFrom_failed {here : Location} {text : List Char} {failure : ScanError}
    (failed : scanFrom here text = .error failure) : Offends here text failure := by
  fun_induction scanFrom here text with
  | case1 => cases failed
  | case2 here first rest other front =>
      cases failed
      rcases Token.readFront_failed front with ⟨rfl, unreadable⟩ | ⟨cause, rfl, classified⟩
      · exact offends_string unreadable
      · exact offends_word classified
  | case3 here first rest reading front _ ih =>
      cases inner : scanFrom reading.location reading.rest with
      | ok others => simp [inner, Except.map] at failed
      | error other =>
          simp only [inner, Except.map, Except.error.injEq] at failed
          subst failed
          exact (ih inner).behind front

/-- The error of a source that cannot be scanned is located where its offending part begins, and
that is the first such part: everything before it can be scanned, up to a string that is still
open where an escape offends. An unknown or invalid escape stays one, whatever is added. -/
theorem scan_fails_at_first_offence {source : String} {failure : ScanError}
    (failed : scan source = .error failure) :
    (∃ before offending, source.toList = before ++ offending ∧ offending ≠ [] ∧
      failure.location = .past before ∧
      failure.cause.Follows (scan (String.ofList before)) ∧ failure.cause.Marks offending) ∧
    (failure.cause.irreparable = true → ∀ more, scan (source ++ more) = .error failure) := by
  obtain ⟨⟨before, offending, same, place, follows, marks⟩, lasting⟩ := scanFrom_failed failed
  constructor
  · obtain ⟨first, rest, rfl, _⟩ := marks.start
    refine ⟨before, _, same, List.cons_ne_nil first rest, ?_, ?_, marks⟩
    · rw [place, Location.past_eq_after]
    · rw [scan, String.toList_ofList]
      exact follows
  · intro final more
    rw [scan, String.toList_append]
    exact lasting final more.toList

/-- A word that begins with a digit behind a lone underscore, and an escape with one digit too few
in a string behind an escaped quotation mark. -/
theorem scan_fails_at_first_offence_twice :
    scan "_1.2.3->x" = .error ⟨⟨1, 2⟩, .digitLeadingIdentifier "1.2.3"⟩ ∧
    (∃ before offending, "_1.2.3->x".toList = before ++ offending ∧ ⟨1, 2⟩ = Location.past before ∧
      (∃ scanned, scan (String.ofList before) = .ok scanned) ∧ "1.2.3".toList <+: offending) ∧
    scan "x -- y\n=>\"\\\"\\x4z" = .error ⟨⟨2, 6⟩, .invalidHexEscape "4z"⟩ ∧
    ∀ more, scan ("x -- y\n=>\"\\\"\\x4z" ++ more) = .error ⟨⟨2, 6⟩, .invalidHexEscape "4z"⟩ := by
  have word : scan "_1.2.3->x" = .error ⟨⟨1, 2⟩, .digitLeadingIdentifier "1.2.3"⟩ := by cbv
  have code : scan "x -- y\n=>\"\\\"\\x4z" = .error ⟨⟨2, 6⟩, .invalidHexEscape "4z"⟩ := by cbv
  obtain ⟨⟨before, offending, same, _, place, follows, starts, _⟩, _⟩ :=
    scan_fails_at_first_offence word
  exact ⟨word, ⟨before, offending, same, place, follows, starts⟩, code,
    (scan_fails_at_first_offence code).2 rfl⟩

end PipeLang
