import PipeLang.Proofs.Cutting

namespace PipeLang

/-! # Reading a token from its text

Whatever text a token is written as, reading the front of a source that starts with it gives the
token and stops behind the text. A word or an operator has to be followed by the end of the source
or by a character that cannot go on with it.
-/

namespace Token

theorem escaped?_of_namedEscapes {letter character : Char}
    (listed : (letter, character) ∈ namedEscapes) :
    escaped? letter = some character ∧ letter ≠ 'x' := by
  have each : ∀ entry ∈ namedEscapes, escaped? entry.1 = some entry.2 ∧ entry.1 ≠ 'x' := by decide
  exact each _ listed

theorem hexDigit?_of_hexDigit {digit : Char} {value : Nat} (spells : HexDigit digit value) :
    hexDigit? digit = some value := by
  have below : value < 16 := (List.getElem?_eq_some_iff.mp spells).1
  have small : digit.toNat < 128 := by
    have ascii : "0123456789abcdef".toList.all (·.toNat < 128) = true := by decide
    have lower := List.all_eq_true.mp ascii digit.toLower (List.mem_of_getElem? spells)
    simp only [decide_eq_true_eq, Char.toLower] at lower
    split at lower
    next capital => exact Nat.lt_of_le_of_lt (UInt32.le_iff_toNat_le.mp capital.2) (by decide)
    next => exact lower
  have each : ∀ value < 16, ∀ code < 128, HexDigit (Char.ofNat code) value →
      hexDigit? (Char.ofNat code) = some value := by decide +kernel
  have found := each value below digit.toNat small
  rw [Char.ofNat_toNat] at found
  exact found spells

/-- Characters that are written out are read, and reading goes on behind them. -/
theorem readString_behind {characters text : List Char} (written : CharacterTexts characters text)
    (opening here : Location) (following : List Char) :
    readString opening here (text ++ following) =
      (readString opening (here.after text) following).map fun reading =>
        { reading with content := characters ++ reading.content } := by
  induction written generalizing here with
  | nil =>
      rw [List.nil_append, Location.after_nil]
      cases readString opening here following <;> rfl
  | @cons character characters text rest first others ih =>
      have onward : readString opening here (text ++ (rest ++ following)) =
          startingWith character (readString opening (here.after text) (rest ++ following)) := by
        cases first with
        | plain notQuote notBackslash => exact readString_plain notQuote notBackslash
        | named listed =>
            obtain ⟨found, notCoded⟩ := escaped?_of_namedEscapes listed
            exact readString_named notCoded found
        | coded firstDigit secondDigit =>
            apply readString_coded
            rw [hexPair?, hexDigit?_of_hexDigit firstDigit, hexDigit?_of_hexDigit secondDigit]
            rfl
      rw [List.append_assoc, onward, ih, Location.after_append]
      cases readString opening ((here.after text).after rest) following <;> rfl

theorem readString_of_characterTexts {characters text : List Char}
    (written : CharacterTexts characters text) (opening here : Location) (following : List Char) :
    readString opening here (text ++ '"' :: following) =
      .ok ⟨characters, here.after (text ++ ['"']), following⟩ := by
  rw [readString_behind written, readString_quote, Location.after_append]
  simp [Except.map]

/-- The characters that cannot be part of a word. -/
def separators : List Char :=
  [' ', '\t', '\r', '\n', '(', ')', ',', '"']

@[simp] theorem mem_separators {character : Char} :
    character ∈ separators ↔ character = ' ' ∨ character = '\t' ∨ character = '\r' ∨
      character = '\n' ∨ character = '(' ∨ character = ')' ∨ character = ',' ∨
      character = '"' := by
  simp [separators]

/-- The text is empty or starts with a separator. -/
def Ends (following : List Char) : Prop :=
  ∀ first ∈ following.head?, first ∈ separators

theorem Ends.breaksWord {following : List Char} (ends : Ends following) :
    breaksWord following = true := by
  cases following with
  | nil => rfl
  | cons first rest =>
      have listed := ends first rfl
      rw [mem_separators] at listed
      rcases listed with rfl | rfl | rfl | rfl | rfl | rfl | rfl | rfl <;> rfl

theorem Unbroken.tail {first : Char} {word others : List Char}
    (unbroken : Unbroken (first :: word) others) : Unbroken word others := by
  intro before after same some
  exact unbroken (first :: before) after (congrArg (first :: ·) same) some

theorem splitWord_of_unbroken {word others : List Char} (unbroken : Unbroken word others)
    (breaks : breaksWord others = true) : splitWord (word ++ others) = (word, others) := by
  induction word with
  | nil =>
      cases others with
      | nil => rfl
      | cons first rest => rw [List.nil_append, splitWord, if_pos breaks]
  | cons first rest ih =>
      have continues := unbroken [] (first :: rest) rfl (List.cons_ne_nil first rest)
      rw [List.cons_append] at continues ⊢
      simp [splitWord, continues, ih unbroken.tail]

/-- Nothing in the text separates it from the rest of a word. -/
structure Plain (text : List Char) : Prop where
  noSeparator : ∀ character ∈ text, character ∉ separators
  noOperator : ∀ sign ∈ ["=>", "|>", "->", "--"], ¬ sign.toList <:+: text

theorem Plain.unbroken {word following : List Char} (plain : Plain word) (ends : Ends following) :
    Unbroken word following := by
  intro before after same some
  cases after with
  | nil => exact absurd rfl some
  | cons first rest =>
      have inner := plain.noSeparator first (by simp [same])
      -- The second character of an operator could only be what follows the word.
      have absent {left right : Char} (inside : ¬ [left, right] <:+: word)
          (outside : right ∉ separators) :
          [left, right].isPrefixOf (first :: (rest ++ following)) = false := by
        rw [Bool.eq_false_iff]
        intro starts
        obtain ⟨others, parts⟩ := List.isPrefixOf_iff_prefix.mp starts
        obtain ⟨rfl, behind⟩ := List.cons.inj parts
        cases rest with
        | nil =>
            have starts : following = right :: others := behind.symm
            exact outside (ends right (by rw [starts]; rfl))
        | cons second rest =>
            obtain ⟨rfl, _⟩ := List.cons.inj behind
            exact inside ⟨before, rest, by simp [same]⟩
      have single {character : Char} (different : first ≠ character) :
          [character].isPrefixOf (first :: (rest ++ following)) = false :=
        isPrefixOf_singleton different (rest ++ following)
      simp only [mem_separators, not_or] at inner
      obtain ⟨blank, tab, carriage, feed, left, right, comma, quote⟩ := inner
      simp only [List.cons_append, breaksWord, List.isEmpty_cons, Bool.false_or, wordBreaks,
        List.any_cons, List.any_nil, Bool.or_false, Bool.or_eq_false_iff]
      exact ⟨single blank, single tab, single carriage, single feed, single left, single right,
        single comma, single quote, absent (plain.noOperator "=>" (by decide)) (by decide),
        absent (plain.noOperator "|>" (by decide)) (by decide),
        absent (plain.noOperator "->" (by decide)) (by decide),
        absent (plain.noOperator "--" (by decide)) (by decide)⟩

theorem Numeral.digit_or_point {text : List Char} {decimal : Number.Decimal}
    (numeral : Numeral text decimal) :
    ∀ character ∈ text, Number.isDigit character ∨ character = '.' := by
  cases numeral with
  | whole some all => exact fun character member => .inl (all character member)
  | fraction some all someMore allMore =>
      intro character member
      rcases List.mem_append.mp member with before | after
      · exact .inl (all character before)
      · rcases List.mem_cons.mp after with rfl | later
        · exact .inr rfl
        · exact .inl (allMore character later)

theorem ofText?_of_numeral {text : List Char} {decimal : Number.Decimal}
    (numeral : Numeral text decimal) : Number.Decimal.ofText? text = some decimal := by
  have apart {digits : List Char} (all : ∀ digit ∈ digits, Number.isDigit digit) :
      ∀ digit ∈ digits, (digit != '.') = true := by
    intro digit member
    have isDigit := all digit member
    rw [bne_iff_ne]
    rintro rfl
    exact absurd isDigit (by decide)
  cases numeral with
  | whole some all =>
      have digits := isDigits_iff.mpr ⟨some, all⟩
      have none := List.dropWhile_eq_nil_iff.mpr (apart all)
      have every := List.takeWhile_eq_self_iff.mpr (apart all)
      simp [Number.Decimal.ofText?, none, every, digits]
  | fraction some all someMore allMore =>
      have digits := isDigits_iff.mpr ⟨some, all⟩
      have places := isDigits_iff.mpr ⟨someMore, allMore⟩
      simp [Number.Decimal.ofText?, List.takeWhile_append_of_pos (apart all),
        List.dropWhile_append_of_pos (apart all), digits, places]

theorem Numeral.plain {text : List Char} {decimal : Number.Decimal}
    (numeral : Numeral text decimal) : Plain text := by
  have other {character : Char} (isDigit : Number.isDigit character = false)
      (notPoint : character ≠ '.') : character ∉ text := by
    intro member
    rcases numeral.digit_or_point character member with digit | point
    · rw [digit] at isDigit
      cases isDigit
    · exact notPoint point
  constructor
  · intro character member separator
    have each : ∀ separator ∈ separators,
        Number.isDigit separator = false ∧ separator ≠ '.' := by simp [Number.isDigit]
    exact other (each character separator).1 (each character separator).2 member
  · intro sign listed inside
    have each : ∀ sign ∈ ["=>", "|>", "->", "--"], ∃ first ∈ sign.toList,
        Number.isDigit first = false ∧ first ≠ '.' := by simp [Number.isDigit]
    obtain ⟨first, member, isDigit, notPoint⟩ := each sign listed
    exact other isDigit notPoint (inside.subset member)

theorem IdentifierText.plain {text : List Char} (valid : IdentifierText text) : Plain text :=
  ⟨valid.noSeparator, valid.noOperator⟩

theorem Numeral.start {text : List Char} {decimal : Number.Decimal}
    (numeral : Numeral text decimal) :
    ∃ first rest, text = first :: rest ∧ Number.isDigit first = true := by
  cases numeral with
  | whole some all =>
      obtain ⟨first, rest, rfl⟩ := List.exists_cons_of_ne_nil some
      exact ⟨first, rest, rfl, all first (List.mem_cons_self ..)⟩
  | fraction some all =>
      obtain ⟨first, rest, rfl⟩ := List.exists_cons_of_ne_nil some
      exact ⟨first, _, rfl, all first (List.mem_cons_self ..)⟩

theorem Numeral.classify {text : List Char} {decimal : Number.Decimal}
    (numeral : Numeral text decimal) : classify text = .ok (.number decimal.toFloat) := by
  have read : Number.read? text = some decimal.toFloat := by
    rw [Number.read?, ofText?_of_numeral numeral]
    rfl
  obtain ⟨first, rest, rfl, digit⟩ := numeral.start
  have notWord {letter : Char} {others : List Char} (other : Number.isDigit letter = false) :
      first :: rest ≠ letter :: others := by
    rintro ⟨⟩
    rw [digit] at other
    cases other
  rw [Token.classify, if_neg (notWord (by decide)), if_neg (notWord (by decide))]
  simp [digit, read]

theorem IdentifierText.classify {text : List Char} (valid : IdentifierText text) :
    classify text = .ok (.identifier (String.ofList text)) := by
  have notDigit : text.head?.any Number.isDigit = false := by
    cases found : text.head? with
    | none => rfl
    | some first => exact (valid.start first found).2
  have notTrue : text ≠ ['t', 'r', 'u', 'e'] := valid.notBoolean.1
  have notFalse : text ≠ ['f', 'a', 'l', 's', 'e'] := valid.notBoolean.2
  simp [Token.classify, notTrue, notFalse, notDigit]

theorem fixed?_of_continues {first : Char} {rest : List Char}
    (continues : breaksWord (first :: rest) = false) (notShorthand : first ≠ '_') :
    fixed? (first :: rest) = none := by
  have each : ∀ entry ∈ fixedSpellings,
      entry.1 = ['_'] ∨ ∃ sign ∈ wordBreaks, sign <+: entry.1 := by decide
  rw [fixed?, List.find?_eq_none]
  rintro ⟨spelling, kind⟩ listed starts
  rcases each (spelling, kind) listed with rfl | ⟨sign, breaks, front⟩
  · have absent := isPrefixOf_singleton notShorthand rest
    exact Bool.false_ne_true (absent.symm.trans starts)
  · have stands := front.trans (List.isPrefixOf_iff_prefix.mp starts)
    rw [breaksWord_of_starts breaks (List.isPrefixOf_iff_prefix.mpr stands)] at continues
    cases continues

theorem readFront_unbroken {here : Location} {first : Char} {rest following : List Char}
    {kind : Kind} (unbroken : Unbroken (first :: rest) following)
    (breaks : breaksWord following = true) (notShorthand : first ≠ '_')
    (classified : classify (first :: rest) = .ok kind) :
    readFront here first (rest ++ following) =
      .ok ⟨some ⟨here, kind⟩, here.after (first :: rest), following⟩ := by
  have continues : breaksWord (first :: (rest ++ following)) = false :=
    unbroken [] (first :: rest) rfl (List.cons_ne_nil first rest)
  have notFixed := fixed?_of_continues continues notShorthand
  have cut : splitWord (rest ++ following) = (rest, following) :=
    splitWord_of_unbroken unbroken.tail breaks
  have absent {sign : List Char} (listed : sign ∈ wordBreaks) :
      sign.isPrefixOf (first :: (rest ++ following)) = false := by
    rw [Bool.eq_false_iff]
    intro starts
    rw [breaksWord_of_starts listed starts] at continues
    cases continues
  have other {character : Char} (listed : [character] ∈ wordBreaks) : first ≠ character := by
    rintro rfl
    have wrong := absent listed
    simp [List.isPrefixOf] at wrong
  have notSpace : isSpace first = false := by
    simp [isSpace, @other ' ' (by decide), @other '\t' (by decide), @other '\r' (by decide),
      @other '\n' (by decide)]
  have notComment : ['-', '-'].isPrefixOf (first :: (rest ++ following)) = false :=
    absent (by decide)
  have notQuote : first ≠ '"' := other (by decide)
  simp [readFront, notSpace, notComment, notQuote, notFixed, cut, classified]

theorem readFront_word {here : Location} {text following : List Char} {kind : Kind}
    (plain : Plain text) (nonempty : text ≠ []) (start : ∀ first ∈ text.head?, first ≠ '_')
    (classified : classify text = .ok kind) (ends : Ends following) :
    ∃ first rest, text = first :: rest ∧
      readFront here first (rest ++ following) =
        .ok ⟨some ⟨here, kind⟩, here.after text, following⟩ := by
  cases text with
  | nil => exact absurd rfl nonempty
  | cons first rest =>
      exact ⟨first, rest, rfl, readFront_unbroken (plain.unbroken ends) ends.breaksWord
        (start first rfl) classified⟩

theorem readFront_boolean {here : Location} {following : List Char} (value : Bool)
    (ends : Ends following) :
    ∃ first rest, (Text.boolean value).toList = first :: rest ∧
      readFront here first (rest ++ following) =
        .ok ⟨some ⟨here, .boolean value⟩, here.after (Text.boolean value).toList, following⟩ := by
  have plain : Plain (Text.boolean value).toList := by
    cases value <;> exact ⟨by simp [Text.boolean], by decide⟩
  cases value with
  | false => exact readFront_word plain (by decide) (by simp [Text.boolean]) rfl ends
  | true => exact readFront_word plain (by decide) (by simp [Text.boolean]) rfl ends

/-- The tokens next to which a word needs no gap. -/
def Kind.delimits : Kind → Bool
  | .leftParen | .rightParen | .comma | .string _ => true
  | _ => false

theorem mem_of_fixedText? {kind : Kind} {text : String} (known : kind.fixedText? = some text) :
    (text.toList, kind) ∈ fixedSpellings := by
  cases kind <;> cases known <;> simp [fixedSpellings]

theorem fixed?_assign {following : List Char} (notLonger : following.head? ≠ some '>') :
    fixed? ('-' :: '>' :: following) = some (['-', '>'], .assign) := by
  have shorter : ['-', '>', '>'].isPrefixOf ('-' :: '>' :: following) = false := by
    cases following with
    | nil => rfl
    | cons first rest =>
        have different : '>' ≠ first := fun same => notLonger (congrArg some same.symm)
        simp [List.isPrefixOf, different]
  simp [fixed?, fixedSpellings, shorter]

/-- A fixed spelling is read as a whole, unless what follows makes it a longer one. -/
theorem readFront_fixed {here : Location} {spelling following : List Char} {kind : Kind}
    (listed : (spelling, kind) ∈ fixedSpellings)
    (longest : kind = .assign → following.head? ≠ some '>') :
    ∃ first rest, spelling = first :: rest ∧
      readFront here first (rest ++ following) =
        .ok ⟨some ⟨here, kind⟩, here.after spelling, following⟩ := by
  simp only [fixedSpellings, List.mem_cons, Prod.mk.injEq, List.not_mem_nil, or_false] at listed
  rcases listed with ⟨rfl, rfl⟩ | ⟨rfl, rfl⟩ | ⟨rfl, rfl⟩ | ⟨rfl, rfl⟩ | ⟨rfl, rfl⟩ | ⟨rfl, rfl⟩ |
    ⟨rfl, rfl⟩ | ⟨rfl, rfl⟩
  case inr.inl =>
    refine ⟨_, _, rfl, ?_⟩
    simp [readFront, isSpace, fixed?_assign (longest rfl)]
  all_goals exact ⟨_, _, rfl, rfl⟩

theorem readFront_of_written {text following : List Char} {kind : Kind} (here : Location)
    (written : kind.WrittenAs text) (ends : kind.delimits = true ∨ Ends following) :
    ∃ first rest, text = first :: rest ∧
      readFront here first (rest ++ following) =
        .ok ⟨some ⟨here, kind⟩, here.after text, following⟩ := by
  have word (notDelimiter : kind.delimits = false) : Ends following := by
    simpa [notDelimiter] using ends
  cases written with
  | fixed known =>
      refine readFront_fixed (mem_of_fixedText? known) ?_
      rintro rfl longer
      have listed := word rfl '>' longer
      simp at listed
  | number numeral =>
      obtain ⟨first, rest, rfl, digit⟩ := numeral.start
      have notShorthand : first ≠ '_' := by
        rintro rfl
        exact absurd digit (by decide)
      exact readFront_word numeral.plain (List.cons_ne_nil first rest)
        (fun _ member => Option.some.inj member ▸ notShorthand) numeral.classify (word rfl)
  | true => exact readFront_boolean .true (word rfl)
  | false => exact readFront_boolean .false (word rfl)
  | @string characters text written =>
      refine ⟨'"', text ++ ['"'], rfl, ?_⟩
      have read := readString_of_characterTexts written here (here.next '"') following
      simp [readFront, isSpace, read]
  | identifier valid =>
      exact readFront_word valid.plain valid.nonempty
        (fun first member => (valid.start first member).1) valid.classify (word rfl)

theorem skipComment_of_line {line : List Char} (oneLine : '\n' ∉ line) (here : Location)
    (rest : List Char) :
    skipComment here (line ++ '\n' :: rest) = ⟨none, here.after (line ++ ['\n']), rest⟩ := by
  induction line generalizing here with
  | nil => rfl
  | cons character line ih =>
      rw [List.mem_cons, not_or] at oneLine
      rw [List.cons_append, skipComment, if_neg (Ne.symm oneLine.1), ih oneLine.2]
      rfl

theorem delimiter_ends {kind : Kind} {text : List Char} (written : kind.WrittenAs text)
    (delimits : kind.delimits = true) (following : List Char) : Ends (text ++ following) := by
  have starts (first : Char) (rest : List Char) (listed : first ∈ separators) :
      Ends (first :: rest ++ following) :=
    fun _ member => Option.some.inj member ▸ listed
  cases written with
  | fixed known =>
      cases kind with
      | leftParen =>
          cases known
          exact starts '(' [] (by simp)
      | rightParen =>
          cases known
          exact starts ')' [] (by simp)
      | comma =>
          cases known
          exact starts ',' [] (by simp)
      | string => cases known
      | _ => cases delimits
  | string written => exact starts '"' _ (by simp)
  | number | true | false | identifier => cases delimits

end Token

end PipeLang
