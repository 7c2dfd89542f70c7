import PipeLang.Proofs.Decoding
import PipeLang.Proofs.Offence
import PipeLang.Proofs.Spacing

namespace PipeLang

/-! # Scanning quoted text

Text that is shown between quotation marks need not be a string of a source. The writer has two
escapes that sources do not have: one for the character with code zero, and one by code point. A
quoted text without them is scanned as the string that it shows; otherwise the first of them is
where scanning fails.
-/

namespace Text

/-- The letter of the escape that a character is written as, if sources do not have this escape. -/
def foreignEscape? : List Char → Option Char
  | '\\' :: '0' :: _ => some '0'
  | '\\' :: 'u' :: _ => some 'u'
  | _ => none

/-- How each of the characters is written has the same meaning in a source. -/
def Native (shows : Char → Bool) (text : List Char) : Prop :=
  ∀ character ∈ text, foreignEscape? (quotedChar shows character) = none

instance (shows : Char → Bool) (text : List Char) : Decidable (Native shows text) :=
  List.decidableBAll _ text

variable {shows : Char → Bool} {character letter : Char} {text piece : List Char}

theorem foreignEscape?_eq_some (foreign : foreignEscape? piece = some letter) :
    (letter = '0' ∨ letter = 'u') ∧ ∃ rest, piece = '\\' :: letter :: rest := by
  unfold foreignEscape? at foreign
  split at foreign
  next rest =>
    cases foreign
    exact ⟨.inl rfl, rest, rfl⟩
  next rest =>
    cases foreign
    exact ⟨.inr rfl, rest, rfl⟩
  next => cases foreign

theorem QuotedCase.characterText (written : QuotedCase character piece)
    (native : foreignEscape? piece = none) : Token.CharacterText character piece := by
  cases written with
  | escape short =>
      have each : ∀ entry ∈ shortEscapes, foreignEscape? ['\\', entry.2] = none →
          (entry.2, entry.1) ∈ Token.namedEscapes := by decide
      exact .named (each _ (mem_shortEscapes short) native)
  | plain long =>
      have other {special : Char} (short : (shortEscape? special).isSome) :
          character ≠ special := by
        rintro rfl
        rw [long] at short
        cases short
      exact .plain (other rfl) (other rfl)
  | coded => cases native

theorem Native.characterTexts (native : Native shows text) :
    Token.CharacterTexts text (text.flatMap (quotedChar shows)) := by
  induction text with
  | nil => exact .nil
  | cons character text ih =>
      obtain ⟨first, others⟩ := List.forall_mem_cons.mp native
      exact .cons ((quotedChar_cases shows character).characterText first) (ih others)

/-- A text that is not written natively has a first character that is to blame. -/
theorem exists_first_foreign (foreign : ¬ Native shows text) :
    ∃ before character after letter, text = before ++ character :: after ∧ Native shows before ∧
      foreignEscape? (quotedChar shows character) = some letter := by
  induction text with
  | nil => exact absurd nofun foreign
  | cons first text ih =>
      cases here : foreignEscape? (quotedChar shows first) with
      | some letter => exact ⟨[], first, text, letter, rfl, nofun, here⟩
      | none =>
          have later : ¬ Native shows text := fun native =>
            foreign (List.forall_mem_cons.mpr ⟨here, native⟩)
          obtain ⟨before, character, after, letter, rfl, native, found⟩ := ih later
          exact ⟨first :: before, character, after, letter, rfl,
            List.forall_mem_cons.mpr ⟨here, native⟩, found⟩

end Text

section Sources

variable {characters written rest : List Char}

theorem scan_string (texts : Token.CharacterTexts characters written) :
    scan (String.ofList ('"' :: (written ++ ['"']))) =
      .ok ⟨[⟨.start, .string (String.ofList characters)⟩], .past ('"' :: (written ++ ['"']))⟩ := by
  have read := @scanFrom_written .start _ [] _ (.string texts) (.inl rfl)
  rw [List.append_nil, scanFrom_nil, ← Location.past_eq_after] at read
  rw [scan, String.toList_ofList, read]
  rfl

theorem scan_broken_string {cause : ScanCause} (texts : Token.CharacterTexts characters written)
    (broken : Token.BrokenEscape rest cause) :
    scan (String.ofList ('"' :: (written ++ '\\' :: rest))) =
      .error ⟨.past ('"' :: written), cause⟩ := by
  have read := @Token.readString_escape .start (Location.start.next '"') _ _ _ _ texts broken
  rw [← Location.after_cons, ← Location.past_eq_after] at read
  have front : Token.readFront .start '"' (written ++ '\\' :: rest) =
      .error ⟨.past ('"' :: written), cause⟩ := by
    simp [Token.readFront, Token.isSpace, read]
  rw [scan, String.toList_ofList, scanFrom_of_readFront_error front]

end Sources

/-- Whatever characters the writer shows as they are, quoted text that is written natively is
scanned as one string, and in other quoted text scanning fails at the first foreign escape. -/
theorem scan_quoted (shows : Char → Bool) (text : String) :
    (Text.Native shows text.toList →
      scan (String.ofList (Text.quoteWith shows text.toList)) =
        .ok ⟨[⟨⟨1, 1⟩, .string text⟩], .past (Text.quoteWith shows text.toList)⟩) ∧
    (¬ Text.Native shows text.toList →
      ∃ before character after letter, text.toList = before ++ character :: after ∧
        Text.Native shows before ∧
        Text.foreignEscape? (Text.quotedChar shows character) = some letter ∧
        (letter = '0' ∨ letter = 'u') ∧
        scan (String.ofList (Text.quoteWith shows text.toList)) =
          .error ⟨.past ('"' :: before.flatMap (Text.quotedChar shows)),
            .unknownEscape letter⟩) := by
  constructor
  · intro native
    rw [Text.quoteWith, scan_string native.characterTexts, String.ofList_toList]
    rfl
  · intro foreign
    obtain ⟨before, character, after, letter, split, native, found⟩ :=
      Text.exists_first_foreign foreign
    obtain ⟨known, rest, written⟩ := Text.foreignEscape?_eq_some found
    refine ⟨before, character, after, letter, split, native, found, known, ?_⟩
    have broken (more : List Char) :
        Token.BrokenEscape (letter :: more) (.unknownEscape letter) := by
      rcases known with rfl | rfl <;> exact .unknown (by decide) rfl
    have source : Text.quoteWith shows text.toList =
        '"' :: (before.flatMap (Text.quotedChar shows) ++
          '\\' :: letter :: (rest ++ after.flatMap (Text.quotedChar shows) ++ ['"'])) := by
      simp [Text.quoteWith, split, written]
    rw [source, scan_broken_string native.characterTexts (broken _)]

/-- Only control characters do not show: quotation marks, a backslash and an accented letter come
back, and so would a tab, but not the character with code one. -/
theorem scan_quoted_accented :
    scan (String.ofList (Text.quoteWith (' ' ≤ ·) "\"\\\"é".toList)) =
      .ok ⟨[⟨⟨1, 1⟩, .string "\"\\\"é"⟩], ⟨1, 10⟩⟩ ∧
    scan (String.ofList (Text.quoteWith (' ' ≤ ·) "é\t\x01\x00".toList)) =
      .error ⟨⟨1, 5⟩, .unknownEscape 'u'⟩ := by
  constructor
  · exact (scan_quoted (' ' ≤ ·) "\"\\\"é").1 (by decide)
  · obtain ⟨before, character, after, letter, split, native, found, _, failed⟩ :=
      (scan_quoted (' ' ≤ ·) "é\t\x01\x00").2 (by decide)
    have firstTwo : Text.Native (' ' ≤ ·) ['é', '\t'] := by decide
    have third : Text.foreignEscape? (Text.quotedChar (' ' ≤ ·) '\x01') = some 'u' := by decide
    have same : before ++ character :: after = ['é', '\t'] ++ ['\x01', '\x00'] := split.symm
    obtain ⟨rfl, rest⟩ := Text.append_unique
      (fun character => Text.foreignEscape? (Text.quotedChar (' ' ≤ ·) character) ≠ none)
      (fun character listed foreign => foreign (native character listed))
      (fun character listed foreign => foreign (firstTwo character listed))
      (by simp [found]) (by simp [third]) same
    obtain ⟨rfl, -⟩ := List.cons.inj rest
    cases found
    exact failed

end PipeLang
