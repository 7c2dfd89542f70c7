import Mathlib
import PipeLang.Text.Quoted

namespace PipeLang.Text

/-! # Texts that can be taken apart

A text that is put together from parts can be taken apart again if it shows where each part ends:
at a character that no part contains, or at a part that closes itself, as quoted text does.
-/

section Cuts

variable {Entry : Type} {first second rest other separator : List Entry} {mark : Entry}

/-- A list is cut in one way in front of the first entry of a kind. -/
theorem append_unique (stops : Entry → Prop) (inside : ∀ entry ∈ first, ¬ stops entry)
    (insideToo : ∀ entry ∈ second, ¬ stops entry) (ends : ∀ entry ∈ rest.head?, stops entry)
    (endsToo : ∀ entry ∈ other.head?, stops entry) (same : first ++ rest = second ++ other) :
    first = second ∧ rest = other := by
  induction first generalizing second with
  | nil =>
      cases second with
      | nil => exact ⟨rfl, same⟩
      | cons entry second =>
          have stop := ends entry (by rw [← List.nil_append rest, same]; rfl)
          exact absurd stop (insideToo entry List.mem_cons_self)
  | cons entry first ih =>
      cases second with
      | nil =>
          have stop := endsToo entry (by rw [← List.nil_append other, ← same]; rfl)
          exact absurd stop (inside entry List.mem_cons_self)
      | cons entryToo second =>
          obtain ⟨rfl, onward⟩ := List.cons.inj same
          obtain ⟨rfl, rfl⟩ := ih (fun entry member => inside entry (List.mem_cons_of_mem _ member))
            (fun entry member => insideToo entry (List.mem_cons_of_mem _ member)) onward
          exact ⟨rfl, rfl⟩

theorem append_mark_unique (absent : mark ∉ first) (absentToo : mark ∉ second)
    (same : first ++ mark :: rest = second ++ mark :: other) : first = second ∧ rest = other := by
  have ends (rest : List Entry) : ∀ entry ∈ (mark :: rest).head?, entry = mark := by simp
  obtain ⟨rfl, onward⟩ := append_unique (· = mark)
    (fun entry member isMark => absent (isMark ▸ member))
    (fun entry member isMark => absentToo (isMark ▸ member)) (ends rest) (ends other) same
  exact ⟨rfl, (List.cons.inj onward).2⟩

theorem intercalate_cons_eq (piece : List Entry) (pieces : List (List Entry)) :
    separator.intercalate (piece :: pieces) = piece ++ pieces.flatMap (separator ++ ·) := by
  induction pieces generalizing piece with
  | nil => simp
  | cons next pieces ih => simp [List.intercalate_cons_cons, ih]

theorem mem_intercalate {pieces : List (List Entry)} {entry : Entry}
    (member : entry ∈ separator.intercalate pieces) :
    entry ∈ separator ∨ ∃ piece ∈ pieces, entry ∈ piece := by
  cases pieces with
  | nil => cases member
  | cons piece pieces =>
      rw [intercalate_cons_eq, List.mem_append, List.mem_flatMap] at member
      rcases member with first | ⟨later, listed, inside⟩
      · exact .inr ⟨piece, List.mem_cons_self, first⟩
      · exact (List.mem_append.mp inside).imp_right fun found =>
          ⟨later, List.mem_cons_of_mem _ listed, found⟩

theorem separated_injective {pieces others : List (List Entry)}
    (each : ∀ piece ∈ pieces, mark ∉ piece) (eachToo : ∀ piece ∈ others, mark ∉ piece)
    (same : pieces.flatMap (mark :: separator ++ ·) = others.flatMap (mark :: separator ++ ·)) :
    pieces = others := by
  have ends (pieces : List (List Entry)) :
      ∀ entry ∈ (pieces.flatMap (mark :: separator ++ ·)).head?, entry = mark := by
    cases pieces <;> simp
  induction pieces generalizing others with
  | nil => cases others <;> simp at same ⊢
  | cons piece pieces ih =>
      cases others with
      | nil => simp at same
      | cons pieceToo others =>
          simp only [List.flatMap_cons, List.append_assoc, List.append_cancel_left_eq] at same
          obtain ⟨rfl, onward⟩ := append_unique (· = mark)
            (fun entry member isMark => each piece List.mem_cons_self (isMark ▸ member))
            (fun entry member isMark => eachToo pieceToo List.mem_cons_self (isMark ▸ member))
            (ends pieces) (ends others) same
          rw [ih (fun piece member => each piece (List.mem_cons_of_mem _ member))
            (fun piece member => eachToo piece (List.mem_cons_of_mem _ member)) onward]

/-- Pieces can be told from each other between separators that start with a mark of their own. -/
theorem intercalate_injective {pieces others : List (List Entry)}
    (each : ∀ piece ∈ pieces, piece ≠ [] ∧ mark ∉ piece)
    (eachToo : ∀ piece ∈ others, piece ≠ [] ∧ mark ∉ piece)
    (same : (mark :: separator).intercalate pieces = (mark :: separator).intercalate others) :
    pieces = others := by
  cases pieces with
  | nil =>
      cases others with
      | nil => rfl
      | cons piece others =>
          rw [intercalate_cons_eq] at same
          exact absurd (List.append_eq_nil_iff.mp same.symm).1 (eachToo piece List.mem_cons_self).1
  | cons piece pieces =>
      cases others with
      | nil =>
          rw [intercalate_cons_eq] at same
          exact absurd (List.append_eq_nil_iff.mp same).1 (each piece List.mem_cons_self).1
      | cons pieceToo others =>
          -- With a separator in front of the first pieces as well, all pieces are alike.
          rw [intercalate_cons_eq, intercalate_cons_eq] at same
          have whole : (piece :: pieces).flatMap (mark :: separator ++ ·) =
              (pieceToo :: others).flatMap (mark :: separator ++ ·) := by
            simpa using same
          exact separated_injective (fun piece member => (each piece member).2)
            (fun piece member => (eachToo piece member).2) whole

end Cuts

theorem digitChar_injective {digit other : Nat} (small : digit < 16) (smallToo : other < 16)
    (same : digit.digitChar = other.digitChar) : digit = other := by
  have each : ∀ digit < 16, ∀ other < 16, digit.digitChar = other.digitChar → digit = other := by
    decide
  exact each digit small other smallToo same

theorem toDigits_injective {base : Nat} (some : 1 < base) (few : base ≤ 16) :
    Function.Injective (Nat.toDigits base) := by
  intro number other same
  induction number using Nat.strongRecOn generalizing other with
  | ind number ih =>
      rw [Nat.toDigits_eq_if some, Nat.toDigits_eq_if (n := other) some] at same
      have notSingle (number : Nat) (digit digitToo : Char) :
          Nat.toDigits base number ++ [digit] ≠ [digitToo] := by
        intro same
        have lengths := congrArg List.length same
        simp [Nat.toDigits_ne_nil] at lengths
      split at same <;> split at same
      next small smallToo =>
        exact digitChar_injective (by omega) (by omega) (List.cons.inj same).1
      next => exact absurd same.symm (notSingle _ _ _)
      next => exact absurd same (notSingle _ _ _)
      next large largeToo =>
        obtain ⟨quotients, digits⟩ := List.append_inj' same rfl
        have quotient := ih (number / base) (Nat.div_lt_self (by omega) some) quotients
        have remainder := digitChar_injective
          (Nat.lt_of_lt_of_le (Nat.mod_lt number (by omega)) few)
          (Nat.lt_of_lt_of_le (Nat.mod_lt other (by omega)) few) (List.cons.inj digits).1
        rw [← Nat.div_add_mod number base, ← Nat.div_add_mod other base, quotient, remainder]

theorem mem_digits {base number : Nat} {character : Char} (some : 1 < base)
    (member : character ∈ Nat.toDigits base number) :
    ∃ digit < base, character = digit.digitChar := by
  induction number using Nat.strongRecOn with
  | ind number ih =>
      rw [Nat.toDigits_eq_if some] at member
      split at member
      next small => exact ⟨number, small, List.mem_singleton.mp member⟩
      next large =>
        rcases List.mem_append.mp member with before | last
        · exact ih (number / base) (Nat.div_lt_self (by omega) some) before
        · exact ⟨_, Nat.mod_lt number (by omega), List.mem_singleton.mp last⟩

theorem not_mem_digits {base number : Nat} {character : Char} (some : 1 < base) (few : base ≤ 16)
    (other : ∀ digit < 16, character ≠ digit.digitChar) :
    character ∉ Nat.toDigits base number := by
  intro member
  obtain ⟨digit, small, same⟩ := mem_digits some member
  exact other digit (Nat.lt_of_lt_of_le small few) same

theorem boolean_injective : Function.Injective Text.boolean := by
  intro value other same
  cases value <;> cases other <;> simp [Text.boolean] at same ⊢

variable {shows : Char → Bool} {character second : Char} {rest other : List Char}

/-- The written forms of a character inside quotation marks. -/
inductive QuotedCase (character : Char) : List Char → Prop where
  | escape {letter : Char} (short : shortEscape? character = some letter) :
      QuotedCase character ['\\', letter]
  | plain (long : shortEscape? character = none) : QuotedCase character [character]
  | coded : QuotedCase character (codePointEscape character)

theorem quotedChar_cases (shows : Char → Bool) (character : Char) :
    QuotedCase character (quotedChar shows character) := by
  unfold quotedChar
  split
  next letter short => exact .escape short
  next long =>
    split
    · exact .plain long
    · exact .coded

/-- The characters with a short escape, with the letters of the escapes. -/
def shortEscapes : List (Char × Char) :=
  [('\t', 't'), ('\r', 'r'), ('\n', 'n'), ('\x00', '0'), ('\\', '\\'), ('"', '"')]

theorem mem_shortEscapes {letter : Char} (short : shortEscape? character = some letter) :
    (character, letter) ∈ shortEscapes := by
  unfold shortEscape? at short
  split at short <;> cases short <;> decide

theorem shortEscape?_injective {letter : Char} (short : shortEscape? character = some letter)
    (shortToo : shortEscape? second = some letter) : character = second := by
  have each : ∀ first ∈ shortEscapes, ∀ second ∈ shortEscapes, first.2 = second.2 →
      first.1 = second.1 := by decide
  exact each _ (mem_shortEscapes short) _ (mem_shortEscapes shortToo) rfl

theorem QuotedCase.unique {text textToo : List Char} (written : QuotedCase character text)
    (writtenToo : QuotedCase second textToo) (same : text ++ rest = textToo ++ other) :
    character = second ∧ rest = other := by
  have notBackslash {character : Char} (long : shortEscape? character = none) :
      character ≠ '\\' := by
    rintro rfl
    cases long
  have notCode {character letter : Char} (short : shortEscape? character = some letter) :
      letter ≠ 'u' := by
    have each : ∀ entry ∈ shortEscapes, entry.2 ≠ 'u' := by decide
    exact each _ (mem_shortEscapes short)
  cases written with
  | escape short =>
      cases writtenToo with
      | escape shortToo =>
          obtain ⟨rfl, rfl⟩ : _ ∧ _ := by simpa using same
          exact ⟨shortEscape?_injective short shortToo, rfl⟩
      | plain long => exact absurd (List.cons.inj same).1.symm (notBackslash long)
      | coded => exact absurd (List.cons.inj (List.cons.inj same).2).1 (notCode short)
  | plain long =>
      cases writtenToo with
      | escape => exact absurd (List.cons.inj same).1 (notBackslash long)
      | plain => exact List.cons.inj same
      | coded => exact absurd (List.cons.inj same).1 (notBackslash long)
  | coded =>
      cases writtenToo with
      | escape short => exact absurd (List.cons.inj (List.cons.inj same).2).1.symm (notCode short)
      | plain long => exact absurd (List.cons.inj same).1.symm (notBackslash long)
      | coded =>
          have closed (number : Nat) : '\x7d' ∉ Nat.toDigits 16 number :=
            not_mem_digits (by decide) (by decide) (by decide)
          have digits : Nat.toDigits 16 character.toNat ++ '\x7d' :: rest =
              Nat.toDigits 16 second.toNat ++ '\x7d' :: other := by
            simpa [codePointEscape] using same
          obtain ⟨codes, rfl⟩ := append_mark_unique (closed _) (closed _) digits
          have code := toDigits_injective (by decide) (by decide) codes
          exact ⟨by rw [← Char.ofNat_toNat character, code, Char.ofNat_toNat], rfl⟩

/-- No character in quoted text starts with a quotation mark. -/
theorem QuotedCase.head {text : List Char} (written : QuotedCase character text) :
    ∃ first others, text = first :: others ∧ first ≠ '"' := by
  cases written with
  | escape short => exact ⟨_, _, rfl, by decide⟩
  | plain long =>
      refine ⟨_, _, rfl, ?_⟩
      rintro rfl
      cases long
  | coded => exact ⟨_, _, rfl, by decide⟩

/-- Quoted text shows where it ends and what it quotes. -/
theorem quoteWith_unique {text textToo : List Char}
    (same : quoteWith shows text ++ rest = quoteWith shows textToo ++ other) :
    text = textToo ∧ rest = other := by
  have inside : text.flatMap (quotedChar shows) ++ '"' :: rest =
      textToo.flatMap (quotedChar shows) ++ '"' :: other := by
    simpa [quoteWith] using same
  have notClosed (character : Char) (before after : List Char) :
      '"' :: before ≠ quotedChar shows character ++ after := by
    obtain ⟨first, others, written, notQuote⟩ := (quotedChar_cases shows character).head
    rw [written]
    exact fun same => notQuote (List.cons.inj same).1.symm
  clear same
  induction text generalizing textToo with
  | nil =>
      cases textToo with
      | nil => exact ⟨rfl, (List.cons.inj inside).2⟩
      | cons second textToo =>
          rw [List.flatMap_cons, List.append_assoc] at inside
          exact absurd inside (notClosed _ _ _)
  | cons character text ih =>
      cases textToo with
      | nil =>
          rw [List.flatMap_cons, List.append_assoc] at inside
          exact absurd inside.symm (notClosed _ _ _)
      | cons second textToo =>
          rw [List.flatMap_cons, List.flatMap_cons, List.append_assoc, List.append_assoc] at inside
          obtain ⟨rfl, onward⟩ :=
            (quotedChar_cases shows character).unique (quotedChar_cases shows second) inside
          obtain ⟨rfl, rfl⟩ := ih onward
          exact ⟨rfl, rfl⟩

theorem quote_injective : Function.Injective quote := by
  intro text textToo same
  have characters : quoteWith showsAlone text.toList = quoteWith showsAlone textToo.toList :=
    String.ofList_inj.mp same
  exact String.toList_inj.mp (quoteWith_unique (congrArg (· ++ []) characters)).1

theorem QuotedCase.not_mem_lineFeed {text : List Char} (written : QuotedCase character text) :
    '\n' ∉ text := by
  cases written with
  | escape short =>
      have each : ∀ entry ∈ shortEscapes, '\n' ∉ ['\\', entry.2] := by decide
      exact each _ (mem_shortEscapes short)
  | plain long =>
      rw [List.mem_singleton]
      rintro rfl
      cases long
  | coded =>
      have digits : '\n' ∉ Nat.toDigits 16 character.toNat :=
        not_mem_digits (by decide) (by decide) (by decide)
      simp [codePointEscape, digits]

/-- Quoted text stands on one line. -/
theorem not_mem_quote (text : String) : '\n' ∉ (quote text).toList := by
  have inside : ∀ character ∈ text.toList, '\n' ∉ quotedChar showsAlone character :=
    fun character _ => (quotedChar_cases showsAlone character).not_mem_lineFeed
  simpa [quote, quoteWith] using inside

end PipeLang.Text
