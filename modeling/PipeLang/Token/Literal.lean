import PipeLang.Token.Reading

namespace PipeLang.Token

/-!
# String literals

A string stands between quotation marks. A backslash starts an escape: a letter for
a control character, a backslash or quotation mark for itself, or `x` and two
hexadecimal digits for the character with that code.
-/

/-- The character that an escape letter stands for. -/
def escaped? : Char → Option Char
  | 'a' => some '\x07'
  | 'b' => some '\x08'
  | 'e' => some '\x1b'
  | 'f' => some '\x0c'
  | 'n' => some '\n'
  | 'r' => some '\r'
  | 't' => some '\t'
  | 'v' => some '\x0b'
  | '\\' => some '\\'
  | '"' => some '"'
  | _ => none

/-- The value of a hexadecimal digit of either case. -/
def hexDigit? (character : Char) : Option Nat :=
  if '0' ≤ character ∧ character ≤ '9' then some (character.toNat - '0'.toNat)
  else if 'a' ≤ character ∧ character ≤ 'f' then some (character.toNat - 'a'.toNat + 10)
  else if 'A' ≤ character ∧ character ≤ 'F' then some (character.toNat - 'A'.toNat + 10)
  else none

/-- The character whose code two hexadecimal digits spell. -/
def hexPair? (high low : Char) : Option Char := do
  let high ← hexDigit? high
  let low ← hexDigit? low
  return Char.ofNat (16 * high + low)

/-- Puts a character in front of a reading that succeeds. -/
def startingWith (character : Char) :
    Except ScanError (Reading (List Char)) → Except ScanError (Reading (List Char))
  | .ok reading => .ok { reading with content := character :: reading.content }
  | .error failure => .error failure

/-- Reads a string from `here`, inside it, up to its closing quotation mark. The
opening one, where a missing end is reported, stands at `opening`. -/
def readString (opening here : Location) : List Char → Except ScanError (Reading (List Char))
  | [] => .error ⟨opening, .unterminatedString⟩
  | character :: rest =>
      if character = '"' then .ok ⟨[], here.next character, rest⟩
      else if character = '\\' then
        match rest with
        | [] => .error ⟨here, .unterminatedEscape⟩
        | letter :: rest =>
            if letter = 'x' then
              match rest with
              | high :: low :: rest =>
                  match hexPair? high low with
                  | some code =>
                      startingWith code
                        (readString opening (here.after [character, letter, high, low]) rest)
                  | none => .error ⟨here, .invalidHexEscape (String.ofList [high, low])⟩
              | _ => .error ⟨here, .unterminatedEscape⟩
            else
              match escaped? letter with
              | some meaning =>
                  startingWith meaning (readString opening (here.after [character, letter]) rest)
              | none => .error ⟨here, .unknownEscape letter⟩
      else startingWith character (readString opening (here.next character) rest)

theorem startingWith_eq_ok {character : Char} {outcome : Except ScanError (Reading (List Char))}
    {reading : Reading (List Char)} (succeeded : startingWith character outcome = .ok reading) :
    ∃ inner, outcome = .ok inner ∧
      reading = { inner with content := character :: inner.content } := by
  cases outcome with
  | error failure => simp [startingWith] at succeeded
  | ok inner => exact ⟨inner, rfl, by simpa [startingWith] using succeeded.symm⟩

/-- A string consumes at least its closing quotation mark. -/
theorem readString_rest_lt {opening here : Location} {text : List Char}
    {reading : Reading (List Char)} (succeeded : readString opening here text = .ok reading) :
    reading.rest.length < text.length := by
  induction size : text.length using Nat.strongRecOn generalizing here text reading with
  | ind length ih =>
      -- Each escape and each plain character leaves a shorter text behind it.
      have onward {code : Char} {place : Location} {rest : List Char}
          (shorter : rest.length < length)
          (found : startingWith code (readString opening place rest) = .ok reading) :
          reading.rest.length < length := by
        obtain ⟨inner, read, rfl⟩ := startingWith_eq_ok found
        have inside := ih _ shorter read rfl
        exact Nat.lt_trans inside shorter
      cases text with
      | nil =>
          cases succeeded
      | cons character rest =>
          rw [List.length_cons] at size
          unfold readString at succeeded
          split at succeeded
          · cases succeeded
            exact size ▸ Nat.lt_succ_self _
          · split at succeeded
            · split at succeeded
              · cases succeeded
              · rw [List.length_cons] at size
                split at succeeded
                · split at succeeded
                  · simp only [List.length_cons] at size
                    split at succeeded
                    · exact onward (by omega) succeeded
                    · cases succeeded
                  · cases succeeded
                · split at succeeded
                  · exact onward (by omega) succeeded
                  · cases succeeded
            · exact onward (by omega) succeeded

end PipeLang.Token
