import PipeLang.Token.Literal
import PipeLang.Token.Word

namespace PipeLang

/-!
# Scanning

Scanning cuts a text into tokens and the gaps between them. A gap is made of
blanks and of comments, which run from `--` to the end of the line. Parentheses,
commas, strings and the operators end the word before them, so words need no gap
on that side.
-/

namespace Token

/-- Passes over a comment, with the line feed that ends it. -/
def skipComment (here : Location) : List Char → Reading (Option Token)
  | [] => ⟨none, here, []⟩
  | character :: rest =>
      if character = '\n' then ⟨none, here.next character, rest⟩
      else skipComment (here.next character) rest

/-- Reads the gap or the token in front of a text that is not empty. -/
def readFront (here : Location) (first : Char) (rest : List Char) :
    Except ScanError (Reading (Option Token)) :=
  if isSpace first then .ok ⟨none, here.next first, rest⟩
  else if ['-', '-'].isPrefixOf (first :: rest) then .ok (skipComment (here.next first) rest)
  else if first = '"' then
    match readString here (here.next first) rest with
    | .ok reading =>
        .ok ⟨some ⟨here, .string (String.ofList reading.content)⟩, reading.location, reading.rest⟩
    | .error failure => .error failure
  else
    match fixed? (first :: rest) with
    | some (spelling, kind) =>
        .ok ⟨some ⟨here, kind⟩, here.after spelling, (first :: rest).drop spelling.length⟩
    | none =>
        let word := first :: (splitWord rest).1
        match classify word with
        | .ok kind => .ok ⟨some ⟨here, kind⟩, here.after word, (splitWord rest).2⟩
        | .error cause => .error ⟨here, cause⟩

theorem skipComment_rest_le (here : Location) (text : List Char) :
    (skipComment here text).rest.length ≤ text.length := by
  induction text generalizing here with
  | nil => simp [skipComment]
  | cons character rest ih =>
      unfold skipComment
      split
      · simp
      · exact Nat.le_succ_of_le (ih _)

/-- Every gap and every token consumes at least one character. -/
theorem readFront_rest_le {here : Location} {first : Char} {rest : List Char}
    {reading : Reading (Option Token)} (succeeded : readFront here first rest = .ok reading) :
    reading.rest.length ≤ rest.length := by
  unfold readFront at succeeded
  split at succeeded
  · cases succeeded
    simp
  · split at succeeded
    · cases succeeded
      exact skipComment_rest_le _ _
    · split at succeeded
      · split at succeeded
        next inner found =>
          cases succeeded
          exact Nat.le_of_lt (readString_rest_lt found)
        next => cases succeeded
      · split at succeeded
        next spelling kind found =>
          cases succeeded
          have nonempty := fixedSpellings_nonempty (fixed?_mem found)
          simp only [List.length_drop, List.length_cons]
          omega
        next =>
          simp only at succeeded
          split at succeeded
          · cases succeeded
            exact splitWord_rest_le rest
          · cases succeeded

end Token

/-- The tokens of a text, and the position just past its last character. -/
structure Scanned where
  tokens : List Token
  stop : Location

/-- Puts what was read in front of the tokens of the rest. -/
def Scanned.behind (reading : Reading (Option Token)) (scanned : Scanned) : Scanned :=
  ⟨reading.content.toList ++ scanned.tokens, scanned.stop⟩

/-- Scans a text whose first character stands at `here`. -/
def scanFrom (here : Location) (text : List Char) : Except ScanError Scanned :=
  match text with
  | [] => .ok ⟨[], here⟩
  | first :: rest =>
      match front : Token.readFront here first rest with
      | .error failure => .error failure
      | .ok reading =>
          have := Token.readFront_rest_le front
          (scanFrom reading.location reading.rest).map (Scanned.behind reading)
termination_by text.length
decreasing_by
  simp only [List.length_cons]
  omega

@[simp] theorem scanFrom_nil (here : Location) : scanFrom here [] = .ok ⟨[], here⟩ := by
  rw [scanFrom]

theorem scanFrom_of_readFront_error {here : Location} {first : Char} {rest : List Char}
    {failure : ScanError} (front : Token.readFront here first rest = .error failure) :
    scanFrom here (first :: rest) = .error failure := by
  rw [scanFrom]
  split
  next found =>
    rw [front] at found
    cases found
    rfl
  next found =>
    rw [front] at found
    cases found

theorem scanFrom_of_readFront_ok {here : Location} {first : Char} {rest : List Char}
    {reading : Reading (Option Token)} (front : Token.readFront here first rest = .ok reading) :
    scanFrom here (first :: rest) =
      (scanFrom reading.location reading.rest).map (Scanned.behind reading) := by
  rw [scanFrom]
  split
  next found =>
    rw [front] at found
    cases found
  next other found =>
    rw [front] at found
    cases found
    rfl

def scan (source : String) : Except ScanError Scanned :=
  scanFrom .start source.toList

end PipeLang
