import PipeLang.Token.Basic
import PipeLang.Token.Reading

namespace PipeLang.Token

/-!
# Spellings and words

Parentheses, commas, the operators and a lone underscore have fixed spellings. A
word is a longest run of characters up to a blank, one of these spellings, a string
or a comment, and it is classified as a whole.
-/

/-- The kinds that are always spelled the same way, longer spellings first. -/
def fixedSpellings : List (List Char × Kind) :=
  [(['-', '>', '>'], .mutate), (['-', '>'], .assign), (['|', '>'], .pipeline),
   (['=', '>'], .arrow), (['('], .leftParen), ([')'], .rightParen), ([','], .comma),
   (['_'], .shorthand)]

/-- The longest fixed spelling in front of a text, with the kind it denotes. -/
def fixed? (text : List Char) : Option (List Char × Kind) :=
  fixedSpellings.find? fun (spelling, _) => spelling.isPrefixOf text

/-- The characters that separate words and have no other meaning. -/
def isSpace (character : Char) : Bool :=
  character == ' ' || character == '\t' || character == '\r' || character == '\n'

/-- What a word ends in front of. An underscore is not among them: it is a token of
its own only where no word is under way. -/
def wordBreaks : List (List Char) :=
  [[' '], ['\t'], ['\r'], ['\n'], ['('], [')'], [','], ['"'], ['=', '>'], ['|', '>'],
   ['-', '>'], ['-', '-']]

/-- Whether a word that is under way ends in front of this text. -/
def breaksWord (text : List Char) : Bool :=
  text.isEmpty || wordBreaks.any (·.isPrefixOf text)

/-- Cuts a text where the word under way ends. -/
def splitWord : List Char → List Char × List Char
  | [] => ([], [])
  | character :: rest =>
      if breaksWord (character :: rest) then ([], character :: rest)
      else
        let (word, others) := splitWord rest
        (character :: word, others)

/-- The kind that a complete word denotes. -/
def classify (word : List Char) : Except ScanCause Kind :=
  if word = ['t', 'r', 'u', 'e'] then .ok (.boolean true)
  else if word = ['f', 'a', 'l', 's', 'e'] then .ok (.boolean false)
  else if word.head?.any Number.isDigit then
    match Number.read? word with
    | some value => .ok (.number value)
    | none => .error (.digitLeadingIdentifier (String.ofList word))
  else .ok (.identifier (String.ofList word))

theorem splitWord_append (text : List Char) : (splitWord text).1 ++ (splitWord text).2 = text := by
  induction text with
  | nil => rfl
  | cons character rest ih =>
      unfold splitWord
      split
      · rfl
      · simp [ih]

theorem splitWord_rest_le (text : List Char) : (splitWord text).2.length ≤ text.length := by
  have whole := congrArg List.length (splitWord_append text)
  simp only [List.length_append] at whole
  omega

theorem fixedSpellings_nonempty {spelling : List Char} {kind : Kind}
    (listed : (spelling, kind) ∈ fixedSpellings) : 0 < spelling.length := by
  simp only [fixedSpellings, List.mem_cons, Prod.mk.injEq, List.not_mem_nil, or_false] at listed
  rcases listed with h | h | h | h | h | h | h | h <;> simp [h.1]

theorem fixed?_mem {text spelling : List Char} {kind : Kind}
    (found : fixed? text = some (spelling, kind)) : (spelling, kind) ∈ fixedSpellings :=
  List.mem_of_find?_eq_some found

end PipeLang.Token
