import PipeLang.Location

namespace PipeLang

/-!
# Readings of a source text

The parts of a text are read one after the other. A reading that succeeds says
what the part denotes and where the next one starts; a reading that fails says why
and where.
-/

/-- Why a text cannot be cut into tokens. -/
inductive ScanCause where
  /-- A word that starts with a digit but is no numeral. -/
  | digitLeadingIdentifier (text : String)
  /-- The text ends before the closing quotation mark. -/
  | unterminatedString
  /-- The text ends inside an escape. -/
  | unterminatedEscape
  /-- A backslash before a character that names no escape. -/
  | unknownEscape (letter : Char)
  /-- An escape by code whose two characters are not both hexadecimal digits. -/
  | invalidHexEscape (digits : String)
deriving DecidableEq, Repr

def ScanCause.message : ScanCause → String
  | .digitLeadingIdentifier text => s!"identifier cannot start with a digit: '{text}'"
  | .unterminatedString => "Unterminated string"
  | .unterminatedEscape => "Unterminated escape sequence"
  | .unknownEscape letter => s!"Unknown escape character '{letter}'"
  | .invalidHexEscape digits => s!"Invalid hex escape '\\x{digits}'"

/-- A scan fails at the first character of the offending word, string or escape. -/
abbrev ScanError := Located ScanCause

/-- What a part of the text denotes, and the position and text that follow it. -/
structure Reading (Content : Type) where
  content : Content
  location : Location
  rest : List Char
deriving DecidableEq

end PipeLang
