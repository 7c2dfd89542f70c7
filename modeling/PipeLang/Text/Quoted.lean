import PipeLang.Text.GraphemeExtend
import PipeLang.Text.Printable

namespace PipeLang.Text

/-!
# Written forms of literals

A text is shown between quotation marks. Six characters have a short escape;
of the others, those that would not show as a character of their own are written
by code point. Which characters show is a parameter of the writer. A truth value
is shown as a word.
-/

/-- The text of a truth value, in sources and in output alike. -/
def boolean (value : Bool) : String :=
  if value then "true" else "false"

/-- The letter of the short escape for a character, if it has one. -/
def shortEscape? : Char → Option Char
  | '\t' => some 't'
  | '\r' => some 'r'
  | '\n' => some 'n'
  | '\x00' => some '0'
  | '\\' => some '\\'
  | '"' => some '"'
  | _ => none

/-- The escape by code point, in lower-case hexadecimal digits without padding. -/
def codePointEscape (character : Char) : List Char :=
  '\\' :: 'u' :: '\x7b' :: (Nat.toDigits 16 character.toNat ++ ['\x7d'])

/-- The written form of one character inside quotation marks. -/
def quotedChar (shows : Char → Bool) (character : Char) : List Char :=
  match shortEscape? character with
  | some letter => ['\\', letter]
  | none => if shows character then [character] else codePointEscape character

/-- The written form of a text, for a given class of characters that show. -/
def quoteWith (shows : Char → Bool) (text : List Char) : List Char :=
  '"' :: (text.flatMap (quotedChar shows) ++ ['"'])

/-- A character shows when it is printable and stands on its own. -/
def showsAlone (character : Char) : Bool :=
  isPrintable character && !extendsGrapheme character

def quote (text : String) : String :=
  String.ofList (quoteWith showsAlone text.toList)

end PipeLang.Text
