import PipeLang.Text.Ranges

namespace PipeLang.Text

/-!
# Blank characters

Blank characters are those with the property White_Space. Trimming removes them
from both ends of a text and leaves those inside alone.
-/

/-- The code points of the property White_Space, in increasing order. -/
def blankRanges : List Range :=
  [⟨0x9, 0xd⟩, ⟨0x20, 0x20⟩, ⟨0x85, 0x85⟩, ⟨0xa0, 0xa0⟩, ⟨0x1680, 0x1680⟩, ⟨0x2000, 0x200a⟩,
   ⟨0x2028, 0x2029⟩, ⟨0x202f, 0x202f⟩, ⟨0x205f, 0x205f⟩, ⟨0x3000, 0x3000⟩]

def isBlank (character : Char) : Bool :=
  inRanges blankRanges character

def trimLeft (text : List Char) : List Char :=
  text.dropWhile isBlank

def trimRight (text : List Char) : List Char :=
  (text.reverse.dropWhile isBlank).reverse

def trim (text : List Char) : List Char :=
  trimRight (trimLeft text)

end PipeLang.Text
