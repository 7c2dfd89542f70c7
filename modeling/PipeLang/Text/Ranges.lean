namespace PipeLang.Text

/-!
# Classes of characters as ranges of code points
-/

/-- All code points from the first to the last one, both included. -/
structure Range where
  first : Nat
  last : Nat
deriving DecidableEq, Repr

def inRanges (ranges : List Range) (character : Char) : Bool :=
  ranges.any fun range => range.first ≤ character.toNat && character.toNat ≤ range.last

end PipeLang.Text
