import PipeLang.Number.Binary
import PipeLang.Number.Decimal

namespace PipeLang.Number

/-!
# The shortest decimal that reads back

Every real number between the midpoints to the two neighbouring doubles rounds to
the double itself; the midpoints do so exactly when the significand is even. The
shortest decimal is the point of the coarsest power-of-ten grid that meets this
interval. All comparisons are made between natural numbers, so they are exact.
-/

namespace Magnitude

/-- A comparison scale: on the grid of multiples of `10 ^ exponent`, the number
`quarters * 2 ^ (magnitude.exponent - 2)` is `measure quarters / unit` steps. -/
def measure (magnitude : Magnitude) (exponent : Int) (quarters : Nat) : Nat :=
  quarters * Nat.pow 2 (magnitude.exponent - 2).toNat * Nat.pow 10 (-exponent).toNat

/-- One step of the grid on the same scale. -/
def unit (magnitude : Magnitude) (exponent : Int) : Nat :=
  Nat.pow 10 exponent.toNat * Nat.pow 2 (2 - magnitude.exponent).toNat

/-- The lower end of the rounding interval, in quarters of the last place. -/
def lowQuarters (magnitude : Magnitude) : Nat :=
  4 * magnitude.significand - if magnitude.narrowBelow then 1 else 2

/-- The upper end of the rounding interval, in quarters of the last place. -/
def highQuarters (magnitude : Magnitude) : Nat :=
  4 * magnitude.significand + 2

/-- Whether `decimal` rounds to this magnitude. -/
def contains (magnitude : Magnitude) (decimal : Decimal) : Bool :=
  let low := magnitude.measure decimal.exponent magnitude.lowQuarters
  let high := magnitude.measure decimal.exponent magnitude.highQuarters
  let point := decimal.coefficient * magnitude.unit decimal.exponent
  if magnitude.significand % 2 = 0 then
    low ≤ point && point ≤ high
  else
    low < point && point < high

/-- The better of the two grid points around the magnitude, if one of them rounds
to it. The nearer one is better, and of two equally near ones the larger. -/
def onGrid? (magnitude : Magnitude) (exponent : Int) : Option Decimal :=
  let exact := magnitude.measure exponent (4 * magnitude.significand)
  let unit := magnitude.unit exponent
  let below : Decimal := ⟨exact / unit, exponent⟩
  let above : Decimal := ⟨exact / unit + 1, exponent⟩
  let belowIsNearer := 2 * exact < (2 * (exact / unit) + 1) * unit
  if magnitude.contains below && (belowIsNearer || !magnitude.contains above) then
    some below
  else if magnitude.contains above then
    some above
  else none

/-- All digits of the magnitude. -/
def exactDecimal (magnitude : Magnitude) : Decimal :=
  match magnitude.exponent with
  | .ofNat power => ⟨magnitude.significand * Nat.pow 2 power, 0⟩
  | .negSucc power => ⟨magnitude.significand * Nat.pow 5 (power + 1), .negSucc power⟩

/-- An exponent whose grid has no positive point up to twice the magnitude. -/
def coarsestExponent (magnitude : Magnitude) : Int :=
  (magnitude.significand.log2 + 2 + magnitude.exponent) * 30103 / 100000 + 1

/-- No double needs more than seventeen digits, so twenty-five grids are enough
from the coarsest one on. -/
def shortest (magnitude : Magnitude) : Decimal :=
  let grids := (List.range 25).map fun (finer : Nat) => magnitude.coarsestExponent - finer
  (grids.findSome? magnitude.onGrid?).getD magnitude.exactDecimal

end Magnitude

/-- How the numbers that are not finite are written. -/
structure Spelling where
  infinity : String

/-- The spelling in tokens and expression trees. -/
def Spelling.source : Spelling := ⟨"inf"⟩

/-- The spelling of values. -/
def Spelling.display : Spelling := ⟨"Infinity"⟩

def signed (negative : Bool) (text : String) : String :=
  if negative then "-" ++ text else text

/-- The text of a number: its shortest digits in full positional form. Zero keeps
its sign. -/
def render (spelling : Spelling) (number : Float) : String :=
  match decode number with
  | .undefined => "NaN"
  | .infinite negative => signed negative spelling.infinity
  | .finite negative magnitude =>
      if magnitude.significand = 0 then
        signed negative "0"
      else
        signed negative (String.ofList magnitude.shortest.positional)

end PipeLang.Number
