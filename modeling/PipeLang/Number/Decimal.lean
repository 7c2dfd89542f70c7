namespace PipeLang.Number

/-!
# Decimal numerals

A numeral in a source text is a run of digits, with a point and a second run of
digits after it or not. A numeral that is written is laid out in full: however
large or small the number is, no exponent is used.
-/

/-- The decimal number `coefficient * 10 ^ exponent`. -/
structure Decimal where
  coefficient : Nat
  exponent : Int
deriving DecidableEq, Repr

/-- One of the ten ASCII digits. -/
def isDigit (character : Char) : Bool :=
  '0' ≤ character && character ≤ '9'

/-- A run of at least one digit. -/
def isDigits (text : List Char) : Bool :=
  !text.isEmpty && text.all isDigit

/-- The number that a run of digits spells, most significant digit first. -/
def digitsValue (text : List Char) : Nat :=
  text.foldl (fun value digit => 10 * value + (digit.toNat - '0'.toNat)) 0

namespace Decimal

/-- Reads digits, or digits, a point and digits; nothing else is a numeral. -/
def ofText? (text : List Char) : Option Decimal :=
  let whole := text.takeWhile (· != '.')
  match text.dropWhile (· != '.') with
  | [] => if isDigits whole then some ⟨digitsValue whole, 0⟩ else none
  | _ :: fraction =>
      if isDigits whole && isDigits fraction then
        some ⟨digitsValue (whole ++ fraction), -fraction.length⟩
      else none

/-- The nearest double, ties to the even significand; infinite when too large. -/
def toFloat (decimal : Decimal) : Float :=
  match decimal.exponent with
  | .ofNat power => Float.ofScientific decimal.coefficient false power
  | .negSucc power => Float.ofScientific decimal.coefficient true (power + 1)

/-- Lays the digits out around the point, padded with zeros where needed. -/
def positional (decimal : Decimal) : List Char :=
  let digits := Nat.toDigits 10 decimal.coefficient
  match decimal.exponent with
  | .ofNat power => digits ++ List.replicate power '0'
  | .negSucc power =>
      let places := power + 1
      if places < digits.length then
        digits.take (digits.length - places) ++ '.' :: digits.drop (digits.length - places)
      else
        '0' :: '.' :: (List.replicate (places - digits.length) '0' ++ digits)

end Decimal

/-- The number that a numeral of the source text denotes. -/
def read? (text : List Char) : Option Float :=
  (Decimal.ofText? text).map Decimal.toFloat

end PipeLang.Number
