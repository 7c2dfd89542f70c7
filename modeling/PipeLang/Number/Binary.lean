namespace PipeLang.Number

/-!
# The exact value of a binary number

A finite double is a sign and a magnitude `significand * 2 ^ exponent`. Besides
the magnitude, rounding needs to know how far its lower neighbour is: at a power
of two the gap below is half the gap above.
-/

/-- The magnitude `significand * 2 ^ exponent`. -/
structure Magnitude where
  significand : Nat
  exponent : Int
  /-- The next smaller double is half as far away as the next larger one. -/
  narrowBelow : Bool
deriving DecidableEq, Repr

/-- What the bit pattern of a double stands for. -/
inductive Decoded where
  | undefined
  | infinite (negative : Bool)
  | finite (negative : Bool) (magnitude : Magnitude)
deriving DecidableEq, Repr

/-- The number of bits of the significand that a pattern spells out. -/
def fractionWidth : Nat := 52

/-- The exponent of the unit in the last place of the smallest doubles. -/
def leastExponent : Int := -1074

/-- Cuts a bit pattern into sign, biased exponent and fraction. -/
def decodeBits (bits : Nat) : Decoded :=
  let negative := bits / Nat.pow 2 63 % 2 == 1
  let biased := bits / Nat.pow 2 fractionWidth % 2048
  let fraction := bits % Nat.pow 2 fractionWidth
  if biased = 2047 then
    if fraction = 0 then .infinite negative else .undefined
  else if biased = 0 then
    .finite negative ⟨fraction, leastExponent, false⟩
  else
    .finite negative
      ⟨Nat.pow 2 fractionWidth + fraction, leastExponent + (biased - 1 : Nat),
        fraction == 0 && biased > 1⟩

def decode (number : Float) : Decoded :=
  decodeBits number.toBits.toNat

end PipeLang.Number
