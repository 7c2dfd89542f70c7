import Mathlib
import PipeLang.Proofs.Rounding

namespace PipeLang.Number

/-! # Doubles and their bit patterns

A double is its bit pattern: a sign in front of the pattern of a magnitude. There is one pattern
for all that is no number. What a numeral denotes has no sign and is a number, since neither
rounding nor the product or quotient of such numbers can bring another sign in.
-/

open Magnitude (infinityPattern ofPattern)

section Bits

open Float.Model (Format UnpackedFloat)
open Float.Model.UnpackedFloat

/-- What the sign of a double adds to its bit pattern. -/
def signPattern (negative : Bool) : Nat :=
  if negative then 2 ^ 63 else 0

theorem eq_of_toBits_eq {first second : Float}
    (same : first.toBits.toNat = second.toBits.toNat) : first = second := by
  obtain ⟨⟨first, firstValid⟩⟩ := first
  obtain ⟨⟨second, secondValid⟩⟩ := second
  obtain rfl : first = second := UInt64.toNat_inj.mp same
  rfl

variable {bits : BitVec 64}

theorem toNat_unpackExponent :
    (@unpackExponent .binary64 bits).toNat = bits.toNat / 2 ^ 52 % 2048 := by
  simp [unpackExponent, BitVec.extractLsb_toNat, Nat.shiftRight_eq_div_pow]

theorem toNat_unpackMantissa :
    (@unpackMantissa .binary64 bits).toNat = bits.toNat % 2 ^ 52 := by
  simp [unpackMantissa, BitVec.extractLsb_toNat]

theorem toNat_unpackSign :
    (@unpackSign .binary64 bits).toNat = bits.toNat / 2 ^ 63 % 2 := by
  simp [unpackSign, BitVec.extractLsb_toNat, Nat.shiftRight_eq_div_pow]

theorem unpackExponent_eq_neg_one :
    @unpackExponent .binary64 bits = -1#_ ↔ bits.toNat / 2 ^ 52 % 2048 = 2047 := by
  rw [← BitVec.toNat_inj, toNat_unpackExponent]
  rfl

theorem unpackMantissa_eq_zero :
    @unpackMantissa .binary64 bits = 0#_ ↔ bits.toNat % 2 ^ 52 = 0 := by
  rw [← BitVec.toNat_inj, toNat_unpackMantissa]
  rfl

theorem bits_eq_signPattern (number : Float) : ∃ negative pattern, pattern < 2 ^ 63 ∧
    number.toBits.toNat = signPattern negative + pattern := by
  have bounded := number.toBits.toNat_lt
  by_cases negative : number.toBits.toNat < 2 ^ 63
  · exact ⟨false, _, negative, (Nat.zero_add _).symm⟩
  · exact ⟨true, number.toBits.toNat - 2 ^ 63, by omega, by simp only [signPattern, if_true]; omega⟩

theorem sign_of_bits (negative : Bool) {pattern : Nat} (less : pattern < 2 ^ 63) :
    ((signPattern negative + pattern) / 2 ^ 63 % 2 == 1) = negative := by
  cases negative
  · simp only [signPattern, Bool.false_eq_true, if_false, beq_eq_false_iff_ne]
    omega
  · simp only [signPattern, if_true, beq_iff_eq]
    omega

theorem exponent_of_bits (negative : Bool) {pattern : Nat} (less : pattern < 2 ^ 63) :
    (signPattern negative + pattern) / 2 ^ 52 % 2048 = pattern / 2 ^ 52 := by
  cases negative <;> simp only [signPattern, Bool.false_eq_true, if_false, if_true] <;> omega

theorem fraction_of_bits (negative : Bool) (pattern : Nat) :
    (signPattern negative + pattern) % 2 ^ 52 = pattern % 2 ^ 52 := by
  cases negative <;> simp only [signPattern, Bool.false_eq_true, if_false, if_true] <;> omega

theorem decodeBits_eq (negative : Bool) {pattern : Nat} (less : pattern < 2 ^ 63) :
    decodeBits (signPattern negative + pattern) =
      if pattern < infinityPattern then .finite negative (ofPattern pattern)
      else if pattern = infinityPattern then .infinite negative else .undefined := by
  simp only [decodeBits, fractionWidth, Nat.pow_eq, sign_of_bits negative less,
    exponent_of_bits negative less, fraction_of_bits, ofPattern]
  by_cases special : pattern / 2 ^ 52 = 2047
  · have above : ¬ pattern < infinityPattern := by
      unfold infinityPattern
      omega
    have exact : pattern % 2 ^ 52 = 0 ↔ pattern = infinityPattern := by
      unfold infinityPattern
      omega
    simp only [special, above, exact, if_true, if_false]
  · have below : pattern < infinityPattern := by
      unfold infinityPattern
      omega
    rw [if_neg special, if_pos below]
    split <;> rfl

/-- A double that is no number has the one pattern for this. -/
theorem bits_of_not_number (number : Float)
    (exponent : number.toBits.toNat / 2 ^ 52 % 2048 = 2047)
    (fraction : number.toBits.toNat % 2 ^ 52 ≠ 0) :
    number.toBits.toNat = (packedNaN .binary64).toNat := by
  have valid : Format.binary64.Valid number.toBits.toBitVec := number.toModel.valid
  have canonical := valid.eq_packedNaN (unpackExponent_eq_neg_one.mpr exponent)
    (mt unpackMantissa_eq_zero.mp fraction)
  exact congrArg BitVec.toNat canonical

/-- The kinds of doubles, each with its bit patterns. -/
inductive DoubleCase (number : Float) : Decoded → Prop where
  | finite {negative : Bool} {pattern : Nat} (below : pattern < infinityPattern)
      (bits : number.toBits.toNat = signPattern negative + pattern) :
      DoubleCase number (.finite negative (ofPattern pattern))
  | infinite {negative : Bool}
      (bits : number.toBits.toNat = signPattern negative + infinityPattern) :
      DoubleCase number (.infinite negative)
  | undefined (bits : number.toBits.toNat = (packedNaN .binary64).toNat) :
      DoubleCase number .undefined

theorem decode_cases (number : Float) : DoubleCase number (decode number) := by
  obtain ⟨negative, pattern, less, bits⟩ := bits_eq_signPattern number
  rw [decode, bits, decodeBits_eq negative less]
  split
  next below => exact .finite below bits
  next notBelow =>
    split
    next same => exact .infinite (same ▸ bits)
    next different =>
      refine .undefined (bits_of_not_number number ?_ ?_)
      · rw [bits, exponent_of_bits negative less]
        unfold infinityPattern at notBelow
        omega
      · rw [bits, fraction_of_bits]
        unfold infinityPattern at notBelow different
        omega

theorem decode_of_isFinite {number : Float} (finite : number.isFinite = true) :
    ∃ negative magnitude, decode number = .finite negative magnitude := by
  obtain ⟨negative, pattern, less, bits⟩ := bits_eq_signPattern number
  have ordinary : number.toBits.toNat / 2 ^ 52 % 2048 ≠ 2047 := by
    intro special
    have unpacked : (unpack .binary64 number.toBits.toBitVec).isFinite = true := finite
    rw [unpack] at unpacked
    simp only [unpackExponent_eq_neg_one.mpr special, if_true] at unpacked
    split at unpacked <;> cases unpacked
  refine ⟨negative, ofPattern pattern, ?_⟩
  rw [decode, bits, decodeBits_eq negative less, if_pos]
  rw [bits, exponent_of_bits negative less] at ordinary
  unfold infinityPattern
  omega

/-- Zero, a positive number, or infinite. -/
def Unsigned : UnpackedFloat → Prop
  | .infinity .positive => True
  | .zero .positive => True
  | .finite .positive .. => True
  | _ => False

theorem unsigned_roundWithAccuracy (spec : Format) (mantissa : Nat) (exponent : Int)
    (accuracy : Accuracy) :
    Unsigned (roundWithAccuracy spec .positive mantissa exponent accuracy) := by
  unfold roundWithAccuracy
  simp only
  split <;> trivial

theorem unsigned_mul {spec : Format} {value : UnpackedFloat} {mantissa : Nat} {exponent : Int}
    {positive : 0 < mantissa} (unsigned : Unsigned value) :
    Unsigned (mul spec value (.finite .positive mantissa exponent positive)) := by
  match value, unsigned with
  | .infinity .positive, _ => trivial
  | .zero .positive, _ => trivial
  | .finite .positive .., _ => exact unsigned_roundWithAccuracy _ _ _ _

theorem unsigned_div {spec : Format} {value : UnpackedFloat} {mantissa : Nat} {exponent : Int}
    {positive : 0 < mantissa} (unsigned : Unsigned value) :
    Unsigned (div spec value (.finite .positive mantissa exponent positive)) := by
  match value, unsigned with
  | .infinity .positive, _ => trivial
  | .zero .positive, _ => trivial
  | .finite .positive .., _ => exact unsigned_roundWithAccuracy _ _ _ _

theorem unsigned_ofNat (spec : Format) (number : Nat) : Unsigned (ofNat spec number) := by
  unfold ofNat ofInt UnpackedFloat.normalize
  split
  next less => exact absurd (Int.compare_eq_lt.mp less) (by omega)
  next => trivial
  next => exact unsigned_roundWithAccuracy _ _ _ _

theorem unsigned_ofScientific (spec : Format) (mantissa : Nat) (exponent : Int) :
    Unsigned (ofScientific spec mantissa exponent) := by
  unfold ofScientific
  split
  · trivial
  split
  · trivial
  split
  · trivial
  split
  · exact unsigned_mul trivial
  · exact unsigned_div trivial

theorem toNat_packComponents (exponent : BitVec 11) (mantissa : BitVec 52) :
    (packComponents .binary64 .positive exponent mantissa).toNat =
      exponent.toNat * 2 ^ 52 + mantissa.toNat := by
  have sign : (Sign.positive.toBitVec ++ exponent).toNat = exponent.toNat := by
    rw [Sign.toBitVec, BitVec.toNat_append]
    simp
  rw [packComponents, BitVec.toNat_append, sign, ← Nat.shiftLeft_add_eq_or_of_lt mantissa.isLt,
    Nat.shiftLeft_eq]

theorem pack_unsigned {value : UnpackedFloat} (unsigned : Unsigned value) :
    (pack .binary64 value).toNat ≤ infinityPattern := by
  match value, unsigned with
  | .infinity .positive, _ => decide
  | .zero .positive, _ => decide
  | .finite .positive mantissa exponent positive, _ =>
      -- An exponent that is not all ones leaves the pattern below the infinite one.
      have below (exponent : BitVec 11) (fraction : BitVec 52) (less : exponent.toNat < 2047) :
          (packComponents .binary64 .positive exponent fraction).toNat ≤ infinityPattern := by
        have bounded := fraction.isLt
        rw [toNat_packComponents, infinityPattern]
        omega
      unfold pack
      simp only
      split
      next => decide
      next fits =>
        split
        · refine below _ _ ?_
          rw [BitVec.toNat_ofNat]
          exact Nat.lt_of_le_of_lt (Nat.mod_le _ _) (by omega)
        · exact below _ _ (by decide)

theorem unsigned_unpack (bounded : bits.toNat ≤ infinityPattern) :
    Unsigned (unpack .binary64 bits) := by
  have sign : Sign.ofBitVec (@unpackSign .binary64 bits) = .positive := by
    rw [Sign.ofBitVec, if_pos]
    rw [← BitVec.toNat_inj, toNat_unpackSign]
    unfold infinityPattern at bounded
    simp only [BitVec.toNat_ofNat]
    omega
  unfold unpack
  simp only [sign]
  split
  next special =>
    split
    next => trivial
    next fraction =>
      rw [unpackExponent_eq_neg_one] at special
      rw [unpackMantissa_eq_zero] at fraction
      unfold infinityPattern at bounded
      omega
  next =>
    split
    next => split <;> trivial
    next => trivial

/-- The double is zero, a positive number, or infinite. -/
def NotNegative (number : Float) : Prop :=
  number.toBits.toNat ≤ infinityPattern

theorem notNegative_div {number divisor : Float} {mantissa : Nat} {exponent : Int}
    {positive : 0 < mantissa} (notNegative : NotNegative number)
    (finite : divisor.toModel.unpack = .finite .positive mantissa exponent positive) :
    NotNegative (number / divisor) := by
  have result : Unsigned (div .binary64 number.toModel.unpack divisor.toModel.unpack) := by
    rw [finite]
    exact unsigned_div (unsigned_unpack notNegative)
  exact pack_unsigned result

theorem notNegative_mul {number factor : Float} {mantissa : Nat} {exponent : Int}
    {positive : 0 < mantissa} (notNegative : NotNegative number)
    (finite : factor.toModel.unpack = .finite .positive mantissa exponent positive) :
    NotNegative (number * factor) := by
  have result : Unsigned (mul .binary64 number.toModel.unpack factor.toModel.unpack) := by
    rw [finite]
    exact unsigned_mul (unsigned_unpack notNegative)
  exact pack_unsigned result

theorem notNegative_toFloat (number : UInt64) : NotNegative number.toFloat :=
  pack_unsigned (unsigned_ofNat _ number.toNat)

theorem powersOfTen_unpack : ∀ index : Fin 23, ∃ mantissa exponent positive,
    (getElem Float.exactlyRepresentablePowersOfTen index.val index.isLt).toModel.unpack =
      .finite .positive mantissa exponent positive := by
  intro index
  fin_cases index <;> exact ⟨_, _, _, rfl⟩

theorem notNegative_ofScientific (mantissa : Nat) (small : Bool) (exponent : Nat) :
    NotNegative (Float.ofScientific mantissa small exponent) := by
  unfold Float.ofScientific
  split
  next fits =>
    obtain ⟨_, _, _, finite⟩ := powersOfTen_unpack ⟨exponent, by omega⟩
    simp only
    split
    · exact notNegative_div (notNegative_toFloat _) finite
    · exact notNegative_mul (notNegative_toFloat _) finite
  next => exact pack_unsigned (unsigned_ofScientific _ _ _)

/-- What a numeral denotes has no sign. -/
theorem notNegative_decimal (decimal : Decimal) : NotNegative decimal.toFloat := by
  unfold Decimal.toFloat
  split <;> exact notNegative_ofScientific _ _ _

end Bits

end PipeLang.Number
