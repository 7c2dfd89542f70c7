import Mathlib
import PipeLang.Proofs.Doubles
import PipeLang.Proofs.Recognition

namespace PipeLang.Number

/-! # The texts of numbers

The text of a finite number is a numeral behind its sign, and the decimal that it spells rounds to
the number alone. The other numbers have texts that are no numerals, so the text of a double
determines the double.
-/

open Token (Numeral)
open Magnitude (infinityPattern ofPattern)
open Float.Model.UnpackedFloat (packedNaN)

theorem isDigit_of_char {character : Char} (digit : character.isDigit = true) :
    isDigit character = true := by
  simpa [isDigit, Char.isDigit, Char.le_def] using digit

theorem digitsValue_eq (text : List Char) : digitsValue text = Nat.ofDigitChars 10 text 0 :=
  (Nat.ofDigitChars_eq_foldl).symm

variable {number : Nat} {digit : Char}

theorem isDigit_of_mem_toDigits (member : digit ∈ Nat.toDigits 10 number) : isDigit digit = true :=
  isDigit_of_char (Nat.isDigit_of_mem_toDigits (by decide) (by decide) member)

theorem digitsValue_toDigits (number : Nat) : digitsValue (Nat.toDigits 10 number) = number := by
  rw [digitsValue_eq, Nat.ofDigitChars_ten_toDigits]

theorem digitsValue_padded (number zeros : Nat) :
    digitsValue (List.replicate zeros '0' ++ Nat.toDigits 10 number) = number := by
  rw [digitsValue_eq, Nat.ofDigitChars_append, Nat.ofDigitChars_replicate_zero, Nat.mul_zero,
    Nat.ofDigitChars_ten_toDigits]

theorem digitsValue_scaled (number zeros : Nat) :
    digitsValue (Nat.toDigits 10 number ++ List.replicate zeros '0') = 10 ^ zeros * number := by
  rw [digitsValue_eq, Nat.ofDigitChars_append, Nat.ofDigitChars_ten_toDigits,
    Nat.ofDigitChars_replicate_zero]

theorem numeral_positional (decimal : Decimal) :
    ∃ spelled, Numeral decimal.positional spelled ∧ spelled.value = decimal.value := by
  obtain ⟨coefficient, exponent⟩ := decimal
  have digits : ∀ digit ∈ Nat.toDigits 10 coefficient, isDigit digit = true :=
    fun digit member => isDigit_of_mem_toDigits member
  have zeros (count : Nat) : ∀ digit ∈ List.replicate count '0', isDigit digit = true := by
    intro digit member
    rw [(List.mem_replicate.mp member).2]
    decide
  cases exponent with
  | ofNat power =>
      refine ⟨_, @Numeral.whole (Nat.toDigits 10 coefficient ++ List.replicate power '0') ?_ ?_, ?_⟩
      · simp [Nat.toDigits_ne_nil]
      · intro digit member
        exact (List.mem_append.mp member).elim (digits digit) (zeros power digit)
      · simp [Decimal.value, digitsValue_scaled, mul_comm]
  | negSucc power =>
      simp only [Decimal.positional]
      split
      next fits =>
        have cut := List.take_append_drop ((Nat.toDigits 10 coefficient).length - (power + 1))
          (Nat.toDigits 10 coefficient)
        have places : ((Nat.toDigits 10 coefficient).drop
            ((Nat.toDigits 10 coefficient).length - (power + 1))).length = power + 1 := by
          rw [List.length_drop]
          omega
        refine ⟨_, .fraction ?_ ?_ ?_ ?_, ?_⟩
        · rw [ne_eq, List.take_eq_nil_iff, not_or]
          exact ⟨by omega, Nat.toDigits_ne_nil⟩
        · exact fun digit member => digits digit (List.mem_of_mem_take member)
        · exact List.ne_nil_of_length_pos (by omega)
        · exact fun digit member => digits digit (List.mem_of_mem_drop member)
        · rw [cut, digitsValue_toDigits, places]
          rfl
      next =>
        have some := List.length_pos_of_ne_nil (Nat.toDigits_ne_nil (n := coefficient) (b := 10))
        refine ⟨_, @Numeral.fraction ['0'] _ (List.cons_ne_nil _ _) (zeros 1) ?_ ?_, ?_⟩
        · simp [Nat.toDigits_ne_nil]
        · intro digit member
          exact (List.mem_append.mp member).elim (zeros _ digit) (digits digit)
        · have value := digitsValue_padded coefficient
            (power + 1 - (Nat.toDigits 10 coefficient).length + 1)
          rw [List.replicate_succ, List.cons_append] at value
          rw [List.singleton_append, value, List.length_append, List.length_replicate,
            Nat.sub_add_cancel (by omega)]
          rfl

/-- What the text of a double says behind its sign: it is a numeral for a number that rounds to
the double, or tells that there is none. -/
inductive TextCase (number : Float) : Bool → List Char → Prop where
  | finite {negative : Bool} {pattern : Nat} {text : List Char} {decimal : Decimal}
      (bits : number.toBits.toNat = signPattern negative + pattern)
      (numeral : Numeral text decimal) (attracts : (ofPattern pattern).Attracts decimal.value) :
      TextCase number negative text
  | infinite {negative : Bool}
      (bits : number.toBits.toNat = signPattern negative + infinityPattern) :
      TextCase number negative Spelling.source.infinity.toList
  | undefined (bits : number.toBits.toNat = (packedNaN .binary64).toNat) :
      TextCase number false "NaN".toList

theorem attracts_zero {magnitude : Magnitude} (zero : magnitude.significand = 0) :
    magnitude.Attracts 0 := by
  have low : magnitude.low = 0 := by simp [Magnitude.low, Magnitude.lowQuarters, zero]
  have high : 0 ≤ magnitude.high := by
    unfold Magnitude.high
    positivity
  simpa [Magnitude.Attracts, zero, low] using high

/-- The text of a finite number is a numeral that rounds to it. -/
theorem render_finite (spelling : Spelling) {number : Float} {negative : Bool}
    {magnitude : Magnitude} (finite : decode number = .finite negative magnitude) :
    ∃ text decimal, Numeral text decimal ∧ magnitude.Attracts decimal.value ∧
      render spelling number = signed negative (String.ofList text) := by
  simp only [render, finite]
  split
  next zero =>
    refine ⟨['0'], ⟨0, 0⟩, .whole (List.cons_ne_nil _ _) (by simp [isDigit]), ?_, rfl⟩
    simpa [Decimal.value] using attracts_zero zero
  next nonzero =>
    obtain ⟨decimal, numeral, same⟩ := numeral_positional magnitude.shortest
    have attracts := magnitude.attracts_shortest (Nat.pos_of_ne_zero nonzero)
    exact ⟨_, decimal, numeral, same ▸ attracts, rfl⟩

theorem render_cases (number : Float) :
    ∃ negative text, TextCase number negative text ∧
      render .source number = signed negative (String.ofList text) := by
  have cases := decode_cases number
  cases same : decode number with
  | finite negative magnitude =>
      obtain ⟨text, decimal, numeral, attracts, rendered⟩ := render_finite .source same
      rw [same] at cases
      cases cases with
      | finite below bits => exact ⟨_, _, .finite bits numeral attracts, rendered⟩
  | infinite negative =>
      rw [same] at cases
      cases cases with
      | infinite bits => exact ⟨_, _, .infinite bits, by simp [render, same]⟩
  | undefined =>
      rw [same] at cases
      cases cases with
      | undefined bits => exact ⟨_, _, .undefined bits, by simp [render, same, signed]⟩

variable {first second : Float} {negative : Bool} {text : List Char}

theorem TextCase.head (written : TextCase first negative text) : text.head? ≠ some '-' := by
  cases written with
  | finite bits numeral attracts =>
      obtain ⟨digit, rest, rfl, isDigit⟩ := numeral.start
      rintro ⟨⟩
      exact absurd isDigit (by decide)
  | infinite => decide
  | undefined => decide

theorem signed_injective {negative negativeToo : Bool} {text other : List Char}
    (unsigned : text.head? ≠ some '-') (unsignedToo : other.head? ≠ some '-')
    (same : signed negative (String.ofList text) = signed negativeToo (String.ofList other)) :
    negative = negativeToo ∧ text = other := by
  have characters := congrArg String.toList same
  cases negative <;> cases negativeToo <;> simp [signed] at characters
  · exact ⟨rfl, characters⟩
  · exact absurd (by simp [characters]) unsigned
  · exact absurd (by simp [← characters]) unsignedToo
  · exact ⟨rfl, characters⟩

theorem TextCase.unique (written : TextCase first negative text)
    (writtenToo : TextCase second negative text) : first = second := by
  -- The other texts start with letters.
  have notNumeral {text : List Char} {decimal : Decimal} (numeral : Numeral text decimal)
      (letter : text.head?.any isDigit = false) : False := by
    obtain ⟨digit, rest, rfl, isDigit⟩ := numeral.start
    simp [isDigit] at letter
  cases written with
  | finite bits numeral attracts =>
      cases writtenToo with
      | finite bitsToo numeralToo attractsToo =>
          have same := (Token.ofText?_of_numeral numeral).symm.trans
            (Token.ofText?_of_numeral numeralToo)
          cases same
          have pattern := Magnitude.pattern_unique attracts attractsToo
          exact eq_of_toBits_eq (bits.trans (pattern ▸ bitsToo.symm))
      | infinite => exact (notNumeral numeral (by decide)).elim
      | undefined => exact (notNumeral numeral (by decide)).elim
  | infinite bits =>
      generalize infinite : Spelling.source.infinity.toList = text at writtenToo
      cases writtenToo with
      | finite bitsToo numeral attracts => exact (notNumeral (infinite ▸ numeral) (by decide)).elim
      | infinite bitsToo => exact eq_of_toBits_eq (bits.trans bitsToo.symm)
      | undefined => exact absurd infinite (by decide)
  | undefined bits =>
      generalize undefined : "NaN".toList = text at writtenToo
      cases writtenToo with
      | finite bitsToo numeral attracts => exact (notNumeral (undefined ▸ numeral) (by decide)).elim
      | infinite => exact absurd undefined (by decide)
      | undefined bitsToo => exact eq_of_toBits_eq (bits.trans bitsToo.symm)

/-- Different doubles have different texts in sources and listings. -/
theorem render_injective : Function.Injective (render .source) := by
  intro first second same
  obtain ⟨negative, text, written, rendered⟩ := render_cases first
  obtain ⟨negativeToo, other, writtenToo, renderedToo⟩ := render_cases second
  rw [rendered, renderedToo] at same
  obtain ⟨rfl, rfl⟩ := signed_injective written.head writtenToo.head same
  exact written.unique writtenToo

/-- The text of a finite number without a sign is a numeral. -/
theorem numeral_render {number : Float} (finite : number.isFinite = true)
    (notNegative : NotNegative number) :
    ∃ decimal, Numeral (render .source number).toList decimal := by
  obtain ⟨negative, magnitude, same⟩ := decode_of_isFinite finite
  obtain ⟨text, decimal, numeral, -, rendered⟩ := render_finite .source same
  have positive : negative = false := by
    have cases := decode_cases number
    rw [same] at cases
    cases cases with
    | finite below bits =>
        cases negative with
        | false => rfl
        | true =>
            unfold NotNegative infinityPattern at notNegative
            simp only [signPattern, if_true] at bits
            omega
  subst positive
  rw [rendered]
  exact ⟨decimal, by simpa [signed] using numeral⟩

end PipeLang.Number
