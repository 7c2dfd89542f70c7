import Mathlib
import PipeLang.Number.Shortest

namespace PipeLang.Number

/-! # Rounding intervals

Every double is surrounded by the numbers that round to it. In the order of their bit patterns
each interval ends where the next one starts, and the common end belongs to the double whose
significand is even, so no number rounds to two doubles. The digits that a double is written with
stay inside its interval.
-/

/-- The number that a decimal stands for. -/
def Decimal.value (decimal : Decimal) : ℚ :=
  decimal.coefficient * 10 ^ decimal.exponent

namespace Magnitude

/-- Where the numbers that round to the magnitude start. -/
def low (magnitude : Magnitude) : ℚ :=
  magnitude.lowQuarters * 2 ^ (magnitude.exponent - 2)

/-- Where they end. -/
def high (magnitude : Magnitude) : ℚ :=
  magnitude.highQuarters * 2 ^ (magnitude.exponent - 2)

/-- The number rounds to the magnitude. -/
def Attracts (magnitude : Magnitude) (number : ℚ) : Prop :=
  if magnitude.significand % 2 = 0 then magnitude.low ≤ number ∧ number ≤ magnitude.high
  else magnitude.low < number ∧ number < magnitude.high

variable {magnitude : Magnitude} {number : ℚ}

theorem Attracts.low_le (attracts : magnitude.Attracts number) : magnitude.low ≤ number := by
  unfold Attracts at attracts
  split at attracts
  · exact attracts.1
  · exact attracts.1.le

theorem Attracts.le_high (attracts : magnitude.Attracts number) : number ≤ magnitude.high := by
  unfold Attracts at attracts
  split at attracts
  · exact attracts.2
  · exact attracts.2.le

theorem attracts_of_between (above : magnitude.low < number) (under : number < magnitude.high) :
    magnitude.Attracts number := by
  unfold Attracts
  split
  · exact ⟨above.le, under.le⟩
  · exact ⟨above, under⟩

/-- A negative power disappears against a power that is large enough. -/
theorem zpow_mul_pow_toNat {base : ℚ} (nonzero : base ≠ 0) (power : ℤ) :
    base ^ power * base ^ (-power).toNat = base ^ power.toNat := by
  rw [← zpow_natCast, ← zpow_natCast, ← zpow_add₀ nonzero]
  congr 1
  omega

/-- What both sides of a comparison are multiplied with. -/
def scale (magnitude : Magnitude) (exponent : ℤ) : ℚ :=
  2 ^ (2 - magnitude.exponent).toNat * 10 ^ (-exponent).toNat

theorem scale_pos (magnitude : Magnitude) (exponent : ℤ) : 0 < magnitude.scale exponent := by
  unfold scale
  positivity

theorem measure_eq (magnitude : Magnitude) (exponent : ℤ) (quarters : Nat) :
    (magnitude.measure exponent quarters : ℚ) =
      quarters * 2 ^ (magnitude.exponent - 2) * magnitude.scale exponent := by
  have power := zpow_mul_pow_toNat (two_ne_zero (α := ℚ)) (magnitude.exponent - 2)
  rw [neg_sub] at power
  simp only [measure, scale, Nat.pow_eq, Nat.cast_mul, Nat.cast_pow, Nat.cast_ofNat, ← power]
  ring

theorem mul_unit_eq (magnitude : Magnitude) (decimal : Decimal) :
    ((decimal.coefficient * magnitude.unit decimal.exponent : Nat) : ℚ) =
      decimal.value * magnitude.scale decimal.exponent := by
  have power := zpow_mul_pow_toNat (by norm_num : (10 : ℚ) ≠ 0) decimal.exponent
  simp only [unit, scale, Decimal.value, Nat.pow_eq, Nat.cast_mul, Nat.cast_pow, Nat.cast_ofNat,
    ← power]
  ring

theorem measure_le_iff {decimal : Decimal} {quarters : Nat} :
    magnitude.measure decimal.exponent quarters ≤
        decimal.coefficient * magnitude.unit decimal.exponent ↔
      quarters * 2 ^ (magnitude.exponent - 2) ≤ decimal.value := by
  rw [← Nat.cast_le (α := ℚ), measure_eq, mul_unit_eq, mul_le_mul_iff_left₀ (scale_pos _ _)]

theorem le_measure_iff {decimal : Decimal} {quarters : Nat} :
    decimal.coefficient * magnitude.unit decimal.exponent ≤
        magnitude.measure decimal.exponent quarters ↔
      decimal.value ≤ quarters * 2 ^ (magnitude.exponent - 2) := by
  rw [← Nat.cast_le (α := ℚ), measure_eq, mul_unit_eq, mul_le_mul_iff_left₀ (scale_pos _ _)]

theorem contains_iff_attracts {decimal : Decimal} :
    magnitude.contains decimal = true ↔ magnitude.Attracts decimal.value := by
  unfold contains Attracts low high
  split
  · rw [Bool.and_eq_true, decide_eq_true_eq, decide_eq_true_eq, measure_le_iff, le_measure_iff]
  · rw [Bool.and_eq_true, decide_eq_true_eq, decide_eq_true_eq, ← not_le, le_measure_iff, ← not_le,
      measure_le_iff, not_le, not_le]

theorem zpow_eq_quarters (exponent : ℤ) : (2 : ℚ) ^ exponent = 4 * 2 ^ (exponent - 2) := by
  rw [zpow_sub₀ two_ne_zero]
  ring

theorem low_lt (positive : 0 < magnitude.significand) :
    magnitude.low < magnitude.significand * 2 ^ magnitude.exponent := by
  have quarters : (magnitude.lowQuarters : ℚ) < 4 * magnitude.significand := by
    have less : magnitude.lowQuarters < 4 * magnitude.significand := by
      unfold lowQuarters
      split <;> omega
    exact_mod_cast less
  rw [low, zpow_eq_quarters magnitude.exponent, ← mul_assoc, mul_comm _ (4 : ℚ)]
  exact mul_lt_mul_of_pos_right quarters (by positivity)

theorem lt_high (magnitude : Magnitude) :
    magnitude.significand * 2 ^ magnitude.exponent < magnitude.high := by
  have quarters : (magnitude.highQuarters : ℚ) = 4 * magnitude.significand + 2 := by
    simp [highQuarters]
  rw [high, zpow_eq_quarters magnitude.exponent, quarters, ← mul_assoc, mul_comm _ (4 : ℚ)]
  exact mul_lt_mul_of_pos_right (by linarith) (by positivity)

theorem value_exactDecimal (magnitude : Magnitude) :
    magnitude.exactDecimal.value = magnitude.significand * 2 ^ magnitude.exponent := by
  unfold exactDecimal
  split
  next power same => simp [Decimal.value, same]
  next power same =>
    have five : (5 : ℚ) = 10 * 2⁻¹ := by norm_num
    simp only [Decimal.value, same, Nat.pow_eq, Nat.cast_mul, Nat.cast_pow, Nat.cast_ofNat,
      zpow_negSucc, five, mul_pow, inv_pow]
    field_simp

theorem onGrid?_contains {exponent : ℤ} {decimal : Decimal}
    (found : magnitude.onGrid? exponent = some decimal) : magnitude.contains decimal = true := by
  unfold onGrid? at found
  simp only at found
  split at found
  next below =>
    cases found
    exact (Bool.and_eq_true_iff.mp below).1
  next =>
    split at found
    next above =>
      cases found
      exact above
    next => cases found

theorem attracts_shortest (positive : 0 < magnitude.significand) :
    magnitude.Attracts magnitude.shortest.value := by
  unfold shortest
  simp only
  cases found : ((List.range 25).map fun (finer : Nat) =>
      magnitude.coarsestExponent - finer).findSome? magnitude.onGrid? with
  | some decimal =>
      obtain ⟨exponent, -, onGrid⟩ := List.exists_of_findSome?_eq_some found
      exact contains_iff_attracts.mp (onGrid?_contains onGrid)
  | none =>
      rw [Option.getD_none, value_exactDecimal]
      exact attracts_of_between (low_lt positive) magnitude.lt_high

/-- The pattern of an infinite number, above those of all finite ones. -/
def infinityPattern : Nat := 2047 * 2 ^ 52

/-- The magnitude of a finite number with the given pattern behind its sign. -/
def ofPattern (pattern : Nat) : Magnitude :=
  if pattern / 2 ^ 52 = 0 then ⟨pattern % 2 ^ 52, leastExponent, false⟩
  else
    ⟨2 ^ 52 + pattern % 2 ^ 52, leastExponent + (pattern / 2 ^ 52 - 1 : Nat),
      pattern % 2 ^ 52 == 0 && pattern / 2 ^ 52 > 1⟩

theorem ofPattern_subnormal {fraction : Nat} (less : fraction < 2 ^ 52) :
    ofPattern fraction = ⟨fraction, leastExponent, false⟩ := by
  rw [ofPattern, if_pos (Nat.div_eq_of_lt less), Nat.mod_eq_of_lt less]

theorem ofPattern_normal {fraction : Nat} (less : fraction < 2 ^ 52) (biased : Nat) :
    ofPattern ((biased + 1) * 2 ^ 52 + fraction) =
      ⟨2 ^ 52 + fraction, leastExponent + biased, fraction == 0 && biased > 0⟩ := by
  have quotient : ((biased + 1) * 2 ^ 52 + fraction) / 2 ^ 52 = biased + 1 := by omega
  have remainder : ((biased + 1) * 2 ^ 52 + fraction) % 2 ^ 52 = fraction := by omega
  rw [ofPattern, quotient, remainder, if_neg (Nat.succ_ne_zero biased), Nat.add_sub_cancel]
  simp

/-- Every pattern is subnormal or normal. -/
theorem pattern_cases (pattern : Nat) : ∃ fraction < 2 ^ 52,
    pattern = fraction ∨ ∃ biased, pattern = (biased + 1) * 2 ^ 52 + fraction := by
  refine ⟨pattern % 2 ^ 52, Nat.mod_lt _ (by decide), ?_⟩
  by_cases normal : pattern / 2 ^ 52 = 0
  · exact .inl (by omega)
  · exact .inr ⟨pattern / 2 ^ 52 - 1, by omega⟩

theorem significand_parity (pattern : Nat) :
    (ofPattern pattern).significand % 2 = pattern % 2 := by
  unfold ofPattern
  split <;> simp only <;> omega

theorem low_lt_high (pattern : Nat) : (ofPattern pattern).low < (ofPattern pattern).high := by
  have quarters : ((ofPattern pattern).lowQuarters : ℚ) < (ofPattern pattern).highQuarters := by
    have less : (ofPattern pattern).lowQuarters < (ofPattern pattern).highQuarters := by
      unfold lowQuarters highQuarters
      split <;> omega
    exact_mod_cast less
  exact mul_lt_mul_of_pos_right quarters (by positivity)

theorem high_eq_low_same_gap {next : Magnitude}
    (significand : next.significand = magnitude.significand + 1)
    (exponent : next.exponent = magnitude.exponent) (wide : next.narrowBelow = false) :
    magnitude.high = next.low := by
  have quarters : magnitude.highQuarters = next.lowQuarters := by
    simp only [highQuarters, lowQuarters, significand, wide, Bool.false_eq_true, if_false]
    omega
  rw [high, low, quarters, exponent]

/-- Above a power of two the gap between neighbours is twice as wide as below it. -/
theorem high_eq_low_wider_gap {next : Magnitude}
    (significand : 2 * next.significand = magnitude.significand + 1)
    (exponent : next.exponent = magnitude.exponent + 1) (narrow : next.narrowBelow = true) :
    magnitude.high = next.low := by
  have quarters : magnitude.highQuarters = 2 * next.lowQuarters := by
    simp only [highQuarters, lowQuarters, narrow, if_true]
    omega
  have power : (2 : ℚ) ^ (magnitude.exponent + 1 - 2) = 2 ^ (magnitude.exponent - 2) * 2 := by
    rw [← zpow_add_one₀ two_ne_zero]
    congr 1
    ring
  rw [high, low, quarters, exponent, power]
  push_cast
  ring

/-- Each interval ends where the next one starts. -/
theorem high_eq_low_succ (pattern : Nat) :
    (ofPattern pattern).high = (ofPattern (pattern + 1)).low := by
  obtain ⟨fraction, less, same | ⟨biased, same⟩⟩ := pattern_cases pattern <;> rw [same]
  · by_cases within : fraction + 1 < 2 ^ 52
    · rw [ofPattern_subnormal less, ofPattern_subnormal within]
      exact high_eq_low_same_gap rfl rfl rfl
    · have top : fraction + 1 = (0 + 1) * 2 ^ 52 + 0 := by omega
      rw [ofPattern_subnormal less, top, ofPattern_normal (by decide)]
      exact high_eq_low_same_gap top.symm (by simp) (by simp)
  · by_cases within : fraction + 1 < 2 ^ 52
    · rw [Nat.add_assoc, ofPattern_normal less, ofPattern_normal within]
      exact high_eq_low_same_gap rfl rfl (by simp)
    · have top : (biased + 1) * 2 ^ 52 + fraction + 1 = (biased + 1 + 1) * 2 ^ 52 + 0 := by omega
      rw [top, ofPattern_normal less, ofPattern_normal (by decide)]
      have last : fraction + 1 = 2 ^ 52 := by omega
      have double : 2 * (2 ^ 52 + 0) = 2 ^ 52 + fraction + 1 := by
        rw [Nat.add_assoc, last, Nat.add_zero, Nat.two_mul]
      refine high_eq_low_wider_gap double ?_ (by simp)
      push_cast
      ring

theorem high_strictMono : StrictMono fun pattern => (ofPattern pattern).high := by
  refine strictMono_nat_of_lt_succ fun pattern => ?_
  rw [high_eq_low_succ]
  exact low_lt_high (pattern + 1)

theorem Attracts.even_of_eq_high {pattern : Nat}
    (attracts : (ofPattern pattern).Attracts (ofPattern pattern).high) : pattern % 2 = 0 := by
  unfold Attracts at attracts
  split at attracts
  next even => rwa [significand_parity] at even
  next => exact absurd attracts.2 (lt_irrefl _)

theorem Attracts.even_of_eq_low {pattern : Nat}
    (attracts : (ofPattern pattern).Attracts (ofPattern pattern).low) : pattern % 2 = 0 := by
  unfold Attracts at attracts
  split at attracts
  next even => rwa [significand_parity] at even
  next => exact absurd attracts.1 (lt_irrefl _)

/-- A number in two intervals would be their common end, but of two neighbouring patterns one
is odd. -/
theorem Attracts.not_less {first second : Nat} (attracts : (ofPattern first).Attracts number)
    (attractsToo : (ofPattern second).Attracts number) : ¬ first < second := by
  intro before
  obtain ⟨between, rfl⟩ := Nat.exists_eq_add_of_le' before
  have last : (ofPattern first).high ≤ (ofPattern (between + first)).high :=
    high_strictMono.monotone (Nat.le_add_left first between)
  have start := high_eq_low_succ (between + first)
  have same : (ofPattern first).high = (ofPattern (between + first)).high :=
    le_antisymm last (start.trans_le (attractsToo.low_le.trans attracts.le_high))
  have next : first = between + first := high_strictMono.injective same
  have common : number = (ofPattern first).high :=
    le_antisymm attracts.le_high ((same.trans start).trans_le attractsToo.low_le)
  have even : first % 2 = 0 := (common ▸ attracts).even_of_eq_high
  have evenToo : (between + first + 1) % 2 = 0 := by
    refine Attracts.even_of_eq_low ?_
    rwa [← start, ← same, ← common]
  omega

/-- No number rounds to two magnitudes. -/
theorem pattern_unique {first second : Nat} (attracts : (ofPattern first).Attracts number)
    (attractsToo : (ofPattern second).Attracts number) : first = second := by
  have notLess := attracts.not_less attractsToo
  have notMore := attractsToo.not_less attracts
  omega

end Magnitude

end PipeLang.Number
