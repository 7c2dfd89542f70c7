import PipeLang.Evaluation.Evaluate

namespace PipeLang

/-! # Operands of the numeric functions

Arithmetic reads all its arguments before it computes anything, so one that is no number always
shows. A comparison goes through the pairs of neighbours from left to right and ends at the first
pair that settles the answer, so what stands behind that pair does not matter.
-/

/-- How many numbers there are before the first value that is none. -/
def Value.leadingNumbers (values : List Value) : Nat :=
  values.findIdx fun value => value.kind ≠ .number

namespace Value

variable {values : List Value} {value : Value}

theorem asNumber_of_kind (other : value.kind ≠ .number) :
    value.asNumber = .error (.typeMismatch .number value.kind) := by
  cases value with
  | number amount => exact absurd rfl other
  | _ => rfl

@[simp] theorem asNumber_number (amount : Float) : (number amount).asNumber = .ok amount := rfl

@[simp] theorem leadingNumbers_number (amount : Float) (values : List Value) :
    leadingNumbers (.number amount :: values) = leadingNumbers values + 1 := by
  simp [leadingNumbers, List.findIdx_cons, kind]

theorem leadingNumbers_other (other : value.kind ≠ .number) (values : List Value) :
    leadingNumbers (value :: values) = 0 := by
  simp [leadingNumbers, List.findIdx_cons, other]

theorem number_or_other (value : Value) :
    (∃ amount, value = .number amount) ∨ value.kind ≠ .number := by
  cases value with
  | number amount => exact .inl ⟨amount, rfl⟩
  | _ => exact .inr nofun

theorem number_of_leadingNumbers (some : 0 < leadingNumbers values) :
    ∃ amount others, values = .number amount :: others := by
  cases values with
  | nil => simp [leadingNumbers] at some
  | cons value others =>
      obtain ⟨amount, rfl⟩ | other := number_or_other value
      · exact ⟨amount, others, rfl⟩
      · simp [leadingNumbers_other other] at some

theorem kind_of_leadingNumbers (found : values[leadingNumbers values]? = some value) :
    value.kind ≠ .number := by
  obtain ⟨inside, rfl⟩ := List.getElem?_eq_some_iff.mp found
  exact of_decide_eq_true (List.findIdx_getElem (w := inside))

theorem asNumbers_of_other (found : values[leadingNumbers values]? = some value) :
    asNumbers values = .error (.typeMismatch .number value.kind) := by
  induction values with
  | nil => cases found
  | cons first others ih =>
      obtain ⟨amount, rfl⟩ | other := number_or_other first
      · rw [leadingNumbers_number, List.getElem?_cons_succ] at found
        simp [asNumbers, ih found]
      · rw [leadingNumbers_other other] at found
        cases found
        simp [asNumbers, asNumber_of_kind other]

theorem asNumbers_numbers (numbers : List Float) :
    asNumbers (numbers.map .number) = .ok numbers := by
  induction numbers with
  | nil => rfl
  | cons amount others ih => simp [asNumbers, ih]

theorem eq_numbers_of_leadingNumbers (none : values[leadingNumbers values]? = none) :
    ∃ numbers : List Float, values = numbers.map .number := by
  induction values with
  | nil => exact ⟨[], rfl⟩
  | cons first others ih =>
      obtain ⟨amount, rfl⟩ | other := number_or_other first
      · rw [leadingNumbers_number, List.getElem?_cons_succ] at none
        obtain ⟨numbers, rfl⟩ := ih none
        exact ⟨amount :: numbers, rfl⟩
      · simp [leadingNumbers_other other] at none

end Value

namespace Arithmetic

/-- The numbers combined from left to right. A sum starts from 0 and a product from 1; a
difference and a quotient start from the first number, which has to be there. -/
def combine? : Arithmetic → List Float → Option Float
  | .add, numbers => some (numbers.foldl (· + ·) 0)
  | .multiply, numbers => some (numbers.foldl (· * ·) 1)
  | .subtract, first :: others => some (others.foldl (· - ·) first)
  | .divide, first :: others => some (others.foldl (· / ·) first)
  | _, [] => none

theorem combine?_eq_none {operation : Arithmetic} {numbers : List Float} :
    operation.combine? numbers = none ↔
      (operation = .subtract ∨ operation = .divide) ∧ numbers = [] := by
  cases operation <;> cases numbers <;> simp [combine?]

theorem apply_numbers (operation : Arithmetic) (numbers : List Float) :
    operation.apply (numbers.map .number) =
      match operation.combine? numbers with
      | some result => .ok [.number result]
      | none => .error (.missingArguments operation.name 1 0) := by
  rw [apply, Value.asNumbers_numbers]
  cases operation <;> cases numbers <;> rfl

theorem apply_of_other {operation : Arithmetic} {arguments : List Value} {other : Value}
    (found : arguments[Value.leadingNumbers arguments]? = some other) :
    operation.apply arguments = .error (.typeMismatch .number other.kind) := by
  rw [apply, Value.asNumbers_of_other found]

theorem apply_mismatch_iff {operation : Arithmetic} {arguments : List Value} :
    (∃ found, operation.apply arguments = .error (.typeMismatch .number found)) ↔
      ∃ value ∈ arguments, value.kind ≠ .number := by
  cases first : arguments[Value.leadingNumbers arguments]? with
  | some other =>
      have present := List.mem_of_getElem? first
      have different := Value.kind_of_leadingNumbers first
      exact ⟨fun _ => ⟨other, present, different⟩, fun _ => ⟨_, apply_of_other first⟩⟩
  | none =>
      obtain ⟨numbers, rfl⟩ := Value.eq_numbers_of_leadingNumbers first
      constructor
      · intro mismatch
        obtain ⟨found, failed⟩ := mismatch
        rw [apply_numbers] at failed
        split at failed <;> cases failed
      · intro other
        obtain ⟨value, member, different⟩ := other
        obtain ⟨number, -, rfl⟩ := List.mem_map.mp member
        exact absurd rfl different

theorem apply_missing_iff {operation : Arithmetic} {arguments : List Value} :
    (∃ name expected found,
        operation.apply arguments = .error (.missingArguments name expected found)) ↔
      (operation = .subtract ∨ operation = .divide) ∧ arguments = [] := by
  constructor
  · intro missing
    obtain ⟨name, expected, found, failed⟩ := missing
    cases first : arguments[Value.leadingNumbers arguments]? with
    | some other =>
        rw [apply_of_other first] at failed
        cases failed
    | none =>
        obtain ⟨numbers, rfl⟩ := Value.eq_numbers_of_leadingNumbers first
        rw [apply_numbers] at failed
        split at failed
        next => cases failed
        next nothing =>
          obtain ⟨reversed, rfl⟩ := combine?_eq_none.mp nothing
          exact ⟨reversed, rfl⟩
  · intro empty
    obtain ⟨rfl | rfl, rfl⟩ := empty
    · exact ⟨_, _, _, rfl⟩
    · exact ⟨_, _, _, rfl⟩

end Arithmetic

namespace Comparison

variable {relation : Comparison} {arguments : List Value}

/-- At this place and the next there are numbers that are not so related. -/
def FailsAt (relation : Comparison) (arguments : List Value) (place : Nat) : Prop :=
  ∃ left right, arguments[place]? = some (.number left) ∧
    arguments[place + 1]? = some (.number right) ∧ relation.holds left right = false

theorem failsAt_cons {value : Value} {place : Nat} :
    relation.FailsAt (value :: arguments) (place + 1) ↔ relation.FailsAt arguments place :=
  Iff.rfl

/-- The pair of numbers that is not so related settles the answer, or an earlier one does. -/
theorem holdsBetween_of_failsAt {place : Nat} (fails : relation.FailsAt arguments place)
    (early : place + 1 < Value.leadingNumbers arguments) (others : List Value) :
    relation.holdsBetween (arguments.take (place + 2) ++ others) = .ok false := by
  induction place generalizing arguments with
  | zero =>
      obtain ⟨left, right, first, second, unrelated⟩ := fails
      obtain ⟨_, tail, rfl⟩ := Value.number_of_leadingNumbers (Nat.zero_lt_of_lt early)
      rw [Value.leadingNumbers_number] at early
      obtain ⟨_, behind, rfl⟩ := Value.number_of_leadingNumbers (Nat.lt_of_succ_lt_succ early)
      cases first
      cases second
      simp [holdsBetween, unrelated]
  | succ place ih =>
      obtain ⟨left, tail, rfl⟩ := Value.number_of_leadingNumbers (Nat.zero_lt_of_lt early)
      rw [Value.leadingNumbers_number] at early
      have onward := Nat.lt_of_succ_lt_succ early
      have rest := ih (failsAt_cons.mp fails) onward
      obtain ⟨right, behind, rfl⟩ := Value.number_of_leadingNumbers (Nat.zero_lt_of_lt onward)
      simp only [List.take_succ_cons, List.cons_append] at rest ⊢
      simp [holdsBetween, rest]

/-- If the numbers before it are so related, the first value that is no number is an error. -/
theorem holdsBetween_of_related (two : 2 ≤ arguments.length)
    (related : ∀ place, place + 1 < Value.leadingNumbers arguments →
      ¬ relation.FailsAt arguments place) :
    relation.holdsBetween arguments =
      match arguments[Value.leadingNumbers arguments]? with
      | some other => .error (.typeMismatch .number other.kind)
      | none => .ok true := by
  induction arguments with
  | nil => cases two
  | cons first tail ih =>
      cases tail with
      | nil => simp at two
      | cons second others =>
          obtain ⟨left, rfl⟩ | other := Value.number_or_other first
          · obtain ⟨right, rfl⟩ | other := Value.number_or_other second
            · have holds : relation.holds left right = true := by
                apply eq_true_of_ne_false
                intro unrelated
                exact related 0 (by simp) ⟨left, right, rfl, rfl, unrelated⟩
              rw [Value.leadingNumbers_number, List.getElem?_cons_succ]
              cases others with
              | nil => simp [holdsBetween, holds]
              | cons third others =>
                  rw [← ih (by simp) fun place early => related (place + 1) (by simpa using early)]
                  simp [holdsBetween, holds]
            · rw [Value.leadingNumbers_number, Value.leadingNumbers_other other]
              simp [holdsBetween, Value.asNumber_of_kind other]
          · rw [Value.leadingNumbers_other other]
            simp [holdsBetween, Value.asNumber_of_kind other]

theorem apply_of_failsAt {place : Nat} (fails : relation.FailsAt arguments place)
    (early : place + 1 < Value.leadingNumbers arguments) (others : List Value) :
    relation.apply (arguments.take (place + 2) ++ others) = .ok [.boolean false] := by
  have inside : Value.leadingNumbers arguments ≤ arguments.length := List.findIdx_le_length
  have enough : ¬ (arguments.take (place + 2) ++ others).length < 2 := by
    simp only [List.length_append, List.length_take]
    omega
  rw [apply, if_neg enough, holdsBetween_of_failsAt fails early]

theorem apply_of_related (two : 2 ≤ arguments.length)
    (related : ∀ place, place + 1 < Value.leadingNumbers arguments →
      ¬ relation.FailsAt arguments place) :
    relation.apply arguments =
      match arguments[Value.leadingNumbers arguments]? with
      | some other => .error (.typeMismatch .number other.kind)
      | none => .ok [.boolean true] := by
  rw [apply, if_neg (Nat.not_lt.mpr two), holdsBetween_of_related two related]
  cases arguments[Value.leadingNumbers arguments]? <;> rfl

end Comparison

theorem Machine.answer_eq_fail {machine : Machine} {location : Location} {cause : RuntimeCause}
    {result : Except RuntimeCause (List Value)} :
    machine.answer location result = machine.fail location cause ↔ result = .error cause := by
  cases result <;> simp [answer, fail]

/-- Arithmetic fails at the first argument that is no number, wherever that is; otherwise it
combines the numbers, of which only differences and quotients need one. A comparison of at least
two arguments answers `false` as soon as two neighbours are not related and everything up to them
is a number, whatever follows; otherwise it fails at the first argument that is no number, or
answers `true`. None of them touches the machine. -/
theorem numeric_functions_check_operands (run : Evaluator) (rounds : Nat) (location : Location)
    (arguments : List Value) (machine : Machine) :
    (∀ operation : Arithmetic,
      let outcome := applyBuiltin run rounds (.arithmetic operation) location arguments machine
      Builtin.named? operation.name = some (.arithmetic operation) ∧
      ((∃ found, outcome = machine.fail location (.typeMismatch .number found)) ↔
        ∃ value ∈ arguments, value.kind ≠ .number) ∧
      (∀ other, arguments[Value.leadingNumbers arguments]? = some other →
        outcome = machine.fail location (.typeMismatch .number other.kind)) ∧
      ((∃ name expected found,
          outcome = machine.fail location (.missingArguments name expected found)) ↔
        (operation = .subtract ∨ operation = .divide) ∧ arguments = []) ∧
      ∀ numbers : List Float, arguments = numbers.map .number →
        outcome = match operation.combine? numbers with
          | some result => .returned [.number result] machine
          | none => machine.fail location (.missingArguments operation.name 1 0)) ∧
    ∀ relation : Comparison,
      let outcome (arguments : List Value) :=
        applyBuiltin run rounds (.comparison relation) location arguments machine
      Builtin.named? relation.name = some (.comparison relation) ∧
      (arguments.length < 2 → outcome arguments = machine.fail location .comparisonOperands) ∧
      (∀ place, place + 1 < Value.leadingNumbers arguments → relation.FailsAt arguments place →
        outcome arguments = .returned [.boolean false] machine ∧
        ∀ others, outcome (arguments.take (place + 2) ++ others) =
          .returned [.boolean false] machine) ∧
      (2 ≤ arguments.length →
        (∀ place, place + 1 < Value.leadingNumbers arguments →
          ¬ relation.FailsAt arguments place) →
        outcome arguments = match arguments[Value.leadingNumbers arguments]? with
          | some other => machine.fail location (.typeMismatch .number other.kind)
          | none => .returned [.boolean true] machine) := by
  constructor
  · intro operation outcome
    have answered : outcome = machine.answer location (operation.apply arguments) := rfl
    simp only [answered, Machine.answer_eq_fail]
    refine ⟨by cases operation <;> rfl, Arithmetic.apply_mismatch_iff, ?_,
      Arithmetic.apply_missing_iff, ?_⟩
    · exact fun other first => Arithmetic.apply_of_other first
    · intro numbers same
      rw [same, Arithmetic.apply_numbers]
      cases operation.combine? numbers <;> rfl
  · intro relation outcome
    have answered (arguments : List Value) :
        outcome arguments = machine.answer location (relation.apply arguments) := rfl
    refine ⟨by cases relation <;> rfl, ?_, ?_, ?_⟩
    · intro few
      rw [answered, Comparison.apply, if_pos few]
      rfl
    · intro place early fails
      have settled (others : List Value) :
          outcome (arguments.take (place + 2) ++ others) = .returned [.boolean false] machine := by
        rw [answered, Comparison.apply_of_failsAt fails early]
        rfl
      have whole := settled (arguments.drop (place + 2))
      rw [List.take_append_drop] at whole
      exact ⟨whole, settled⟩
    · intro two related
      rw [answered, Comparison.apply_of_related two related]
      cases arguments[Value.leadingNumbers arguments]? <;> rfl

/-- The numbers 1, 3 and 2, of which the last two are out of order, with a text behind them. -/
def fallingNumbers : List Value :=
  [.number 1, .number 3, .number 2, .string "x"]

/-- A comparison finds the pair that is out of order before it comes to the text. Without that
pair it fails at the text, as a sum does in any case. -/
theorem numeric_functions_check_operands_falling :
    applyBuiltin (evaluate 0) 0 (.comparison .less) ⟨1, 1⟩ fallingNumbers (.fresh .unlimited) =
        .returned [.boolean false] (.fresh .unlimited) ∧
      applyBuiltin (evaluate 0) 0 (.comparison .less) ⟨1, 1⟩ [.number 1, .number 3, .string "x"]
          (.fresh .unlimited) =
        (Machine.fresh .unlimited).fail ⟨1, 1⟩ (.typeMismatch .number .string) ∧
      applyBuiltin (evaluate 0) 0 (.arithmetic .add) ⟨1, 1⟩ fallingNumbers (.fresh .unlimited) =
        (Machine.fresh .unlimited).fail ⟨1, 1⟩ (.typeMismatch .number .string) := by
  have checks (arguments : List Value) := numeric_functions_check_operands (evaluate 0) 0 ⟨1, 1⟩
    arguments (.fresh .unlimited)
  have falling : Comparison.less.FailsAt fallingNumbers 1 := ⟨3, 2, rfl, rfl, by decide⟩
  have rising : ∀ place, place + 1 < 2 →
      ¬ Comparison.less.FailsAt [.number 1, .number 3, .string "x"] place := by
    intro place early fails
    obtain rfl : place = 0 := by omega
    obtain ⟨_, _, first, second, unrelated⟩ := fails
    cases first
    cases second
    exact absurd unrelated (by decide)
  refine ⟨?_, ?_, ?_⟩
  · exact ((checks fallingNumbers).2 .less).2.2.1 1 (by decide) falling |>.1
  · exact ((checks [.number 1, .number 3, .string "x"]).2 .less).2.2.2 (by decide) rising
  · exact ((checks fallingNumbers).1 .add).2.2.1 (.string "x") rfl

end PipeLang
