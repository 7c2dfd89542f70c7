import PipeLang.Proofs.Script

namespace PipeLang

/-! # Sinks that fail

A sink with room for some bytes, of which one flush fails, takes lines up to a point. What it
holds then is the beginning of what a sink without limits would hold.
-/

namespace Sink

/-- The bytes of lines, each with the line feed that ends it. -/
def bytesOf (lines : List String) : List UInt8 :=
  lines.flatMap lineBytes

variable {capacity failing flushes : Nat} {written : Array UInt8}

@[simp] theorem bytesOf_nil : bytesOf [] = [] := rfl

@[simp] theorem bytesOf_cons (line : String) (others : List String) :
    bytesOf (line :: others) = lineBytes line ++ bytesOf others := rfl

theorem bytesOf_take_starts (count : Nat) (lines : List String) :
    bytesOf (lines.take count) <+: bytesOf lines := by
  refine ⟨bytesOf (lines.drop count), ?_⟩
  rw [bytesOf, bytesOf, ← List.flatMap_append, List.take_append_drop]
  rfl

theorem size_append_bytes (written : Array UInt8) (bytes : List UInt8) :
    (written ++ bytes).size = written.size + bytes.length := by
  rw [← Array.length_toList, Array.toList_appendList, List.length_append, Array.length_toList]

theorem append_bytes_assoc (written : Array UInt8) (bytes others : List UInt8) :
    written ++ bytes ++ others = written ++ (bytes ++ others) := by
  apply Array.ext'
  simp

theorem writeLines_unlimited (lines : List String) (written : Array UInt8) (flushes : Nat) :
    (⟨written, none, flushes, none⟩ : Sink).writeLines lines =
      (none, ⟨written ++ bytesOf lines, none, flushes + lines.length, none⟩) := by
  induction lines generalizing written flushes with
  | nil => simp [writeLines]
  | cons line others ih =>
      have front : (⟨written, none, flushes, none⟩ : Sink).writeLine line =
          (none, ⟨written ++ lineBytes line, none, flushes + 1, none⟩) := rfl
      rw [writeLines, front]
      simp [ih, append_bytes_assoc, Nat.add_assoc, Nat.add_comm 1]

theorem writeLine_of_fits {line : String}
    (fits : written.size + (lineBytes line).length ≤ capacity) :
    (⟨written, some capacity, flushes, some failing⟩ : Sink).writeLine line =
      (if failing = flushes then some .flush else none,
        ⟨written ++ lineBytes line, some capacity, flushes + 1, some failing⟩) := by
  have room : (lineBytes line).length ≤ capacity - written.size := by omega
  simp [writeLine, Sink.fits, room?, store, flush, room, List.take_of_length_le room]

theorem writeLine_of_not_fits {line : String}
    (exceeds : ¬ written.size + (lineBytes line).length ≤ capacity) (room : written.size ≤ capacity) :
    (⟨written, some capacity, flushes, some failing⟩ : Sink).writeLine line =
      (some .write, ⟨written ++ (lineBytes line).take (capacity - written.size), some capacity,
        flushes, some failing⟩) := by
  have short : ¬ (lineBytes line).length ≤ capacity - written.size := by omega
  simp [writeLine, Sink.fits, room?, store, short]

theorem writeLines_of_fits {lines : List String}
    (fits : written.size + (bytesOf lines).length ≤ capacity)
    (before : flushes + lines.length ≤ failing) :
    (⟨written, some capacity, flushes, some failing⟩ : Sink).writeLines lines =
      (none, ⟨written ++ bytesOf lines, some capacity, flushes + lines.length, some failing⟩) := by
  induction lines generalizing written flushes with
  | nil => simp [writeLines]
  | cons line others ih =>
      simp only [bytesOf_cons, List.length_append, List.length_cons] at fits before
      have apart : failing ≠ flushes := by omega
      rw [writeLines, writeLine_of_fits (by omega), if_neg apart]
      have rest : (written ++ lineBytes line).size + (bytesOf others).length ≤ capacity := by
        rw [size_append_bytes]
        omega
      dsimp only
      rw [ih rest (by omega)]
      simp [append_bytes_assoc, Nat.add_assoc, Nat.add_comm 1]

/-- The flush that has to fail comes after `failing + 1` lines, so it is reached only if there is
room for these. -/
theorem writeLines_of_not_fits {lines : List String} (room : written.size ≤ capacity)
    (before : flushes ≤ failing)
    (exceeds : ¬ (written.size + (bytesOf lines).length ≤ capacity ∧
      flushes + lines.length ≤ failing)) :
    ∃ after, (⟨written, some capacity, flushes, some failing⟩ : Sink).writeLines lines =
        (some (if capacity < written.size + (bytesOf (lines.take (failing + 1 - flushes))).length
          then .write else .flush), after) ∧
      after.written.toList =
        (written.toList ++ bytesOf (lines.take (failing + 1 - flushes))).take capacity := by
  induction lines generalizing written flushes with
  | nil =>
      simp only [bytesOf_nil, List.length_nil] at exceeds
      omega
  | cons line others ih =>
      have count : failing + 1 - flushes = failing - flushes + 1 := by omega
      rw [count, List.take_succ_cons, bytesOf_cons, List.length_append]
      by_cases fits : written.size + (lineBytes line).length ≤ capacity
      · rw [writeLines, writeLine_of_fits fits]
        by_cases last : failing = flushes
        · -- The line is stored, and it is its flush that fails.
          have stored : ¬ capacity < written.size + (lineBytes line).length := by omega
          have whole : (written.toList ++ lineBytes line).take capacity =
              written.toList ++ lineBytes line :=
            List.take_of_length_le (by simpa using fits)
          simp [last, stored, whole]
        · -- Both limits are as far away as before, counted from behind the line.
          have next : (written ++ lineBytes line).size ≤ capacity := by
            rw [size_append_bytes]
            exact fits
          have exceedsNext : ¬ ((written ++ lineBytes line).size + (bytesOf others).length ≤ capacity ∧
              flushes + 1 + others.length ≤ failing) := by
            simp only [bytesOf_cons, List.length_append, List.length_cons] at exceeds
            rw [size_append_bytes]
            omega
          obtain ⟨after, wrote, holds⟩ := ih next (by omega) exceedsNext
          have fewer : failing + 1 - (flushes + 1) = failing - flushes := by omega
          rw [fewer, size_append_bytes, Nat.add_assoc] at wrote
          rw [fewer, Array.toList_appendList, List.append_assoc] at holds
          refine ⟨after, ?_, holds⟩
          rw [if_neg last]
          exact wrote
      · -- The line is cut off, and so is whatever follows it.
        have cut : capacity < written.size +
            ((lineBytes line).length + (bytesOf (others.take (failing - flushes))).length) := by
          omega
        have inside : capacity - written.size ≤ (lineBytes line).length := by omega
        rw [writeLines, writeLine_of_not_fits fits room, if_pos cut]
        refine ⟨_, rfl, ?_⟩
        rw [Array.toList_appendList, List.take_append, Array.length_toList,
          List.take_append_of_le_length inside, List.take_of_length_le room]

def shorter (bytes others : List UInt8) : List UInt8 :=
  if bytes.length ≤ others.length then bytes else others

theorem take_eq_shorter {bytes all : List UInt8} (start : bytes <+: all) (count : Nat) :
    bytes.take count = shorter (all.take count) bytes := by
  obtain ⟨rest, rfl⟩ := start
  unfold shorter
  split
  next fits =>
    rw [List.length_take, List.length_append] at fits
    by_cases inside : count ≤ bytes.length
    · rw [List.take_append_of_le_length inside]
    · have nothing : rest = [] := List.eq_nil_of_length_eq_zero (by omega)
      rw [nothing, List.append_nil]
  next exceeds =>
    rw [List.length_take] at exceeds
    exact List.take_of_length_le (by omega)

theorem unlimited_writeLines (lines : List String) :
    unlimited.writeLines lines = (none, ⟨(bytesOf lines).toArray, none, lines.length, none⟩) := by
  simpa [unlimited] using writeLines_unlimited lines #[] 0

theorem withLimits_writeLines_of_fits {lines : List String}
    (fits : (bytesOf lines).length ≤ capacity ∧ lines.length ≤ failing) :
    (withLimits (some capacity) (some failing)).writeLines lines =
      (none, ⟨(bytesOf lines).toArray, some capacity, lines.length, some failing⟩) := by
  have room : (#[] : Array UInt8).size + (bytesOf lines).length ≤ capacity := by simpa using fits.1
  have before : 0 + lines.length ≤ failing := by simpa using fits.2
  simpa [withLimits] using writeLines_of_fits room before

theorem withLimits_writeLines_of_not_fits {lines : List String}
    (exceeds : ¬ ((bytesOf lines).length ≤ capacity ∧ lines.length ≤ failing)) :
    ∃ after, (withLimits (some capacity) (some failing)).writeLines lines =
        (some (if capacity < (bytesOf (lines.take (failing + 1))).length then .write else .flush),
          after) ∧
      after.written.toList =
        shorter ((bytesOf lines).take capacity) (bytesOf (lines.take (failing + 1))) := by
  have exceedsEmpty : ¬ ((#[] : Array UInt8).size + (bytesOf lines).length ≤ capacity ∧
      0 + lines.length ≤ failing) := by
    simpa using exceeds
  have cut := writeLines_of_not_fits (Nat.zero_le capacity) (Nat.zero_le failing) exceedsEmpty
  rw [← take_eq_shorter (bytesOf_take_starts (failing + 1) lines)]
  simpa [withLimits] using cut

end Sink

/-- The sink of the frame holds these lines, each of which was flushed. -/
def Frame.Shows (frame : Frame) (lines : List String) : Prop :=
  frame.machine.sink.written.toList = Sink.bytesOf lines ∧
    frame.machine.sink.flushes = lines.length

/-- The frame with a sink that has these limits and holds the same. -/
def Frame.withLimits (frame : Frame) (capacity failing : Nat) : Frame :=
  { frame with machine := { frame.machine with sink := { frame.machine.sink with
      capacity? := some capacity
      failingFlush? := some failing } } }

/-- A sink that fails cuts the run off. The lines are those of the run on a sink that never fails,
which tells how many there are; where each of them ends is told by the sinks that have room for
everything and fail at its flush. -/
theorem evaluate_on_failing_sink (steps : Nat) (expression : Expression) (scope : Scope)
    (heap : Heap) :
    ∃ lines : List String,
      (evaluate steps expression ⟨scope, heap, .unlimited⟩).Ensures
        (fun _ after => after.Shows lines)
        (fun fault after => after.Shows lines ∧ ∃ error, fault = .runtime error) ∧
      ∀ capacity failing : Nat,
        ((Sink.bytesOf lines).length ≤ capacity ∧ lines.length ≤ failing →
          evaluate steps expression ⟨scope, heap, .withLimits (some capacity) (some failing)⟩ =
            (evaluate steps expression ⟨scope, heap, .unlimited⟩).mapState
              (·.withLimits capacity failing)) ∧
        (¬ ((Sink.bytesOf lines).length ≤ capacity ∧ lines.length ≤ failing) →
          ∃ failure after,
            evaluate steps expression ⟨scope, heap, .withLimits (some capacity) (some failing)⟩ =
              .failed (.output failure) after ∧
            after.machine.sink.written.toList =
              Sink.shorter ((Sink.bytesOf lines).take capacity)
                (Sink.bytesOf (lines.take (failing + 1))) ∧
            failure.message =
              if capacity < (Sink.bytesOf (lines.take (failing + 1))).length
              then "Failed write output" else "Failed flush output") := by
  obtain ⟨⟨lines, ending⟩, tells⟩ := evaluate_scripted steps expression (scope, heap)
  have unlimited := tells .unlimited
  simp only [Script.Tells, Sink.unlimited_writeLines, Frame.writingTo] at unlimited
  refine ⟨lines, ?_, fun capacity failing => ?_⟩
  · rw [unlimited]
    cases ending <;>
      simp [Outcome.mapFailure, Outcome.mapState, Outcome.Ensures, Frame.Shows]
  have limited := tells (.withLimits (some capacity) (some failing))
  refine ⟨fun fits => ?_, fun exceeds => ?_⟩
  · simp only [Script.Tells, Sink.withLimits_writeLines_of_fits fits, Frame.writingTo] at limited
    rw [unlimited, limited]
    cases ending <;> rfl
  · obtain ⟨after, wrote, holds⟩ := Sink.withLimits_writeLines_of_not_fits exceeds
    simp only [Script.Tells, wrote, Frame.writingTo] at limited
    obtain ⟨stem, failed⟩ := limited
    refine ⟨_, _, failed, holds, ?_⟩
    split <;> rfl

/-- The program `("a" |> show, "b" |> show)`. -/
def twoLines : Expression :=
  .tuple ⟨1, 1⟩ [.binary ⟨1, 6⟩ .pipeline (.string ⟨1, 2⟩ "a") (.reference ⟨1, 9⟩ "show"),
    .binary ⟨1, 19⟩ .pipeline (.string ⟨1, 15⟩ "b") (.reference ⟨1, 22⟩ "show")]

/-- Three bytes cut the second line in two; if its flush fails, then it stays written. -/
theorem evaluate_on_failing_sink_twoLines :
    (∃ after, evaluate 3 twoLines ⟨.empty, .empty, .withLimits (some 3) (some 1)⟩ =
        .failed (.output .write) after ∧
      after.machine.sink.written.toList = [97, 10, 98]) ∧
    ∃ after, evaluate 3 twoLines ⟨.empty, .empty, .withLimits (some 4) (some 1)⟩ =
        .failed (.output .flush) after ∧
      after.machine.sink.written.toList = [97, 10, 98, 10] := by
  obtain ⟨lines, shows, limits⟩ := evaluate_on_failing_sink 3 twoLines .empty .empty
  have ran : evaluate 3 twoLines ⟨.empty, .empty, .unlimited⟩ =
      .returned [] ⟨.empty, .empty, ⟨#[97, 10, 98, 10], none, 2, none⟩⟩ := by
    rfl
  rw [ran] at shows
  obtain ⟨bytes, count⟩ := shows
  have all : lines.take 2 = lines := List.take_of_length_le (Nat.le_of_eq count.symm)
  have fails (capacity : Nat) := (limits capacity 1).2 fun fits => by
    have two : lines.length = 2 := count.symm
    omega
  simp only [all, ← bytes] at fails
  refine ⟨?_, ?_⟩
  · obtain ⟨failure, after, failed, holds, message⟩ := fails 3
    have written : failure = .write := by
      cases failure
      · rfl
      · exact absurd message (by decide)
    exact ⟨after, written ▸ failed, holds⟩
  · obtain ⟨failure, after, failed, holds, message⟩ := fails 4
    have flushed : failure = .flush := by
      cases failure
      · exact absurd message (by decide)
      · rfl
    exact ⟨after, flushed ▸ failed, holds⟩

end PipeLang
