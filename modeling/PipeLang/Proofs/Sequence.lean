import PipeLang.Proofs.Continuation
import PipeLang.Proofs.Lines
import PipeLang.Proofs.MovedRun
import PipeLang.Session

namespace PipeLang

/-! # Running two sources as one

Two sources with a pipeline sign on a line between them run like the first and then the second.
Only the locations that come from the second source differ, since it stands further down. Which
ones these are is told by a run of the second program in which its locations are marked: removing
the marks gives the run on its own, and lowering what is marked gives the run behind the first.
-/

namespace Location

/-- Gives the location an odd line. One that is not marked has an even line. -/
def mark (location : Location) : Location :=
  ⟨2 * location.line + 1, location.column⟩

def leave (location : Location) : Location :=
  ⟨2 * location.line, location.column⟩

def unmark (location : Location) : Location :=
  ⟨location.line / 2, location.column⟩

/-- Removes the marks and lowers the locations that had one. -/
def lowerMarked (lines : Nat) (location : Location) : Location :=
  if location.line % 2 = 1 then location.unmark.below lines else location.unmark

theorem unmark_mark (location : Location) : location.mark.unmark = location := by
  simp only [unmark, mark]
  congr
  omega

theorem unmark_leave (location : Location) : location.leave.unmark = location := by
  simp only [unmark, leave]
  congr
  omega

theorem lowerMarked_mark (lines : Nat) (location : Location) :
    location.mark.lowerMarked lines = location.below lines := by
  have odd : location.mark.line % 2 = 1 := by
    simp only [mark]
    omega
  rw [lowerMarked, if_pos odd, unmark_mark]

theorem lowerMarked_leave (lines : Nat) (location : Location) :
    location.leave.lowerMarked lines = location := by
  have even : ¬ location.leave.line % 2 = 1 := by
    simp only [leave]
    omega
  rw [lowerMarked, if_neg even, unmark_leave]

end Location

def Error.relocate (move : Location → Location) : Error → Error
  | .unreadableSource => .unreadableSource
  | .scan error => .scan (error.relocate move)
  | .parse error => .parse (error.relocate move)
  | .runtime error => .runtime (error.relocate move)
  | .output failure => .output failure

def Outcome.relocateSession (move : Location → Location) :
    Outcome Error Session → Outcome Error Session :=
  relocateWith move (Error.relocate move) (Frame.relocate move)

theorem Outcome.relocateSession_eq_outOfSteps {move : Location → Location}
    {outcome : Outcome Error Session} :
    outcome.relocateSession move = .outOfSteps ↔ outcome = .outOfSteps := by
  cases outcome <;> simp [relocateSession, relocateWith]

namespace Session

/-- The run of the source comes to an end with this outcome. -/
def RunsTo (session : Session) (source : String) : Outcome Error Session → Prop :=
  Outcome.Settles fun steps => session.run steps source

/-- The second outcome is that of a run of the program, with the locations that come from the
program so many lines further down. -/
def Lowers (session : Session) (program : Expression) (lines : Nat)
    (outcome lowered : Outcome Error Session) : Prop :=
  ∃ marked : Outcome Error Session,
    Outcome.Settles
      (fun steps => Session.evaluate steps (program.relocate .mark) (session.relocate .leave)) marked ∧
    outcome = marked.relocateSession .unmark ∧
    lowered = marked.relocateSession (.lowerMarked lines)

variable {session : Session} {program : Expression} {steps lines : Nat}

theorem evaluate_relocate (move : Location → Location) :
    Session.evaluate steps (program.relocate move) (session.relocate move) =
      (session.evaluate steps program).relocateSession move := by
  unfold Session.evaluate
  rw [PipeLang.evaluate_relocate]
  cases PipeLang.evaluate steps program session with
  | returned values after => rfl
  | failed fault after => cases fault <;> rfl
  | outOfSteps => rfl

theorem evaluate_grows (session : Session) (program : Expression) :
    Outcome.Grows fun steps => session.evaluate steps program :=
  (PipeLang.evaluate_grows program session).mapFailure Error.ofFault

/-- The run of a program with marks stands for the run on its own and for the run further down. -/
theorem evaluate_marked (session : Session) (program : Expression) (lines steps : Nat) :
    ∃ marked : Outcome Error Session,
      Session.evaluate steps (program.relocate .mark) (session.relocate .leave) = marked ∧
      session.evaluate steps program = marked.relocateSession .unmark ∧
      session.evaluate steps (program.relocate (.below lines)) =
        marked.relocateSession (.lowerMarked lines) := by
  refine ⟨_, rfl, ?_, ?_⟩
  · rw [← evaluate_relocate, Expression.relocate_cancel Location.unmark_mark,
      Frame.relocate_cancel Location.unmark_leave]
  · have moved : Location.lowerMarked lines ∘ .mark = .below lines :=
      funext (Location.lowerMarked_mark lines)
    rw [← evaluate_relocate, Expression.relocate_relocate, moved,
      Frame.relocate_cancel (Location.lowerMarked_leave lines)]

theorem lowers_of_settles {outcome : Outcome Error Session}
    (settles : Outcome.Settles (fun steps => session.evaluate steps program) outcome) :
    ∃ lowered, session.Lowers program lines outcome lowered ∧
      Outcome.Settles (fun steps => session.evaluate steps (program.relocate (.below lines)))
        lowered := by
  obtain ⟨ended, steps, rfl⟩ := settles
  obtain ⟨marked, run, alone, further⟩ := evaluate_marked session program lines steps
  have markedEnds : marked ≠ .outOfSteps :=
    fun none => ended (alone.trans (Outcome.relocateSession_eq_outOfSteps.mpr none))
  refine ⟨_, ⟨marked, ⟨markedEnds, steps, run⟩, alone, rfl⟩, ?_, steps, further⟩
  exact fun none => markedEnds (Outcome.relocateSession_eq_outOfSteps.mp none)

theorem settles_of_lowered {lowered : Outcome Error Session}
    (settles : Outcome.Settles
      (fun steps => session.evaluate steps (program.relocate (.below lines))) lowered) :
    ∃ outcome, session.Lowers program lines outcome lowered ∧
      Outcome.Settles (fun steps => session.evaluate steps program) outcome := by
  obtain ⟨ended, steps, rfl⟩ := settles
  obtain ⟨marked, run, alone, further⟩ := evaluate_marked session program lines steps
  have markedEnds : marked ≠ .outOfSteps :=
    fun none => ended (further.trans (Outcome.relocateSession_eq_outOfSteps.mpr none))
  refine ⟨_, ⟨marked, ⟨markedEnds, steps, run⟩, rfl, further⟩, ?_, steps, alone⟩
  exact fun none => markedEnds (Outcome.relocateSession_eq_outOfSteps.mp none)

theorem settles_continued {first second : Expression} (sign : Location)
    (notBare : second.firstOperand.tag ≠ .reference) (session : Session) :
    Outcome.Settles (fun steps => session.evaluate steps (first.continued sign second)) =
      Outcome.Sequel (Outcome.Settles fun steps => session.evaluate steps first) fun _ middle =>
        Outcome.Settles fun steps => Session.evaluate steps second middle := by
  ext outcome
  simp only [Session.evaluate, Outcome.settles_mapFailure]
  rw [Expression.settles_continued sign notBare]
  constructor
  · rintro ⟨inner, sequel, rfl⟩
    cases sequel with
    | failed start => exact .failed (Outcome.settles_mapFailure.mpr ⟨_, start, rfl⟩)
    | returned start rest =>
        exact .returned (Outcome.settles_mapFailure.mpr ⟨_, start, rfl⟩)
          (Outcome.settles_mapFailure.mpr ⟨_, rest, rfl⟩)
  · intro sequel
    cases sequel with
    | failed start =>
        obtain ⟨inner, settles, same⟩ := Outcome.settles_mapFailure.mp start
        cases inner with
        | failed fault after => exact ⟨.failed fault after, .failed settles, same⟩
        | _ => cases same
    | returned start rest =>
        obtain ⟨inner, settles, same⟩ := Outcome.settles_mapFailure.mp start
        obtain ⟨last, settled, rfl⟩ := Outcome.settles_mapFailure.mp rest
        cases inner with
        | returned values middle =>
            cases same
            exact ⟨last, .returned settles settled, rfl⟩
        | _ => cases same

theorem runsTo_of_ofSource {source : String} (parsed : Expression.ofSource source = .ok program)
    (session : Session) :
    session.RunsTo source = Outcome.Settles fun steps => session.evaluate steps program := by
  unfold RunsTo run
  rw [parsed]

end Session

/-- The two sources with a pipeline sign on a line between them. -/
def joined (first second : String) : String :=
  first ++ "\n|>\n" ++ second

/-- The line of the sign between the sources, which is also how far down the second one moves. -/
def signLine (first : String) : Nat :=
  first.toList.count '\n' + 2

theorem scan_joined {first second : String} {before after : Scanned}
    (firstScanned : scan first = .ok before) (secondScanned : scan second = .ok after) :
    scan (joined first second) =
      .ok ⟨before.tokens ++ ⟨⟨signLine first, 1⟩, .pipeline⟩ ::
          after.tokens.map (Token.relocate (.below (signLine first))),
        after.stop.below (signLine first)⟩ := by
  have characters : (joined first second).toList =
      first.toList ++ '\n' :: (['|', '>'] ++ '\n' :: second.toList) := by
    simp [joined]
  have atSign : before.stop.next '\n' = ⟨signLine first, 1⟩ := by
    have origin : Location.start = .past [] := rfl
    have stop : before.stop = .past first.toList := (scanFrom_cut origin firstScanned).2
    rw [stop]
    simp only [Location.past, Location.next, signLine, if_true]
    congr 1
    omega
  have sign : scanFrom ⟨signLine first, 1⟩ ['|', '>'] =
      .ok ⟨[⟨⟨signLine first, 1⟩, .pipeline⟩], ⟨signLine first, 3⟩⟩ := by
    have front : Token.readFront ⟨signLine first, 1⟩ '|' ['>'] =
        .ok ⟨some ⟨⟨signLine first, 1⟩, .pipeline⟩, ⟨signLine first, 3⟩, []⟩ := rfl
    rw [scanFrom_of_readFront_ok front, scanFrom_nil]
    rfl
  have behindSign : (⟨signLine first, 3⟩ : Location).next '\n' =
      Location.start.below (signLine first) := by
    simp [Location.next, Location.below, Location.start, Nat.add_comm]
  have further : scanFrom (Location.start.below (signLine first)) second.toList =
      .ok (after.relocate (.below (signLine first))) :=
    (scanFrom_below (signLine first) second.toList).trans (congrArg _ secondScanned)
  unfold scan
  rw [characters, scanFrom_line firstScanned, atSign, scanFrom_line sign, behindSign, further]
  rfl

theorem Expression.ofSource_joined {first second : String} {one two : Expression}
    (firstParsed : ofSource first = .ok one) (secondParsed : ofSource second = .ok two)
    (outside : one.endsInBody = false) :
    ofSource (joined first second) =
      .ok (one.continued ⟨signLine first, 1⟩ (two.relocate (.below (signLine first)))) := by
  obtain ⟨before, firstScanned, firstRead⟩ := ofSource_eq_ok firstParsed
  obtain ⟨after, secondScanned, secondRead⟩ := ofSource_eq_ok secondParsed
  have earlier := written_of_parse firstRead
  have later := written_of_parse secondRead
  have moved : (two.relocate (.below (signLine first))).Written
      (after.tokens.map (Token.relocate (.below (signLine first)))) [] :=
    ⟨spelling_relocate two ▸ later.spells.relocate, (writable_relocate two).mpr later.writable⟩
  have whole := earlier.continued ⟨⟨signLine first, 1⟩, .pipeline⟩ outside rfl moved
  unfold ofSource
  rw [scan_joined firstScanned secondScanned]
  dsimp only
  rw [parse_of_spells whole.writable whole.spells]

/-- Running two sources joined by a pipeline sign is running the one and then the other, with the
locations of the second source lowered to where it stands behind the first: the joined source
fails where the first fails, goes on where that returns, and ends in no other way. -/
theorem run_joined_like_sequence {first second : String} {one two : Expression}
    (firstParsed : Expression.ofSource first = .ok one)
    (secondParsed : Expression.ofSource second = .ok two) (outside : one.endsInBody = false)
    (notBare : two.firstOperand.tag ≠ .reference) (session : Session) :
    (∀ error after, session.RunsTo first (.failed error after) →
      session.RunsTo (joined first second) (.failed error after)) ∧
    (∀ values (middle : Session) last, session.RunsTo first (.returned values middle) →
      middle.RunsTo second last →
        ∃ outcome, middle.Lowers two (first.toList.count '\n' + 2) last outcome ∧
          session.RunsTo (joined first second) outcome) ∧
    (∀ outcome, session.RunsTo (joined first second) outcome →
      (∃ error after, session.RunsTo first (.failed error after) ∧ outcome = .failed error after) ∨
      ∃ values, ∃ middle : Session, ∃ last, session.RunsTo first (.returned values middle) ∧
        middle.RunsTo second last ∧
        middle.Lowers two (first.toList.count '\n' + 2) last outcome) := by
  have stillNotBare :
      (two.relocate (.below (signLine first))).firstOperand.tag ≠ .reference := by
    rwa [Expression.firstOperand_relocate, Expression.tag_relocate]
  have sequel : session.RunsTo (joined first second) =
      Outcome.Sequel (session.RunsTo first) fun _ middle =>
        Outcome.Settles fun steps => Session.evaluate steps
          (two.relocate (.below (signLine first))) middle := by
    rw [Session.runsTo_of_ofSource (Expression.ofSource_joined firstParsed secondParsed outside),
      Session.runsTo_of_ofSource firstParsed, Session.settles_continued _ stillNotBare]
  rw [sequel]
  refine ⟨?_, ?_, ?_⟩
  · intro error after failed
    exact .failed failed
  · intro values middle last returned settles
    rw [Session.runsTo_of_ofSource secondParsed] at settles
    obtain ⟨outcome, lowers, settled⟩ := Session.lowers_of_settles settles
    exact ⟨outcome, lowers, .returned returned settled⟩
  · intro outcome ends
    cases ends with
    | failed failed => exact .inl ⟨_, _, failed, rfl⟩
    | returned returned settled =>
        obtain ⟨last, lowers, settles⟩ := Session.settles_of_lowered settled
        rw [← Session.runsTo_of_ofSource secondParsed] at settles
        exact .inr ⟨_, _, last, returned, settles, lowers⟩

def keptLambda : String := "(() => y) -> g -- kept"

def calledLambda : String := "(() => y) -> f |> f"

/-- What is left of the first source: its lambda, in the only cell. -/
def keptSession : Session :=
  ⟨Scope.empty.bind "g" ⟨0⟩,
    ⟨⟨#[[.lambda ⟨0, [], .empty, .reference ⟨1, 8⟩ "y"⟩]], 1⟩, .unlimited⟩⟩

/-- The comment ends with its line, the error and the lambda of the second source are on the third
line, and the lambda of the first source stays on the first. -/
theorem run_joined_like_sequence_lambdas :
    ∃ last after : Session,
      (Session.start .unlimited).RunsTo keptLambda
        (.returned [.lambda ⟨0, [], .empty, .reference ⟨1, 8⟩ "y"⟩] keptSession) ∧
      keptSession.RunsTo calledLambda
        (.failed (.runtime ⟨⟨1, 19⟩, .arityMismatch "f" 0 1⟩) last) ∧
      (Session.start .unlimited).RunsTo (joined keptLambda calledLambda)
        (.failed (.runtime ⟨⟨3, 19⟩, .arityMismatch "f" 0 1⟩) after) ∧
      after.machine.heap.contents ⟨0⟩ = [.lambda ⟨0, [], .empty, .reference ⟨1, 8⟩ "y"⟩] ∧
      after.machine.heap.contents ⟨1⟩ =
        [.lambda ⟨1, [], Scope.empty.bind "g" ⟨0⟩, .reference ⟨3, 8⟩ "y"⟩] := by
  have keptScanned : scan keptLambda =
      .ok ⟨[⟨⟨1, 1⟩, .leftParen⟩, ⟨⟨1, 2⟩, .leftParen⟩, ⟨⟨1, 3⟩, .rightParen⟩, ⟨⟨1, 5⟩, .arrow⟩,
        ⟨⟨1, 8⟩, .identifier "y"⟩, ⟨⟨1, 9⟩, .rightParen⟩, ⟨⟨1, 11⟩, .assign⟩,
        ⟨⟨1, 14⟩, .identifier "g"⟩], ⟨1, 23⟩⟩ := by
    cbv
  have calledScanned : scan calledLambda =
      .ok ⟨[⟨⟨1, 1⟩, .leftParen⟩, ⟨⟨1, 2⟩, .leftParen⟩, ⟨⟨1, 3⟩, .rightParen⟩, ⟨⟨1, 5⟩, .arrow⟩,
        ⟨⟨1, 8⟩, .identifier "y"⟩, ⟨⟨1, 9⟩, .rightParen⟩, ⟨⟨1, 11⟩, .assign⟩,
        ⟨⟨1, 14⟩, .identifier "f"⟩, ⟨⟨1, 16⟩, .pipeline⟩, ⟨⟨1, 19⟩, .identifier "f"⟩],
        ⟨1, 20⟩⟩ := by
    cbv
  have keptParsed : Expression.ofSource keptLambda =
      .ok (.binary ⟨1, 11⟩ .assign
        (.tuple ⟨1, 1⟩ [.lambda ⟨1, 2⟩ [] (.reference ⟨1, 8⟩ "y")]) (.reference ⟨1, 14⟩ "g")) := by
    rw [Expression.ofSource, keptScanned]
    rfl
  have calledParsed : Expression.ofSource calledLambda =
      .ok (.binary ⟨1, 16⟩ .pipeline
        (.binary ⟨1, 11⟩ .assign
          (.tuple ⟨1, 1⟩ [.lambda ⟨1, 2⟩ [] (.reference ⟨1, 8⟩ "y")]) (.reference ⟨1, 14⟩ "f"))
        (.reference ⟨1, 19⟩ "f")) := by
    rw [Expression.ofSource, calledScanned]
    rfl
  have keptRuns : (Session.start .unlimited).RunsTo keptLambda
      (.returned [.lambda ⟨0, [], .empty, .reference ⟨1, 8⟩ "y"⟩] keptSession) := by
    rw [Session.runsTo_of_ofSource keptParsed]
    exact Outcome.settles_returned (show Session.evaluate 5 _ _ = _ from rfl)
  have calledRuns : ∃ last, keptSession.RunsTo calledLambda
      (.failed (.runtime ⟨⟨1, 19⟩, .arityMismatch "f" 0 1⟩) last) := by
    rw [Session.runsTo_of_ofSource calledParsed]
    exact ⟨_, Outcome.settles_failed (show Session.evaluate 5 _ _ = _ from rfl)⟩
  obtain ⟨last, calledRuns⟩ := calledRuns
  obtain ⟨_, sequence, _⟩ := run_joined_like_sequence keptParsed calledParsed rfl
    (by decide) (.start .unlimited)
  obtain ⟨outcome, ⟨marked, settles, -, rfl⟩, runs⟩ := sequence _ _ _ keptRuns calledRuns
  have two : keptLambda.toList.count '\n' + 2 = 2 := by cbv
  rw [two] at runs
  have markedStart : keptSession.relocate .leave =
      ⟨Scope.empty.bind "g" ⟨0⟩,
        ⟨⟨#[[.lambda ⟨0, [], .empty, .reference ⟨2, 8⟩ "y"⟩]], 1⟩, .unlimited⟩⟩ := by
    simp [keptSession, Frame.relocate, Machine.relocate, Heap.relocate, Value.relocate,
      Closure.relocate, Expression.relocate, Location.leave]
  rw [markedStart] at settles
  have markedRun : ∃ after : Session,
      marked = .failed (.runtime ⟨⟨3, 19⟩, .arityMismatch "f" 0 1⟩) after ∧
      after.machine.heap.contents ⟨0⟩ = [.lambda ⟨0, [], .empty, .reference ⟨2, 8⟩ "y"⟩] ∧
      after.machine.heap.contents ⟨1⟩ =
        [.lambda ⟨1, [], Scope.empty.bind "g" ⟨0⟩, .reference ⟨3, 8⟩ "y"⟩] :=
    ⟨_, settles.unique (Outcome.settles_failed (show Session.evaluate 5 _ _ = _ from rfl))
      (Session.evaluate_grows _ _), rfl, rfl⟩
  obtain ⟨after, rfl, first, second⟩ := markedRun
  have contents (cell : Cell) : (after.relocate (.lowerMarked 2)).machine.heap.contents cell =
      (after.machine.heap.contents cell).map (Value.relocate (.lowerMarked 2)) :=
    Heap.contents_relocate _ after.machine.heap cell
  refine ⟨last, after.relocate (.lowerMarked 2), keptRuns, calledRuns, runs, ?_, ?_⟩
  · rw [contents, first]
    rfl
  · rw [contents, second]
    rfl

end PipeLang
