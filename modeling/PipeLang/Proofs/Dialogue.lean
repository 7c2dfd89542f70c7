import PipeLang.Prompt
import PipeLang.Proofs.Script
import PipeLang.Proofs.Sequence

namespace PipeLang

/-! # The prompt drives a session

The prompt does nothing to its session but run the sources that its lines hold, one after the
other. Each line gets its reply from its own run: the blank ones and those that cannot be read
leave no trace in the session, and neither do replies to earlier lines.
-/

/-- The lines that bytes are cut into. Each ends with its only line feed; the last one may lack
it, and is not empty then. -/
inductive Text.Lines : List UInt8 → List (List UInt8) → Prop where
  | none : Lines [] []
  | unended {line : List UInt8} (some : line ≠ []) (content : lineFeed ∉ line) : Lines line [line]
  | ended {line rest : List UInt8} {lines : List (List UInt8)} (content : lineFeed ∉ line)
      (others : Lines rest lines) :
      Lines (line ++ lineFeed :: rest) ((line ++ [lineFeed]) :: lines)

namespace Text

variable {bytes line rest : List UInt8} {lines : List (List UInt8)}

theorem cutLines_unended (content : lineFeed ∉ line) (some : line ≠ []) :
    cutLines line = [line] := by
  induction line with
  | nil => exact absurd rfl some
  | cons byte line ih =>
      rw [List.mem_cons, not_or] at content
      rw [cutLines, if_neg (Ne.symm content.1)]
      cases line with
      | nil => rfl
      | cons next line => rw [ih content.2 (List.cons_ne_nil _ _)]

theorem cutLines_ended (content : lineFeed ∉ line) (rest : List UInt8) :
    cutLines (line ++ lineFeed :: rest) = (line ++ [lineFeed]) :: cutLines rest := by
  induction line with
  | nil => rfl
  | cons byte line ih =>
      rw [List.mem_cons, not_or] at content
      rw [List.cons_append, cutLines, if_neg (Ne.symm content.1), ih content.2]
      rfl

theorem Lines.cutLines_eq (cut : Lines bytes lines) : cutLines bytes = lines := by
  induction cut with
  | none => rfl
  | unended some content => exact cutLines_unended content some
  | ended content others ih => rw [cutLines_ended content, ih]

/-- All bytes can be cut into lines. -/
theorem lines_cutLines (bytes : List UInt8) : Lines bytes (cutLines bytes) := by
  induction size : bytes.length using Nat.strongRecOn generalizing bytes with
  | ind length ih =>
      by_cases feed : lineFeed ∈ bytes
      · obtain ⟨line, rest, rfl, content⟩ := List.eq_append_cons_of_mem feed
        have shorter : rest.length < length := by
          rw [← size, List.length_append, List.length_cons]
          omega
        rw [cutLines_ended content]
        exact .ended content (ih rest.length shorter rest rfl)
      · by_cases empty : bytes = []
        · subst empty
          exact .none
        · rw [cutLines_unended feed empty]
          exact .unended empty feed

end Text

theorem Sink.writeLine_extends (sink : Sink) (line : String) :
    sink.written.toList <+: (sink.writeLine line).2.written.toList := by
  simp only [writeLine]
  split <;> simp [store, flush]

theorem Sink.writeLines_extends (sink : Sink) (lines : List String) :
    sink.written.toList <+: (sink.writeLines lines).2.written.toList := by
  induction lines generalizing sink with
  | nil => exact List.prefix_refl _
  | cons line others ih =>
      have first := sink.writeLine_extends line
      rw [writeLines]
      split
      next after wrote =>
        rw [wrote] at first
        exact first.trans (ih after)
      next wrote => rwa [wrote] at first

namespace Session

/-- The run adds the bytes to what the sink of the session holds. -/
def Adds (before after : Session) (output : List UInt8) : Prop :=
  after.machine.sink.written.toList = before.machine.sink.written.toList ++ output

variable {session before middle after : Session} {steps : Nat} {source : String}

theorem evaluate_adds {program : Expression}
    (left : (PipeLang.evaluate steps program before).Leaves after) :
    ∃ output, before.Adds after output := by
  obtain ⟨script, tells⟩ := evaluate_scripted steps program (before.scope, before.machine.heap)
  have told : script.Tells _ _ (PipeLang.evaluate steps program before) :=
    tells before.machine.sink
  have wrote : after.machine.sink = (before.machine.sink.writeLines script.lines).2 := by
    unfold Script.Tells at told
    split at told
    next sink wrote =>
      rw [told] at left
      obtain ⟨stem, -, rfl⟩ := left.of_mapState
      exact (congrArg Prod.snd wrote).symm
    next failure sink wrote =>
      obtain ⟨stem, failed⟩ := told
      rw [failed] at left
      obtain ⟨values, same⟩ | ⟨fault, same⟩ := left <;> cases same
      exact (congrArg Prod.snd wrote).symm
  obtain ⟨output, added⟩ := before.machine.sink.writeLines_extends script.lines
  exact ⟨output, by rw [Adds, wrote, added]⟩

theorem run_adds (left : (before.run steps source).Leaves after) :
    ∃ output, before.Adds after output := by
  unfold run at left
  split at left
  next =>
    obtain ⟨values, same⟩ | ⟨error, same⟩ := left <;> cases same
    exact ⟨[], (List.append_nil _).symm⟩
  next program parsed => exact evaluate_adds left.of_mapFailure

theorem run_grows (session : Session) (source : String) :
    Outcome.Grows fun steps => session.run steps source := by
  unfold run
  split
  next => exact fun _ _ _ => .refl _
  next program parsed => exact session.evaluate_grows program

/-- The sources are run one after the other, each to its end. The next one starts from the state
that the one before has left, also if that one failed. -/
inductive RunsInOrder : Session → List String → Session → Prop where
  | none {session : Session} : RunsInOrder session [] session
  | more {session middle last : Session} {source : String} {sources : List String}
      {outcome : Outcome Error Session} (runs : session.RunsTo source outcome)
      (left : outcome.Leaves middle) (others : RunsInOrder middle sources last) :
      RunsInOrder session (source :: sources) last

end Session

namespace Prompt

/-- The source that a line holds, unless it is blank or no text. -/
def source? (line : List UInt8) : Option String :=
  match Text.decode? line with
  | none => none
  | some text =>
      if Text.trim text.toList = [] then none else some (String.ofList (Text.trim text.toList))

/-- What is written in answer to a line. -/
structure Reply where
  stdout : List UInt8
  stderr : List UInt8

/-- The reply to a line, and the session behind it. -/
inductive Answers (before : Session) (line : List UInt8) : Reply → Session → Prop where
  | unreadable (undecoded : Text.decode? line = none) :
      Answers before line
        ⟨[], Text.encode "Failed read line: stream did not contain valid UTF-8\n"⟩ before
  | blank {text : String} (decoded : Text.decode? line = some text)
      (blank : Text.trim text.toList = []) : Answers before line ⟨[], []⟩ before
  | returned {source : String} {values : List Value} {after : Session} {output : List UInt8}
      (holds : source? line = some source) (returns : before.RunsTo source (.returned values after))
      (adds : before.Adds after output) :
      Answers before line
        ⟨output ++ if values.isEmpty then []
          else Text.encode (", ".intercalate (values.map Value.render) ++ "\n"), []⟩ after
  | failed {source : String} {error : Error} {after : Session} {output : List UInt8}
      (holds : source? line = some source) (fails : before.RunsTo source (.failed error after))
      (adds : before.Adds after output) :
      Answers before line
        ⟨output, Text.encode ("Failed run prompt: " ++ error.message ++ "\n")⟩ after

/-- The replies to lines, and the session behind the last one. -/
inductive Converses : Session → List (List UInt8) → List Reply → Session → Prop where
  | none {session : Session} : Converses session [] [] session
  | more {before middle last : Session} {line : List UInt8} {reply : Reply}
      {lines : List (List UInt8)} {replies : List Reply}
      (answers : Answers before line reply middle) (others : Converses middle lines replies last) :
      Converses before (line :: lines) (reply :: replies) last

variable {before after last : Session} {line : List UInt8} {lines : List (List UInt8)}
  {reply : Reply} {replies : List Reply} {source : String}

theorem source?_eq_some (holds : source? line = some source) :
    ∃ text, Text.decode? line = some text ∧ Text.trim text.toList ≠ [] ∧
      source = String.ofList (Text.trim text.toList) := by
  unfold source? at holds
  split at holds
  next => cases holds
  next text decoded =>
    split at holds
    next => cases holds
    next some =>
      cases holds
      exact ⟨text, decoded, some, rfl⟩

theorem exists_answers_none (none : source? line = none) (before : Session) :
    ∃ reply, Answers before line reply before := by
  unfold source? at none
  split at none
  next undecoded => exact ⟨_, .unreadable undecoded⟩
  next text decoded =>
    split at none
    next blank => exact ⟨_, .blank decoded blank⟩
    next => cases none

theorem exists_answers_some {outcome : Outcome Error Session} (holds : source? line = some source)
    (runs : before.RunsTo source outcome) (left : outcome.Leaves after) :
    ∃ reply, Answers before line reply after := by
  obtain ⟨steps, ran⟩ := runs.2
  obtain ⟨output, adds⟩ := Session.run_adds (ran ▸ left)
  obtain ⟨values, rfl⟩ | ⟨error, rfl⟩ := left
  · exact ⟨_, .returned holds runs adds⟩
  · exact ⟨_, .failed holds runs adds⟩

theorem exists_converses (runs : before.RunsInOrder (lines.filterMap source?) last) :
    ∃ replies, Converses before lines replies last := by
  induction lines generalizing before with
  | nil =>
      cases runs with
      | none => exact ⟨[], .none⟩
  | cons line lines ih =>
      cases holds : source? line with
      | none =>
          rw [List.filterMap_cons_none holds] at runs
          obtain ⟨reply, answers⟩ := exists_answers_none holds before
          obtain ⟨replies, others⟩ := ih runs
          exact ⟨reply :: replies, .more answers others⟩
      | some source =>
          rw [List.filterMap_cons_some holds] at runs
          cases runs with
          | more first left rest =>
              obtain ⟨reply, answers⟩ := exists_answers_some holds first left
              obtain ⟨replies, others⟩ := ih rest
              exact ⟨reply :: replies, .more answers others⟩

theorem Answers.runsInOrder {others : List (List UInt8)} (answers : Answers before line reply after)
    (rest : after.RunsInOrder (others.filterMap source?) last) :
    before.RunsInOrder ((line :: others).filterMap source?) last := by
  cases answers with
  | unreadable undecoded =>
      have holds : source? line = none := by simp [source?, undecoded]
      rwa [List.filterMap_cons_none holds]
  | blank decoded blank =>
      have holds : source? line = none := by simp [source?, decoded, blank]
      rwa [List.filterMap_cons_none holds]
  | returned holds returns adds =>
      rw [List.filterMap_cons_some holds]
      exact .more returns (.inl ⟨_, rfl⟩) rest
  | failed holds fails adds =>
      rw [List.filterMap_cons_some holds]
      exact .more fails (.inr ⟨_, rfl⟩) rest

theorem Converses.length_eq (converses : Converses before lines replies last) :
    replies.length = lines.length := by
  induction converses with
  | none => rfl
  | more answers others ih => rw [List.length_cons, List.length_cons, ih]

/-- A line is answered from the state in which the runs of the lines before it have left the
session. -/
theorem Converses.answers {index : Nat} (converses : Converses before lines replies last)
    (foundLine : lines[index]? = some line) (foundReply : replies[index]? = some reply) :
    ∃ middle after, before.RunsInOrder ((lines.take index).filterMap source?) middle ∧
      Answers middle line reply after ∧
      before.RunsInOrder ((lines.take (index + 1)).filterMap source?) after := by
  induction converses generalizing index with
  | none => cases foundLine
  | more answers others ih =>
      cases index with
      | zero =>
          cases foundLine
          cases foundReply
          exact ⟨_, _, .none, answers, answers.runsInOrder .none⟩
      | succ index =>
          obtain ⟨middle, after, earlier, answered, later⟩ := ih foundLine foundReply
          exact ⟨middle, after, answers.runsInOrder earlier, answered, answers.runsInOrder later⟩

theorem shown_of_adds {output : List UInt8} (adds : before.Adds after output)
    (values : List Value) :
    shown before after values = output ++ if values.isEmpty then []
      else Text.encode (", ".intercalate (values.map Value.render) ++ "\n") := by
  have since : after.machine.sink.since before.machine.sink = output := by
    rw [Sink.since, adds, ← Array.length_toList, List.drop_left]
  rw [shown, since, Value.renderLine, Value.renderEach_eq_map]

theorem answer_of_answers (answers : Answers before line reply after) :
    ∃ steps, ∀ more, steps ≤ more →
      answer more line before = some ⟨after, reply.stdout, reply.stderr⟩ := by
  cases answers with
  | unreadable undecoded => exact ⟨0, fun more _ => by simp [answer, undecoded]⟩
  | blank decoded blank => exact ⟨0, fun more _ => by simp [answer, decoded, blank]⟩
  | returned holds returns adds =>
      obtain ⟨text, decoded, some, rfl⟩ := source?_eq_some holds
      obtain ⟨steps, settled⟩ := returns.from_some_step (Session.run_grows _ _)
      refine ⟨steps, fun more le => ?_⟩
      simp [answer, decoded, some, settled more le, shown_of_adds adds]
  | failed holds fails adds =>
      obtain ⟨text, decoded, some, rfl⟩ := source?_eq_some holds
      obtain ⟨steps, settled⟩ := fails.from_some_step (Session.run_grows _ _)
      refine ⟨steps, fun more le => ?_⟩
      simp [answer, decoded, some, settled more le, shown_of_adds adds]

theorem answerAll_of_converses (converses : Converses before lines replies last) :
    ∃ steps, ∀ more, steps ≤ more → answerAll more lines before =
      some ⟨last,
        replies.flatMap (fun reply => Text.encode cue ++ reply.stdout) ++
          (Text.encode cue ++ Text.encode farewell),
        replies.flatMap Reply.stderr⟩ := by
  induction converses with
  | none => exact ⟨0, fun more _ => rfl⟩
  | more answers others ih =>
      obtain ⟨steps, answered⟩ := answer_of_answers answers
      obtain ⟨further, answeredAll⟩ := ih
      refine ⟨max steps further, fun more le => ?_⟩
      rw [answerAll, answered more (Nat.le_trans (Nat.le_max_left ..) le)]
      simp [answeredAll more (Nat.le_trans (Nat.le_max_right ..) le)]

/-- If the runs of the sources in the lines come to an end, one after the other, so does the
prompt, in the same state. Before each line and before the end of the input there is a cue, and
each line is answered from the state that the lines before it have led to. -/
theorem converse_runs_in_order {input : List UInt8} (cut : Text.Lines input lines)
    (runs : (Session.start .unlimited).RunsInOrder (lines.filterMap source?) last) :
    ∃ replies : List Reply,
      (∃ steps, ∀ more, steps ≤ more → converse more input =
        some ⟨last,
          replies.flatMap (fun reply => Text.encode "> " ++ reply.stdout) ++
            (Text.encode "> " ++ Text.encode "\nExited pipette repl\n"),
          replies.flatMap Reply.stderr⟩) ∧
      replies.length = lines.length ∧
      ∀ (index : Nat) (line : List UInt8) (reply : Reply), lines[index]? = some line →
        replies[index]? = some reply →
        ∃ before after : Session,
          (Session.start .unlimited).RunsInOrder ((lines.take index).filterMap source?) before ∧
          Answers before line reply after ∧
          (Session.start .unlimited).RunsInOrder ((lines.take (index + 1)).filterMap source?)
            after := by
  obtain ⟨replies, converses⟩ := exists_converses runs
  obtain ⟨steps, answered⟩ := answerAll_of_converses converses
  refine ⟨replies, ⟨steps, fun more le => ?_⟩, converses.length_eq, fun _ _ _ => converses.answers⟩
  rw [converse, cut.cutLines_eq, answered more le]
  rfl

/-- A line that returns a value, one that is no text, a blank one, one that fails, and one that
shows a value and lacks the line feed. -/
def mixedInput : List UInt8 :=
  Text.encode "(true) -> a\n" ++ [0xff, 0x0a] ++ Text.encode " \n(a) |> nothing\n(a) |> show"

/-- The session in which `a` is true. -/
def assignedSession : Session :=
  ⟨Scope.empty.bind "a" ⟨0⟩, ⟨⟨#[[.boolean true]], 0⟩, .unlimited⟩⟩

theorem converse_runs_in_order_mixed :
    ∃ last : Session, (Session.start .unlimited).RunsInOrder
        ["(true) -> a", "(a) |> nothing", "(a) |> show"] last ∧
      last.scope = assignedSession.scope ∧ last.machine.heap = assignedSession.machine.heap ∧
      ∃ replies : List Reply, replies.length = 5 ∧
        ∃ steps, ∀ more, steps ≤ more → converse more mixedInput =
          some ⟨last,
            replies.flatMap (fun reply => Text.encode "> " ++ reply.stdout) ++
              (Text.encode "> " ++ Text.encode "\nExited pipette repl\n"),
            replies.flatMap Reply.stderr⟩ := by
  have assignScanned : scan "(true) -> a" =
      .ok ⟨[⟨⟨1, 1⟩, .leftParen⟩, ⟨⟨1, 2⟩, .boolean true⟩, ⟨⟨1, 6⟩, .rightParen⟩,
        ⟨⟨1, 8⟩, .assign⟩, ⟨⟨1, 11⟩, .identifier "a"⟩], ⟨1, 12⟩⟩ := by
    cbv
  have failScanned : scan "(a) |> nothing" =
      .ok ⟨[⟨⟨1, 1⟩, .leftParen⟩, ⟨⟨1, 2⟩, .identifier "a"⟩, ⟨⟨1, 3⟩, .rightParen⟩,
        ⟨⟨1, 5⟩, .pipeline⟩, ⟨⟨1, 8⟩, .identifier "nothing"⟩], ⟨1, 15⟩⟩ := by
    cbv
  have showScanned : scan "(a) |> show" =
      .ok ⟨[⟨⟨1, 1⟩, .leftParen⟩, ⟨⟨1, 2⟩, .identifier "a"⟩, ⟨⟨1, 3⟩, .rightParen⟩,
        ⟨⟨1, 5⟩, .pipeline⟩, ⟨⟨1, 8⟩, .identifier "show"⟩], ⟨1, 12⟩⟩ := by
    cbv
  have assigns : (Session.start .unlimited).run 5 "(true) -> a" =
      .returned [.boolean true] assignedSession := by
    simp only [Session.run, Expression.ofSource, assignScanned]
    rfl
  have fails : assignedSession.run 5 "(a) |> nothing" =
      .failed (.runtime ⟨⟨1, 8⟩, .unknownFunction "nothing"⟩) assignedSession := by
    simp only [Session.run, Expression.ofSource, failScanned]
    rfl
  have writes : assignedSession.run 5 "(a) |> show" =
      .returned [] ⟨assignedSession.scope, assignedSession.machine.heap,
        (Sink.unlimited.writeLine "true").2⟩ := by
    simp only [Session.run, Expression.ofSource, showScanned]
    rfl
  have sources : (Text.cutLines mixedInput).filterMap source? =
      ["(true) -> a", "(a) |> nothing", "(a) |> show"] := by
    decide +kernel
  have runs : (Session.start .unlimited).RunsInOrder
      ["(true) -> a", "(a) |> nothing", "(a) |> show"] _ :=
    .more (Outcome.settles_returned assigns) (.inl ⟨_, rfl⟩)
      (.more (Outcome.settles_failed fails) (.inr ⟨_, rfl⟩)
        (.more (Outcome.settles_returned writes) (.inl ⟨_, rfl⟩) .none))
  obtain ⟨replies, answered, count, -⟩ :=
    converse_runs_in_order (Text.lines_cutLines mixedInput) (sources ▸ runs)
  have five : (Text.cutLines mixedInput).length = 5 := by decide +kernel
  exact ⟨_, runs, rfl, rfl, replies, count.trans five, answered⟩

end Prompt

end PipeLang
