import PipeLang.Session
import PipeLang.Text.Blank

namespace PipeLang.Prompt

/-!
# The prompt

The prompt reads lines and runs each of them in one session. A line that fails is reported
and does not end the session; a line that is blank or no UTF-8 is not run at all.
-/

/-- Invites the next line. -/
def cue : String := "> "

/-- The last words of the prompt, on a line of their own. -/
def farewell : String := "\nExited pipette repl\n"

/-- What was written to the two output channels, and the session that goes on. -/
structure Transcript where
  session : Session
  stdout : List UInt8
  stderr : List UInt8

/-- What running one source shows: its own output, and then its values if there are any. -/
def shown (before after : Session) (values : List Value) : List UInt8 :=
  after.machine.sink.since before.machine.sink ++
    if values.isEmpty then [] else Text.encode (Value.renderLine values ++ "\n")

/-- Answers one line of input. -/
def answer (steps : Nat) (line : List UInt8) (session : Session) : Option Transcript :=
  match Text.decode? line with
  | none =>
      some ⟨session, [], Text.encode "Failed read line: stream did not contain valid UTF-8\n"⟩
  | some text =>
      let source := Text.trim text.toList
      if source.isEmpty then some ⟨session, [], []⟩
      else
        match session.run steps (String.ofList source) with
        | .returned values after => some ⟨after, shown session after values, []⟩
        | .failed error after =>
            some ⟨after, shown session after [],
              Text.encode ("Failed run prompt: " ++ error.message ++ "\n")⟩
        | .outOfSteps => none

/-- Answers all lines, with a cue before each and before the end of the input. -/
def answerAll (steps : Nat) : List (List UInt8) → Session → Option Transcript
  | [], session => some ⟨session, Text.encode cue ++ Text.encode farewell, []⟩
  | line :: lines, session =>
      match answer steps line session with
      | none => none
      | some first =>
          match answerAll steps lines first.session with
          | none => none
          | some others =>
              some ⟨others.session, Text.encode cue ++ first.stdout ++ others.stdout,
                first.stderr ++ others.stderr⟩

/-- Runs the prompt over a whole input. -/
def converse (steps : Nat) (input : List UInt8) : Option Transcript :=
  answerAll steps (Text.cutLines input) (.start .unlimited)

end PipeLang.Prompt
