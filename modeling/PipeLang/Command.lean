import PipeLang.Expression.Render
import PipeLang.Prompt

namespace PipeLang

/-!
# Commands

The commands of the program, with the contents of the file or of the input that they work on.
-/

inductive Command where
  /-- Runs the program in a file. -/
  | file (contents? : Option (List UInt8))
  /-- Lists the tokens of a file, one on each line. -/
  | tokens (contents? : Option (List UInt8))
  /-- Shows the expression tree of a file. -/
  | tree (contents? : Option (List UInt8))
  /-- Runs the prompt over the input. -/
  | prompt (input : List UInt8)

/-- What a command writes and the exit code it ends with. -/
structure Report where
  exitCode : UInt8
  stdout : List UInt8
  stderr : List UInt8

namespace Report

def success (stdout : List UInt8) : Report :=
  ⟨0, stdout, []⟩

/-- A failure is reported on one line behind what the command was about to do. -/
def failure (stdout : List UInt8) (activity message : String) : Report :=
  ⟨1, stdout, Text.encode ("Failed " ++ activity ++ ": " ++ message ++ "\n")⟩

end Report

namespace Command

/-- Each line with a line feed behind it. -/
def lines (texts : List String) : List UInt8 :=
  Text.encode (String.join (texts.map (· ++ "\n")))

/-- Reads a source and writes what is made of it. -/
def present (contents? : Option (List UInt8)) (activity : String)
    (make : String → Except Error (List String)) : Report :=
  match contents?.bind Text.decode? with
  | none => .failure [] activity Error.unreadableMessage
  | some source =>
      match make source with
      | .error error => .failure [] activity error.message
      | .ok texts => .success (lines texts)

def tokenLines (source : String) : Except Error (List String) :=
  match scan source with
  | .error error => .error (.scan error)
  | .ok scanned => .ok (scanned.tokens.map Token.render)

def treeText (source : String) : Except Error (List String) :=
  match Expression.ofSource source with
  | .error error => .error (.ofSource error)
  | .ok program => .ok [program.tree]

/-- Carries a command out; there is no report if a run takes more than the given number of
nested steps. -/
def execute (steps : Nat) : Command → Option Report
  | .file contents? =>
      match Session.runFile steps contents? (.start .unlimited) with
      | .returned _ after => some (.success after.machine.sink.written.toList)
      | .failed error after =>
          some (.failure after.machine.sink.written.toList "run file" error.message)
      | .outOfSteps => none
  | .tokens contents? => some (present contents? "scan file" tokenLines)
  | .tree contents? => some (present contents? "parse file" treeText)
  | .prompt input =>
      (Prompt.converse steps input).map fun transcript => ⟨0, transcript.stdout, transcript.stderr⟩

end Command

end PipeLang
