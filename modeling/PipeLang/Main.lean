import PipeLang.Command

/-!
# The program

Carries out the command that is named on the command line. Everything but reading and writing
is done by the library.
-/

namespace PipeLang.Main

def usage : String :=
  "usage: file PATH | tokens PATH | ast PATH | repl"

def writeBytes (stream : IO.FS.Stream) (bytes : List UInt8) : IO Unit := do
  stream.write ⟨bytes.toArray⟩
  stream.flush

/-- The contents of a file, if it can be read. -/
def readContents? (path : String) : IO (Option (List UInt8)) := do
  try
    let contents ← IO.FS.readBinFile path
    return some contents.data.toList
  catch _ =>
    return none

/-- Reads a line with the line feed that ends it; at the end of the input it is empty. -/
partial def readLine (input : IO.FS.Stream) (line : Array UInt8) : IO (List UInt8) := do
  let bytes ← input.read 1
  let line := line ++ bytes.data
  if bytes.isEmpty || bytes.data.contains Text.lineFeed then
    return line.toList
  else
    readLine input line

/-- Answers lines as they come in. -/
partial def converse (session : Session) : IO UInt32 := do
  let output ← IO.getStdout
  writeBytes output (Text.encode Prompt.cue)
  let line ← readLine (← IO.getStdin) #[]
  if line.isEmpty then
    writeBytes output (Text.encode Prompt.farewell)
    return 0
  match Prompt.answer Session.stepLimit line session with
  | none => return 1
  | some transcript =>
      writeBytes output transcript.stdout
      writeBytes (← IO.getStderr) transcript.stderr
      converse transcript.session

def report (command : Command) : IO UInt32 := do
  match command.execute Session.stepLimit with
  | none => return 1
  | some report =>
      writeBytes (← IO.getStdout) report.stdout
      writeBytes (← IO.getStderr) report.stderr
      return report.exitCode.toUInt32

end PipeLang.Main

open PipeLang.Main in
def main (arguments : List String) : IO UInt32 := do
  match arguments with
  | ["file", path] => report (.file (← readContents? path))
  | ["tokens", path] => report (.tokens (← readContents? path))
  | ["ast", path] => report (.tree (← readContents? path))
  | ["repl"] => converse (.start .unlimited)
  | _ =>
      IO.eprintln usage
      return 2
