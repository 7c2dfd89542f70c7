import PipeLang.Evaluation.Outcome
import PipeLang.Expression.Parse

namespace PipeLang

/-!
# Errors of a run

A run fails in one of its stages, or because the world outside fails: the source cannot be
read, or the output cannot be written.
-/

inductive Error where
  /-- The source is missing, or its bytes are no UTF-8. -/
  | unreadableSource
  | scan (error : ScanError)
  | parse (error : ParseError)
  | runtime (error : RuntimeError)
  | output (failure : OutputFailure)
deriving DecidableEq, Repr

namespace Error

def ofSource : SourceError → Error
  | .scan error => .scan error
  | .parse error => .parse error

def ofFault : Fault → Error
  | .runtime error => .runtime error
  | .output failure => .output failure

/-- The message when a source cannot be read. -/
def unreadableMessage : String := "Failed open source file"

/-- The message of an error, which starts with the stage that failed. -/
def message : Error → String
  | .unreadableSource => "InternalError: " ++ unreadableMessage
  | .scan error => "Lex error: " ++ error.render ScanCause.message
  | .parse error => "Parse error: " ++ error.render ParseCause.message
  | .runtime error => "Runtime error: " ++ error.render RuntimeCause.message
  | .output failure => "InternalError: " ++ failure.message

/-- The position of an error that has one in the source text. -/
def location? : Error → Option Location
  | .unreadableSource => none
  | .scan error => some error.location
  | .parse error => some error.location
  | .runtime error => some error.location
  | .output _ => none

end Error

end PipeLang
