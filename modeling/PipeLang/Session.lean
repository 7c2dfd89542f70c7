import PipeLang.Error
import PipeLang.Evaluation.Evaluate

namespace PipeLang

/-!
# Sessions

A session runs sources one after the other in the same scope, so each sees what those
before it have bound, whether they succeeded or not.
-/

abbrev Session := Frame

namespace Session

/-- A session in which nothing is bound yet. -/
def start (sink : Sink) : Session :=
  ⟨.empty, .fresh sink⟩

/-- More nested steps than memory holds: what takes longer than this does not come to an
end in practice. -/
def stepLimit : Nat := Nat.pow 10 15

/-- Evaluates a program in the scope of the session. -/
def evaluate (steps : Nat) (program : Expression) (session : Session) : Outcome Error Session :=
  (PipeLang.evaluate steps program session).mapFailure .ofFault

/-- Runs a source text. A text that is no program leaves the session as it is. -/
def run (steps : Nat) (source : String) (session : Session) : Outcome Error Session :=
  match Expression.ofSource source with
  | .error error => .failed (.ofSource error) session
  | .ok program => session.evaluate steps program

/-- Runs the contents of a file; a file that does not exist has none. -/
def runFile (steps : Nat) (contents? : Option (List UInt8)) (session : Session) :
    Outcome Error Session :=
  match contents?.bind Text.decode? with
  | none => .failed .unreadableSource session
  | some source => session.run steps source

end Session

end PipeLang
