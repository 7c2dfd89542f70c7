import PipeLang.Proofs.Answers
import PipeLang.Session

namespace PipeLang

/-! # Serving requests

A session is asked to run source texts and files, one after the other. A request that fails
does not end the session: the next one starts from the state that the failure left behind.
-/

inductive Request where
  | source (text : String)
  /-- A file with these bytes, or one that does not exist. -/
  | file (contents? : Option (List UInt8))

namespace Session

def serve (steps : Nat) : Request → Session → Outcome Error Session
  | .source text, session => session.run steps text
  | .file contents?, session => session.runFile steps contents?

/-- The outcomes of all requests. Nothing follows a request that does not come to an end. -/
def serveEach (steps : Nat) : List Request → Session → List (Outcome Error Session)
  | [], _ => []
  | request :: others, session =>
      match session.serve steps request with
      | .returned values after => .returned values after :: serveEach steps others after
      | .failed error after => .failed error after :: serveEach steps others after
      | .outOfSteps => [.outOfSteps]

variable {steps : Nat} {session : Session} {holds : Session → Prop}
  {returns : List Value → Session → Prop} {fails : Error → Session → Prop}

/-- What every request ensures if it starts from a good state, and leaves a good state behind,
holds of all outcomes. -/
theorem serveEach_ensures
    (each : ∀ (session : Session) request, holds session →
      (session.serve steps request).Ensures returns fails)
    (returned : ∀ values after, returns values after → holds after)
    (failed : ∀ error after, fails error after → holds after)
    (start : holds session) (requests : List Request) :
    ∀ outcome ∈ session.serveEach steps requests, outcome.Ensures returns fails := by
  induction requests generalizing session with
  | nil => simp [serveEach]
  | cons request others ih =>
      have first := each session request start
      cases served : session.serve steps request with
      | returned values after =>
          rw [served] at first
          simpa [serveEach, served] using ⟨first, ih (returned values after first)⟩
      | failed error after =>
          rw [served] at first
          simpa [serveEach, served] using ⟨first, ih (failed error after first)⟩
      | outOfSteps => simp [serveEach, served, Outcome.Ensures]

end Session

end PipeLang
