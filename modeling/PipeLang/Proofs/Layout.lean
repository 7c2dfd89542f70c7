import Mathlib.Data.List.Forall2
import PipeLang.Proofs.MovedParse
import PipeLang.Proofs.Requests
import PipeLang.Proofs.Sequence

namespace PipeLang

/-! # Layout

Blanks, line breaks and comments decide where the tokens stand, and nothing else. Two sources with
the same tokens run alike, also from sessions that differ in the locations inside their lambdas:
if all locations are put at the start of the text, then the two runs are one and the same.
-/

/-- What is left of a session without the locations in the lambdas it stores. -/
def Session.unlocated (session : Session) : Session :=
  Frame.relocate (fun _ => .start) session

/-- What is left of an outcome without the locations in its lambdas and in its error. -/
def Outcome.unlocated (outcome : Outcome Error Session) : Outcome Error Session :=
  outcome.relocateSession fun _ => .start

theorem Outcome.ends_of_unlocated_eq {outcome other : Outcome Error Session}
    (same : outcome.unlocated = other.unlocated) :
    (∃ values after results later, outcome = .returned values after ∧
      other = .returned results later ∧ Session.unlocated after = Session.unlocated later) ∨
    (∃ error after failure later, outcome = .failed error after ∧
      other = .failed failure later ∧ Session.unlocated after = Session.unlocated later) ∨
    (outcome = .outOfSteps ∧ other = .outOfSteps) := by
  cases outcome <;> cases other <;>
    simp_all [unlocated, relocateSession, relocateWith, Session.unlocated]

/-- Both sources can be scanned, and their tokens are of the same kinds, with what they denote. -/
def SameTokens (source other : String) : Prop :=
  ∃ one two, scan source = .ok one ∧ scan other = .ok two ∧
    one.tokens.map Token.kind = two.tokens.map Token.kind

theorem Token.relocate_start_of_kinds {tokens others : List Token}
    (same : tokens.map Token.kind = others.map Token.kind) :
    tokens.map (Token.relocate fun _ => .start) = others.map (Token.relocate fun _ => .start) := by
  have placed (tokens : List Token) : tokens.map (Token.relocate fun _ => .start) =
      (tokens.map Token.kind).map (Token.mk .start) := by
    simp [Token.relocate]
  rw [placed, placed, same]

namespace Session

variable {steps : Nat} {source other : String} {first second : Session}

/-- What a session does with the tokens of a source. -/
def runScanned (steps : Nat) (scanned : Scanned) (session : Session) : Outcome Error Session :=
  match Expression.parse scanned.tokens scanned.stop with
  | .error error => .failed (.parse error) session
  | .ok program => session.evaluate steps program

theorem run_of_scan {scanned : Scanned} (found : scan source = .ok scanned) (session : Session) :
    session.run steps source = session.runScanned steps scanned := by
  simp only [run, runScanned, Expression.ofSource, found]
  cases Expression.parse scanned.tokens scanned.stop <;> rfl

theorem runScanned_relocate (move : Location → Location) (scanned : Scanned) (session : Session) :
    runScanned steps (scanned.relocate move) (session.relocate move) =
      (session.runScanned steps scanned).relocateSession move := by
  simp only [runScanned, Scanned.relocate, Expression.parse_relocate]
  cases Expression.parse scanned.tokens scanned.stop with
  | error error => rfl
  | ok program => exact evaluate_relocate move

theorem run_unlocated (related : first.unlocated = second.unlocated)
    (tokens : SameTokens source other) :
    (first.run steps source).unlocated = (second.run steps other).unlocated := by
  obtain ⟨one, two, scanned, otherScanned, kinds⟩ := tokens
  have sources : one.relocate (fun _ => .start) = two.relocate fun _ => .start := by
    simp only [Scanned.relocate, Token.relocate_start_of_kinds kinds]
  calc (first.run steps source).unlocated
      = runScanned steps (one.relocate fun _ => .start) first.unlocated := by
        rw [run_of_scan scanned]
        exact (runScanned_relocate _ one first).symm
    _ = runScanned steps (two.relocate fun _ => .start) second.unlocated := by
        rw [sources, related]
    _ = (second.run steps other).unlocated := by
        rw [run_of_scan otherScanned]
        exact runScanned_relocate _ two second

/-- The sessions that two sources leave behind are related again, so the sources after them run
alike as well. -/
theorem serveEach_unlocated (related : first.unlocated = second.unlocated)
    {sources others : List String} (tokens : List.Forall₂ SameTokens sources others) :
    (first.serveEach steps (sources.map .source)).map Outcome.unlocated =
      (second.serveEach steps (others.map .source)).map Outcome.unlocated := by
  induction tokens generalizing first second with
  | nil => rfl
  | @cons source other sources others same _ ih =>
      have front : (first.run steps source).unlocated = (second.run steps other).unlocated :=
        run_unlocated related same
      obtain ⟨values, after, results, later, ran, otherRan, left⟩ |
          ⟨error, after, failure, later, ran, otherRan, left⟩ | ⟨ran, otherRan⟩ :=
        Outcome.ends_of_unlocated_eq front
      · rw [ran, otherRan] at front
        simp only [List.map_cons, serveEach, serve, ran, otherRan, front, ih left]
      · rw [ran, otherRan] at front
        simp only [List.map_cons, serveEach, serve, ran, otherRan, front, ih left]
      · simp only [List.map_cons, serveEach, serve, ran, otherRan]

end Session

/-- Sources with the same tokens give the same values, the same output and related sessions, or
the same error at another location, at once and one after the other. -/
theorem run_ignores_layout {first second : Session}
    (related : first.unlocated = second.unlocated) (steps : Nat) :
    (∀ source other, SameTokens source other →
      (first.run steps source).unlocated = (second.run steps other).unlocated) ∧
    ∀ sources others, List.Forall₂ SameTokens sources others →
      (first.serveEach steps (sources.map .source)).map Outcome.unlocated =
        (second.serveEach steps (others.map .source)).map Outcome.unlocated :=
  ⟨fun _ _ tokens => Session.run_unlocated related tokens,
    fun _ _ tokens => Session.serveEach_unlocated related tokens⟩

def oneLine : String := "(() => y) -> f"

def threeLines : String := "-- kept\n(() =>\n  y)->f"

/-- A session in which the lambda that `oneLine` keeps has its body at a location. -/
def keepingAt (location : Location) : Session :=
  ⟨Scope.empty.bind "f" ⟨0⟩,
    ⟨⟨#[[.lambda ⟨0, [], .empty, .reference location "y"⟩]], 1⟩, .unlimited⟩⟩

/-- The lambda is kept at the first request and fails at the second, on the line where its
body was written. -/
theorem run_ignores_layout_comment :
    (Session.start .unlimited).serveEach 5 [.source oneLine, .source "()|>f"] =
      [.returned [.lambda ⟨0, [], .empty, .reference ⟨1, 8⟩ "y"⟩] (keepingAt ⟨1, 8⟩),
        .failed (.runtime ⟨⟨1, 8⟩, .bareVariable "y"⟩) (keepingAt ⟨1, 8⟩)] ∧
    (Session.start .unlimited).serveEach 5 [.source threeLines, .source "() |> f"] =
      [.returned [.lambda ⟨0, [], .empty, .reference ⟨3, 3⟩ "y"⟩] (keepingAt ⟨3, 3⟩),
        .failed (.runtime ⟨⟨3, 3⟩, .bareVariable "y"⟩) (keepingAt ⟨3, 3⟩)] ∧
    ((Session.start .unlimited).serveEach 5 [.source oneLine, .source "()|>f"]).map
        Outcome.unlocated =
      ((Session.start .unlimited).serveEach 5 [.source threeLines, .source "() |> f"]).map
        Outcome.unlocated := by
  have oneScanned : scan oneLine =
      .ok ⟨[⟨⟨1, 1⟩, .leftParen⟩, ⟨⟨1, 2⟩, .leftParen⟩, ⟨⟨1, 3⟩, .rightParen⟩, ⟨⟨1, 5⟩, .arrow⟩,
        ⟨⟨1, 8⟩, .identifier "y"⟩, ⟨⟨1, 9⟩, .rightParen⟩, ⟨⟨1, 11⟩, .assign⟩,
        ⟨⟨1, 14⟩, .identifier "f"⟩], ⟨1, 15⟩⟩ := by
    cbv
  have threeScanned : scan threeLines =
      .ok ⟨[⟨⟨2, 1⟩, .leftParen⟩, ⟨⟨2, 2⟩, .leftParen⟩, ⟨⟨2, 3⟩, .rightParen⟩, ⟨⟨2, 5⟩, .arrow⟩,
        ⟨⟨3, 3⟩, .identifier "y"⟩, ⟨⟨3, 4⟩, .rightParen⟩, ⟨⟨3, 5⟩, .assign⟩,
        ⟨⟨3, 7⟩, .identifier "f"⟩], ⟨3, 8⟩⟩ := by
    cbv
  have tightScanned : scan "()|>f" =
      .ok ⟨[⟨⟨1, 1⟩, .leftParen⟩, ⟨⟨1, 2⟩, .rightParen⟩, ⟨⟨1, 3⟩, .pipeline⟩,
        ⟨⟨1, 5⟩, .identifier "f"⟩], ⟨1, 6⟩⟩ := by
    cbv
  have looseScanned : scan "() |> f" =
      .ok ⟨[⟨⟨1, 1⟩, .leftParen⟩, ⟨⟨1, 2⟩, .rightParen⟩, ⟨⟨1, 4⟩, .pipeline⟩,
        ⟨⟨1, 7⟩, .identifier "f"⟩], ⟨1, 8⟩⟩ := by
    cbv
  refine ⟨?_, ?_, ?_⟩
  · simp only [Session.serveEach, Session.serve, Session.run_of_scan oneScanned,
      Session.run_of_scan tightScanned]
    rfl
  · simp only [Session.serveEach, Session.serve, Session.run_of_scan threeScanned,
      Session.run_of_scan looseScanned]
    rfl
  · refine (run_ignores_layout rfl 5).2 [oneLine, "()|>f"] [threeLines, "() |> f"] ?_
    exact .cons ⟨_, _, oneScanned, threeScanned, rfl⟩
      (.cons ⟨_, _, tightScanned, looseScanned, rfl⟩ .nil)

end PipeLang
