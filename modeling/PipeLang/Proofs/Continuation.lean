import PipeLang.Proofs.MoreSteps
import PipeLang.Proofs.Unparse

namespace PipeLang

/-! # Continuing a program with another

Behind a program and a pipeline sign, a second program goes on with the chain of operators of the
first. The second chain groups to the left too, so the first program ends up as the left operand
of its first operand. That operand gets the values of the first program, and drops them unless it
is a variable.
-/

namespace Expression

/-- The leftmost operand of a chain of operators. -/
def firstOperand : Expression → Expression
  | .binary _ _ left _ => left.firstOperand
  | operand => operand

theorem firstOperand_relocate (move : Location → Location) (expression : Expression) :
    (expression.relocate move).firstOperand = expression.firstOperand.relocate move := by
  induction expression with
  | binary location operator left right leftIH _ => exact leftIH
  | _ => rfl

/-- The chain of operators in which a second chain follows the first behind a pipeline sign. -/
def continued (first : Expression) (sign : Location) : Expression → Expression
  | .binary location operator left right =>
      .binary location operator (first.continued sign left) right
  | operand => .binary sign .pipeline first operand

variable {first second : Expression} {sign : Location} {tokens others : List Token}

theorem spelling_continued (first : Expression) (sign : Location) (second : Expression) :
    (first.continued sign second).spelling =
      first.spelling ++ .introducing sign .pipeline :: second.spelling := by
  induction second with
  | binary location operator left right leftIH _ =>
      rw [continued, spelling, leftIH, spelling, List.append_assoc, List.cons_append]
  | _ => rfl

theorem endsInBody_continued (first : Expression) (sign : Location) (second : Expression) :
    (first.continued sign second).endsInBody = second.endsInBody := by
  cases second with
  | binary location operator left right => cases operator <;> cases right <;> rfl
  | _ => rfl

theorem writable_continued (outside : first.endsInBody = false) (before : first.Writable)
    (after : second.Writable) : (first.continued sign second).Writable := by
  have operand {value : Expression} (notChain : value.tag ≠ .binary) (writable : value.Writable) :
      (Expression.binary sign .pipeline first value).Writable :=
    writable_binary.mpr ⟨⟨outside, notChain⟩, before, writable⟩
  induction second with
  | binary location operator left right leftIH _ =>
      obtain ⟨⟨ends, takes⟩, leftWritable, rightWritable⟩ := writable_binary.mp after
      refine writable_binary.mpr ⟨⟨?_, takes⟩, leftIH leftWritable, rightWritable⟩
      rw [endsInBody_continued, ends]
  | _ => exact operand nofun after

end Expression

theorem Spells.append_rest {marks : List Mark} {tokens rest : List Token}
    (spells : Spells marks tokens rest) (more : List Token) :
    Spells marks (tokens ++ more) (rest ++ more) := by
  induction spells with
  | nil => exact .nil
  | cons fits _ ih => exact .cons fits ih

namespace Expression

variable {first second : Expression} {tokens others : List Token}

theorem Written.continued (before : first.Written tokens []) (sign : Token)
    (outside : first.endsInBody = false) (signs : sign.kind = .pipeline)
    (after : second.Written others []) :
    (first.continued sign.location second).Written (tokens ++ sign :: others) [] where
  spells := by
    rw [spelling_continued]
    exact (before.spells.append_rest (sign :: others)).append
      (.cons (Mark.fits_introducing signs) after.spells)
  writable := writable_continued outside before.writable after.writable

theorem settles_continued (sign : Location) (notBare : second.firstOperand.tag ≠ .reference)
    (frame : Frame) :
    Outcome.Settles (fun steps => evaluate steps (first.continued sign second) frame) =
      Outcome.Sequel (Outcome.Settles fun steps => evaluate steps first frame) fun _ middle =>
        Outcome.Settles fun steps => evaluate steps second middle := by
  induction second with
  | binary location operator left right leftIH _ =>
      simp only [continued, settles_binary]
      rw [leftIH notBare, Outcome.sequel_assoc]
  | reference location name => exact absurd rfl notBare
  -- Any other operand is evaluated without a look at the values in front of the pipeline.
  | _ => exact settles_binary sign .pipeline first _ frame

end Expression

end PipeLang
