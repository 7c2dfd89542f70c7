import PipeLang.Proofs.Spelling

namespace PipeLang

/-! # Moving expressions

An expression is moved by changing the locations of all its nodes. Nothing else about it
depends on them: a moved expression has the same shape, is written with the same kinds of tokens
and can be written under the same condition.
-/

namespace Expression

mutual

def relocate (move : Location → Location) : Expression → Expression
  | .number location value => .number (move location) value
  | .string location text => .string (move location) text
  | .boolean location value => .boolean (move location) value
  | .reference location name => .reference (move location) name
  | .tuple location elements => .tuple (move location) (relocateEach move elements)
  | .lambda location parameters body => .lambda (move location) parameters (relocate move body)
  | .binary location operator left right =>
      .binary (move location) operator (relocate move left) (relocate move right)

def relocateEach (move : Location → Location) : List Expression → List Expression
  | [] => []
  | element :: others => relocate move element :: relocateEach move others

end

/-- What is left of an expression without its locations. -/
def unlocated (expression : Expression) : Expression :=
  expression.relocate fun _ => .start

variable {move : Location → Location}

theorem relocateEach_eq_map (elements : List Expression) :
    relocateEach move elements = elements.map (relocate move) := by
  induction elements with
  | nil => rfl
  | cons element others ih => rw [relocateEach, ih, List.map_cons]

@[simp] theorem tag_relocate (expression : Expression) :
    (expression.relocate move).tag = expression.tag := by
  cases expression <;> rfl

@[simp] theorem endsInBody_relocate (expression : Expression) :
    (expression.relocate move).endsInBody = expression.endsInBody := by
  cases expression with
  | binary location operator left right =>
      cases operator <;> cases right <;> rfl
  | _ => rfl

theorem relocate_relocate (first second : Location → Location) (expression : Expression) :
    (expression.relocate first).relocate second = expression.relocate (second ∘ first) := by
  induction expression with
  | tuple location elements ih =>
      simp only [relocate, relocateEach_eq_map, List.map_map, Function.comp_apply]
      exact congrArg _ (List.map_congr_left ih)
  | lambda location parameters body ih => simp only [relocate, ih, Function.comp_apply]
  | binary location operator left right leftIH rightIH =>
      simp only [relocate, leftIH, rightIH, Function.comp_apply]
  | _ => rfl

theorem relocate_eq_self (fixed : ∀ location, move location = location) (expression : Expression) :
    expression.relocate move = expression := by
  induction expression with
  | tuple location elements ih =>
      simp only [relocate, relocateEach_eq_map, fixed]
      rw [List.map_congr_left ih, List.map_id']
  | lambda location parameters body ih => simp only [relocate, ih, fixed]
  | binary location operator left right leftIH rightIH =>
      simp only [relocate, leftIH, rightIH, fixed]
  | _ => simp only [relocate, fixed]

theorem relocate_cancel {back : Location → Location}
    (undone : ∀ location, back (move location) = location) (expression : Expression) :
    (expression.relocate move).relocate back = expression := by
  rw [relocate_relocate]
  exact relocate_eq_self undone expression

theorem takes_relocate (operator : Operator) (right : Expression) :
    operator.Takes (right.relocate move) ↔ operator.Takes right := by
  cases operator <;> simp [Operator.Takes]

theorem writable_relocate (expression : Expression) :
    (expression.relocate move).Writable ↔ expression.Writable := by
  induction expression with
  | tuple location elements ih =>
      rw [relocate, relocateEach_eq_map, writable_tuple, writable_tuple, List.forall_mem_map]
      exact forall₂_congr ih
  | lambda location parameters body ih => rw [relocate, writable_lambda, writable_lambda, ih]
  | binary location operator left right leftIH rightIH =>
      rw [relocate, writable_binary, writable_binary, leftIH, rightIH, endsInBody_relocate,
        takes_relocate]
  | _ => simp [relocate, Writable, nodes, nodesWith, OperandsAllowed]

end Expression

/-- Moves a token along with the node that it introduces. -/
def Token.relocate (move : Location → Location) (token : Token) : Token :=
  { token with location := move token.location }

def Located.relocate {Cause : Type} (move : Location → Location) (failure : Located Cause) :
    Located Cause :=
  { failure with location := move failure.location }

def Mark.relocate (move : Location → Location) (mark : Mark) : Mark :=
  { mark with location? := mark.location?.map move }

variable {move : Location → Location}

theorem Mark.Fits.relocate {mark : Mark} {token : Token} (fits : mark.Fits token) :
    (mark.relocate move).Fits (token.relocate move) := by
  refine ⟨fits.1, ?_⟩
  intro location moved
  obtain ⟨origin, found, rfl⟩ := Option.map_eq_some_iff.mp moved
  exact congrArg move (fits.2 origin found)

theorem Spells.relocate {marks : List Mark} {tokens rest : List Token}
    (spells : Spells marks tokens rest) :
    Spells (marks.map (Mark.relocate move)) (tokens.map (Token.relocate move))
      (rest.map (Token.relocate move)) := by
  induction spells with
  | nil => exact .nil
  | cons fits _ ih => exact .cons fits.relocate ih

theorem Mark.map_separated {change : Mark → Mark}
    (comma : change (plain .comma) = plain .comma) (phrases : List (List Mark)) :
    (Mark.separated phrases).map change = Mark.separated (phrases.map (List.map change)) := by
  induction phrases with
  | nil => rfl
  | cons first others ih =>
      cases others with
      | nil => simp
      | cons second others =>
          simp only [separated_cons_cons, List.map_append, List.map_cons, comma] at ih ⊢
          rw [ih]

namespace Expression

theorem map_parameterSpelling {change : Mark → Mark}
    (kept : ∀ kind, change (.plain kind) = .plain kind) (parameters : List String) :
    (parameterSpelling parameters).map change = parameterSpelling parameters := by
  simp [parameterSpelling, Mark.map_separated (kept .comma), Function.comp_def, kept]

theorem spelling_relocate (expression : Expression) :
    (expression.relocate move).spelling = expression.spelling.map (Mark.relocate move) := by
  induction expression with
  | tuple location elements ih =>
      have each : spellings (relocateEach move elements) =
          (spellings elements).map (List.map (Mark.relocate move)) := by
        clear location
        induction elements with
        | nil => rfl
        | cons element others rest =>
            rw [relocateEach, spellings, spellings, List.map_cons, ih element List.mem_cons_self,
              rest fun other member => ih other (List.mem_cons_of_mem element member)]
      have fixed : (Mark.plain .comma).relocate move = .plain .comma := rfl
      simp only [relocate, spelling, each, ← Mark.map_separated fixed, List.map_cons,
        List.map_append]
      rfl
  | lambda location parameters body ih =>
      have fixed (kind : Token.Kind) : (Mark.plain kind).relocate move = .plain kind := rfl
      simp only [relocate, spelling, ih, List.map_cons, List.map_append, fixed,
        map_parameterSpelling fixed]
      rfl
  | binary location operator left right leftIH rightIH =>
      simp only [relocate, spelling, leftIH, rightIH, List.map_cons, List.map_append]
      rfl
  | _ => rfl

end Expression

end PipeLang
