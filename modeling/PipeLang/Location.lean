namespace PipeLang

/-!
# Positions in a source text

Lines and columns count from one. A column is one character wide, whatever the
character; only a line feed starts a new line.
-/

structure Location where
  line : Nat
  column : Nat
deriving DecidableEq, Repr

namespace Location

/-- The position of the first character of every text. -/
def start : Location := ⟨1, 1⟩

/-- The position just past `character` when the character itself stands here. -/
def next (here : Location) (character : Char) : Location :=
  if character = '\n' then ⟨here.line + 1, 1⟩ else ⟨here.line, here.column + 1⟩

/-- The position just past `text` when the text starts here. -/
def after (here : Location) (text : List Char) : Location :=
  text.foldl next here

/-- A position is written as line and column with a colon between them. -/
def render (here : Location) : String :=
  s!"{here.line}:{here.column}"

@[simp] theorem after_nil (here : Location) : here.after [] = here := rfl

@[simp] theorem after_cons (here : Location) (character : Char) (rest : List Char) :
    here.after (character :: rest) = (here.next character).after rest := rfl

@[simp] theorem after_append (here : Location) (before rest : List Char) :
    here.after (before ++ rest) = (here.after before).after rest := by
  simp [after]

end Location

/-- A cause of failure together with the position it is reported at. -/
structure Located (Cause : Type) where
  location : Location
  cause : Cause
deriving DecidableEq, Repr

/-- The position of a located cause stands before its wording. -/
def Located.render {Cause : Type} (wording : Cause → String) (failure : Located Cause) : String :=
  failure.location.render ++ ": " ++ wording failure.cause

end PipeLang
