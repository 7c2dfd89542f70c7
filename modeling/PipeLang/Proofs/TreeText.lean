import PipeLang.Proofs.Decoding
import PipeLang.Proofs.Vocabulary

namespace PipeLang.Expression

/-! # Reading a tree form back

The tree form of a program tells everything about it. Its lines can be told from each other, as
nothing in them is written with a line feed; a line shows where the position in it ends and what
the node is; and the lines of a child that has younger siblings go on until a line starts without
the trunk.
-/

variable {first second : Expression} {location : Location}

theorem nodeLine_toList (expression : Expression) :
    expression.nodeLine.toList = Nat.toDigits 10 expression.location.line ++ ':' ::
      (Nat.toDigits 10 expression.location.column ++ ':' :: expression.header.toList) := by
  have colon : (toString ":").toList = [':'] := rfl
  simp [nodeLine, Location.render, colon]

theorem nodeLine_unique (same : first.nodeLine = second.nodeLine) :
    first.location = second.location ∧ first.header = second.header := by
  have absent (number : Nat) : ':' ∉ Nat.toDigits 10 number :=
    Text.not_mem_digits (by decide) (by decide) (by decide)
  have number {number other : Nat} (digits : Nat.toDigits 10 number = Nat.toDigits 10 other) :
      number = other := Text.toDigits_injective (by decide) (by decide) digits
  have characters := congrArg String.toList same
  rw [nodeLine_toList, nodeLine_toList] at characters
  obtain ⟨lines, onward⟩ := Text.append_mark_unique (absent _) (absent _) characters
  obtain ⟨columns, headers⟩ := Text.append_mark_unique (absent _) (absent _) onward
  have locations (here there : Location) (lines : here.line = there.line)
      (columns : here.column = there.column) : here = there := by
    cases here
    cases there
    simp_all
  exact ⟨locations _ _ (number lines) (number columns), String.toList_inj.mp headers⟩

/-- The letter that the header of a node starts with. -/
def initial : Expression → Char
  | .number .. => 'n'
  | .string .. => 's'
  | .boolean .. => 'b'
  | .reference .. => 'v'
  | .tuple .. => 't'
  | .lambda .. => 'l'
  | .binary _ .pipeline _ _ => 'p'
  | .binary _ .assign _ _ => 'a'
  | .binary _ .mutate _ _ => 'm'

theorem header_initial (expression : Expression) :
    expression.header.toList.head? = some expression.initial := by
  rcases expression with _ | _ | _ | _ | _ | _ | ⟨_, _ | _ | _, _, _⟩ <;>
    simp [header, initial, Operator.name]

theorem tag_eq_of_initial_eq (same : first.initial = second.initial) : first.tag = second.tag := by
  rcases first with _ | _ | _ | _ | _ | _ | ⟨_, _ | _ | _, _, _⟩ <;>
    rcases second with _ | _ | _ | _ | _ | _ | ⟨_, _ | _ | _, _, _⟩ <;>
    first | rfl | cases same

theorem operator_eq_of_initial_eq {left right leftToo rightToo : Expression}
    {operator operatorToo : Operator}
    (same : (binary location operator left right).initial =
      (binary location operatorToo leftToo rightToo).initial) : operator = operatorToo := by
  cases operator <;> cases operatorToo <;> first | rfl | cases same

/-- Position, header and children are all that there is to a node. -/
theorem eq_of_header_eq (spellable : first.Spellable) (spellableToo : second.Spellable)
    (location : first.location = second.location) (headers : first.header = second.header)
    (parts : first.children = second.children) : first = second := by
  have initial : first.initial = second.initial := by
    have heads := congrArg (fun text => text.toList.head?) headers
    simpa [header_initial] using heads
  have tag := tag_eq_of_initial_eq initial
  cases first with
  | number place value =>
      cases second with
      | number placeToo valueToo =>
          obtain rfl : place = placeToo := location
          obtain rfl := Number.render_injective (by simpa [header] using headers)
          rfl
      | _ => cases tag
  | string place text =>
      cases second with
      | string placeToo textToo =>
          obtain rfl : place = placeToo := location
          obtain rfl := Text.quote_injective (by simpa [header] using headers)
          rfl
      | _ => cases tag
  | boolean place value =>
      cases second with
      | boolean placeToo valueToo =>
          obtain rfl : place = placeToo := location
          obtain rfl := Text.boolean_injective (by simpa [header] using headers)
          rfl
      | _ => cases tag
  | reference place name =>
      cases second with
      | reference placeToo nameToo =>
          obtain rfl : place = placeToo := location
          obtain rfl : name = nameToo := by simpa [header] using headers
          rfl
      | _ => cases tag
  | tuple place elements =>
      cases second with
      | tuple placeToo elementsToo =>
          obtain rfl : place = placeToo := location
          obtain rfl : elements = elementsToo := parts
          rfl
      | _ => cases tag
  | lambda place names body =>
      cases second with
      | lambda placeToo namesToo bodyToo =>
          obtain rfl : place = placeToo := location
          obtain rfl := List.singleton_inj.mp parts
          have rows : ", ".intercalate names = ", ".intercalate namesToo := by
            simpa [header] using headers
          obtain rfl := names_unique rfl (by decide) (fun _ => spellable.parameter)
            (fun _ => spellableToo.parameter) rows
          rfl
      | _ => cases tag
  | binary place operator left right =>
      cases second with
      | binary placeToo operatorToo leftToo rightToo =>
          obtain rfl : place = placeToo := location
          obtain rfl := operator_eq_of_initial_eq initial
          obtain ⟨rfl, rfl⟩ : left = leftToo ∧ right = rightToo := by
            simpa [children] using parts
          rfl
      | _ => cases tag

variable {elements others : List Expression} {front behind : String}

/-- The line goes on with a child that has younger siblings. -/
def Continues (line : String) : Prop :=
  ∃ text, line = trunk ++ text

theorem childLines_starts : ∀ line ∈ (childLines elements).head?, ¬ Continues line := by
  have apart (text : String) : ¬ Continues (branch ++ text) ∧ ¬ Continues (corner ++ text) := by
    constructor <;> rintro ⟨other, same⟩ <;> replace same := congrArg String.toList same <;>
      simp [branch, corner, trunk, connector] at same
  cases elements with
  | nil => simp [childLines]
  | cons child others =>
      cases others with
      | nil => simpa [childLines, treeLines_eq child, indent] using (apart _).2
      | cons next others => simpa [childLines, treeLines_eq child, indent] using (apart _).1

theorem indent_injective (front behind : String) : Function.Injective (indent front behind) := by
  intro lines other same
  cases lines with
  | nil =>
      cases other with
      | nil => rfl
      | cons => cases same
  | cons line lines =>
      cases other with
      | nil => cases same
      | cons lineToo other =>
          obtain ⟨heads, tails⟩ := List.cons.inj same
          have onward : Function.Injective (behind ++ ·) :=
            fun _ _ => (String.append_right_inj behind).mp
          rw [(String.append_right_inj front).mp heads, (List.map_injective_iff.mpr onward) tails]

/-- The lines of a child with younger siblings end where the next sibling starts. -/
theorem indent_trunk_unique {child other : Expression} {rest more : List String}
    (starts : ∀ line ∈ rest.head?, ¬ Continues line)
    (startsToo : ∀ line ∈ more.head?, ¬ Continues line)
    (same : indent branch trunk child.treeLines ++ rest =
      indent branch trunk other.treeLines ++ more) :
    child.treeLines = other.treeLines ∧ rest = more := by
  have goOn (lines : List String) : ∀ line ∈ lines.map (trunk ++ ·), ¬ ¬ Continues line := by
    intro line member
    obtain ⟨text, -, rfl⟩ := List.mem_map.mp member
    exact not_not.mpr ⟨text, rfl⟩
  have blocks : indent branch trunk child.treeLines = indent branch trunk other.treeLines ∧
      rest = more := by
    rw [treeLines_eq child, treeLines_eq other] at same ⊢
    obtain ⟨heads, tails⟩ := List.cons.inj same
    obtain ⟨lines, onward⟩ := Text.append_unique _ (goOn _) (goOn _) starts startsToo tails
    exact ⟨congrArg₂ List.cons heads lines, onward⟩
  exact ⟨indent_injective _ _ blocks.1, blocks.2⟩

theorem childLines_injective
    (each : ∀ child ∈ elements, ∀ other ∈ others, child.treeLines = other.treeLines → child = other)
    (same : childLines elements = childLines others) : elements = others := by
  -- An only child starts with a corner and a first child with a branch.
  have notOnly (text textToo : String) : corner ++ text ≠ branch ++ textToo := by
    intro same
    replace same := congrArg String.toList same
    simp [branch, corner, connector] at same
  have some (child : Expression) (others : List Expression) :
      childLines (child :: others) ≠ [] := by
    cases others <;> simp [childLines, treeLines_eq child, indent]
  induction elements generalizing others with
  | nil =>
      cases others with
      | nil => rfl
      | cons other others => exact absurd same.symm (some other others)
  | cons child elements ih =>
      cases others with
      | nil => exact absurd same (some child elements)
      | cons other others =>
          have first := each child List.mem_cons_self other List.mem_cons_self
          cases elements with
          | nil =>
              cases others with
              | nil => rw [first (indent_injective _ _ same)]
              | cons next others =>
                  simp only [childLines, treeLines_eq, indent, List.cons_append] at same
                  exact absurd (List.cons.inj same).1 (notOnly _ _)
          | cons next elements =>
              cases others with
              | nil =>
                  simp only [childLines, treeLines_eq, indent, List.cons_append] at same
                  exact absurd (List.cons.inj same).1.symm (notOnly _ _)
              | cons nextToo others =>
                  obtain ⟨lines, onward⟩ :=
                    indent_trunk_unique childLines_starts childLines_starts same
                  rw [first lines, ih (fun child inside other insideToo =>
                    each child (List.mem_cons_of_mem _ inside) other
                      (List.mem_cons_of_mem _ insideToo)) onward]

theorem eq_of_treeLines_eq (spellable : first.Spellable) (spellableToo : second.Spellable)
    (same : first.treeLines = second.treeLines) : first = second := by
  induction first using induction_children generalizing second with
  | step first ih =>
      rw [treeLines_eq, treeLines_eq] at same
      obtain ⟨lines, below⟩ := List.cons.inj same
      obtain ⟨location, headers⟩ := nodeLine_unique lines
      have parts : first.children = second.children := by
        refine childLines_injective (fun child inside other insideToo => ?_) below
        exact ih child inside (spellable.child inside) (spellableToo.child insideToo)
      exact eq_of_header_eq spellable spellableToo location headers parts

theorem Spellable.node {node : Expression} {path : List Turn} (spellable : first.Spellable)
    (leads : first.Leads path node) : node.Spellable := by
  induction leads with
  | here => exact spellable
  | down found onward ih => exact ih (spellable.child (List.mem_of_getElem? found))

theorem lineFeed_not_mem_drawn (path : List Turn) : '\n' ∉ (drawn path).toList := by
  have pieces : ∀ piece ∈ [branch, trunk, corner, margin], '\n' ∉ piece.toList := by decide
  induction path with
  | nil => simp [drawn]
  | cons turn path ih =>
      cases path with
      | nil =>
          rw [drawn]
          split <;> exact pieces _ (by simp)
      | cons next path =>
          rw [drawn, String.toList_append, List.mem_append, not_or]
          refine ⟨?_, ih⟩
          split <;> exact pieces _ (by simp)

theorem lineFeed_not_mem_render (value : Float) :
    '\n' ∉ (Number.render .source value).toList := by
  obtain ⟨negative, text, written, rendered⟩ := Number.render_cases value
  have inside : '\n' ∉ text := by
    cases written with
    | finite bits numeral attracts =>
        exact fun member => numeral.plain.noSeparator _ member (by decide)
    | infinite => decide
    | undefined => decide
  rw [rendered]
  cases negative <;> simpa [Number.signed] using inside

theorem lineFeed_not_mem_header (spellable : first.Spellable) : '\n' ∉ first.header.toList := by
  cases first with
  | number location value => simp [header, lineFeed_not_mem_render]
  | string location text => simp [header, Text.not_mem_quote]
  | boolean location value => cases value <;> simp [header, Text.boolean]
  | reference location name =>
      have oneLine : '\n' ∉ name.toList :=
        fun member => spellable.reference.noSeparator _ member (by decide)
      simp [header, oneLine]
  | tuple location elements => simp [header]
  | lambda location names body =>
      have row : '\n' ∉ (", ".intercalate names).toList :=
        separator_not_mem_row (fun _ => spellable.parameter) (by decide) (by decide)
      simpa [header] using row
  | binary location operator left right => cases operator <;> simp [header, Operator.name]

theorem lineFeed_not_mem_treeLines (spellable : first.Spellable) :
    ∀ line ∈ first.treeLines, '\n' ∉ line.toList := by
  have digits (number : Nat) : '\n' ∉ Nat.toDigits 10 number :=
    Text.not_mem_digits (by decide) (by decide) (by decide)
  rw [treeLines_eq_walk]
  intro line member
  obtain ⟨⟨path, node⟩, visited, rfl⟩ := List.mem_map.mp member
  have leads := (mem_walk_iff_leads first path node).mp visited
  simp [Visit.line, nodeLine_toList, lineFeed_not_mem_drawn, digits,
    lineFeed_not_mem_header (spellable.node leads)]

/-- Two programs with the same tree form are the same, positions included. -/
theorem eq_of_tree_eq {source sourceToo : String} {program programToo : Expression}
    (parsed : ofSource source = .ok program) (parsedToo : ofSource sourceToo = .ok programToo)
    (same : program.tree = programToo.tree) : program = programToo := by
  have spellable := spellable_of_ofSource parsed
  have spellableToo := spellable_of_ofSource parsedToo
  have split {program : Expression} (spellable : program.Spellable) :
      program.tree.toList.splitOn '\n' = program.treeLines.map String.toList := by
    rw [tree, String.toList_intercalate]
    refine List.splitOn_intercalate '\n' ?_ (by simp [treeLines_eq])
    intro line member
    obtain ⟨text, listed, rfl⟩ := List.mem_map.mp member
    exact lineFeed_not_mem_treeLines spellable text listed
  have lines : program.treeLines.map String.toList = programToo.treeLines.map String.toList := by
    rw [← split spellable, ← split spellableToo, same]
  refine eq_of_treeLines_eq spellable spellableToo ?_
  exact (List.map_injective_iff.mpr fun _ _ => String.toList_inj.mp) lines

/-- A lambda with an escaped character in its body. -/
def escapedSource : String := "(a, b) => (\"\\x41\", a) -> c"

/-- The same with the character itself, and with blanks in place of the escape. -/
def paddedSource : String := "(a, b) => (\"A\"   , a) -> c--"

theorem eq_of_tree_eq_padded :
    ∃ program programToo, ofSource escapedSource = .ok program ∧
      ofSource paddedSource = .ok programToo ∧ program.tree = programToo.tree ∧
      program = programToo := by
  have escapedScanned : scan escapedSource =
      .ok ⟨[⟨⟨1, 1⟩, .leftParen⟩, ⟨⟨1, 2⟩, .identifier "a"⟩, ⟨⟨1, 3⟩, .comma⟩,
        ⟨⟨1, 5⟩, .identifier "b"⟩, ⟨⟨1, 6⟩, .rightParen⟩, ⟨⟨1, 8⟩, .arrow⟩, ⟨⟨1, 11⟩, .leftParen⟩,
        ⟨⟨1, 12⟩, .string "A"⟩, ⟨⟨1, 18⟩, .comma⟩, ⟨⟨1, 20⟩, .identifier "a"⟩,
        ⟨⟨1, 21⟩, .rightParen⟩, ⟨⟨1, 23⟩, .assign⟩, ⟨⟨1, 26⟩, .identifier "c"⟩], ⟨1, 27⟩⟩ := by
    cbv
  have paddedScanned : scan paddedSource =
      .ok ⟨[⟨⟨1, 1⟩, .leftParen⟩, ⟨⟨1, 2⟩, .identifier "a"⟩, ⟨⟨1, 3⟩, .comma⟩,
        ⟨⟨1, 5⟩, .identifier "b"⟩, ⟨⟨1, 6⟩, .rightParen⟩, ⟨⟨1, 8⟩, .arrow⟩, ⟨⟨1, 11⟩, .leftParen⟩,
        ⟨⟨1, 12⟩, .string "A"⟩, ⟨⟨1, 18⟩, .comma⟩, ⟨⟨1, 20⟩, .identifier "a"⟩,
        ⟨⟨1, 21⟩, .rightParen⟩, ⟨⟨1, 23⟩, .assign⟩, ⟨⟨1, 26⟩, .identifier "c"⟩], ⟨1, 29⟩⟩ := by
    cbv
  have escapedParsed : ofSource escapedSource =
      .ok (.lambda ⟨1, 1⟩ ["a", "b"] (.binary ⟨1, 23⟩ .assign
        (.tuple ⟨1, 11⟩ [.string ⟨1, 12⟩ "A", .reference ⟨1, 20⟩ "a"])
        (.reference ⟨1, 26⟩ "c"))) := by
    rw [ofSource, escapedScanned]
    rfl
  have paddedParsed : ofSource paddedSource =
      .ok (.lambda ⟨1, 1⟩ ["a", "b"] (.binary ⟨1, 23⟩ .assign
        (.tuple ⟨1, 11⟩ [.string ⟨1, 12⟩ "A", .reference ⟨1, 20⟩ "a"])
        (.reference ⟨1, 26⟩ "c"))) := by
    rw [ofSource, paddedScanned]
    rfl
  exact ⟨_, _, escapedParsed, paddedParsed, rfl, eq_of_tree_eq escapedParsed paddedParsed rfl⟩

end PipeLang.Expression
