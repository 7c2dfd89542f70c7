import PipeLang.Proofs.Relocation
import PipeLang.Proofs.Spacing
import PipeLang.Proofs.Vocabulary

namespace PipeLang.Expression

/-! # Reading a symbolic form back

The symbolic form of a program tells everything about it but the positions. An expression in it
ends by itself: a word does in front of the next blank or parenthesis, a string at its closing
mark, and a group at its closing parenthesis. Numbers have to be finite, since the text of
infinity is also a name.
-/

/-- No number in the expression is too large for a finite double. -/
def FiniteNumbers (expression : Expression) : Prop :=
  ∀ location value, .number location value ∈ expression.nodes → value.isFinite = true

/-- The expression can be told from its symbolic form. -/
structure Legible (expression : Expression) : Prop where
  spellable : expression.Spellable
  finite : expression.FiniteNumbers

variable {first second inner : Expression} {location : Location} {rest other : List Char}
  {elements others : List Expression}

theorem Legible.child (legible : first.Legible) (inside : inner ∈ first.children) :
    inner.Legible := by
  refine ⟨legible.spellable.child inside, fun location value member => ?_⟩
  refine legible.finite location value ?_
  rw [nodes_eq]
  exact List.mem_cons_of_mem _ (mem_nodesOfEach.mpr ⟨inner, inside, member⟩)

theorem Legible.isFinite {value : Float} (legible : (number location value).Legible) :
    value.isFinite = true :=
  legible.finite location value List.mem_cons_self

/-- The tag of the token that an expression consists of, if it is written as a word. -/
def wordTag? : Expression → Option Token.Tag
  | .number .. => some .number
  | .boolean .. => some .boolean
  | .reference .. => some .identifier
  | _ => none

/-- A text that stands for a token with the given tag wherever it is a word. -/
structure IsWord (tag : Token.Tag) (text : List Char) : Prop where
  plain : Token.Plain text
  nonempty : text ≠ []
  classified : ∃ kind, Token.classify text = .ok kind ∧ kind.tag = tag

theorem isWord_boolean (value : Bool) : IsWord .boolean (Text.boolean value).toList := by
  cases value <;>
    exact ⟨⟨by simp [Text.boolean], by decide⟩, by decide, .boolean _, rfl, rfl⟩

theorem isWord_symbolic {tag : Token.Tag} (legible : first.Legible)
    (word : first.wordTag? = some tag) : IsWord tag first.symbolic.toList := by
  cases first with
  | number location value =>
      cases word
      obtain ⟨decimal, numeral⟩ :=
        Number.numeral_render legible.isFinite legible.spellable.number
      obtain ⟨digit, more, starts, -⟩ := numeral.start
      exact ⟨numeral.plain, by simp [symbolic, starts], _, numeral.classify, rfl⟩
  | boolean location value =>
      cases word
      exact isWord_boolean value
  | reference location name =>
      cases word
      have valid := legible.spellable.reference
      exact ⟨valid.plain, valid.nonempty, _, valid.classify, rfl⟩
  | string | tuple | lambda | binary => cases word

/-- A word is a number, a truth value or a name, and never two of these. -/
theorem IsWord.tag_unique {tag tagToo : Token.Tag} {text : List Char} (word : IsWord tag text)
    (wordToo : IsWord tagToo text) : tag = tagToo := by
  obtain ⟨kind, classified, rfl⟩ := word.classified
  obtain ⟨kindToo, classifiedToo, rfl⟩ := wordToo.classified
  rw [classified] at classifiedToo
  cases classifiedToo
  rfl

theorem unlocated_eq_of_words {tag : Token.Tag} (word : first.wordTag? = some tag)
    (wordToo : second.wordTag? = some tag) (same : first.symbolic = second.symbolic) :
    first.unlocated = second.unlocated := by
  cases first with
  | number location value =>
      cases word
      cases second with
      | number locationToo valueToo =>
          obtain rfl := Number.render_injective same
          rfl
      | _ => cases wordToo
  | boolean location value =>
      cases word
      cases second with
      | boolean locationToo valueToo =>
          obtain rfl := Text.boolean_injective same
          rfl
      | _ => cases wordToo
  | reference location name =>
      cases word
      cases second with
      | reference locationToo nameToo =>
          obtain rfl : name = nameToo := same
          rfl
      | _ => cases wordToo
  | string | tuple | lambda | binary => cases word

/-- The character that an expression starts with if it is not a word. -/
def opening? : Expression → Option Char
  | .string .. => some '"'
  | .tuple .. => some '('
  | .lambda .. => some '('
  | .binary .. => some '('
  | _ => none

theorem symbolic_starts (legible : first.Legible) :
    ∃ start, first.symbolic.toList.head? = some start ∧
      first.opening? = if start ∈ Token.separators then some start else none := by
  cases word : first.wordTag? with
  | some tag =>
      have isWord := isWord_symbolic legible word
      obtain ⟨start, more, starts⟩ := List.exists_cons_of_ne_nil isWord.nonempty
      have inWord : start ∉ Token.separators := isWord.plain.noSeparator start (by simp [starts])
      refine ⟨start, by simp [starts], ?_⟩
      rw [if_neg inWord]
      cases first <;> first | rfl | cases word
  | none =>
      cases first with
      | string location text => exact ⟨'"', by simp [symbolic, Text.quote, Text.quoteWith], rfl⟩
      | tuple | lambda | binary => exact ⟨'(', by simp [symbolic], rfl⟩
      | _ => cases word

theorem opening?_unique (legible : first.Legible) (legibleToo : second.Legible)
    (same : first.symbolic.toList ++ rest = second.symbolic.toList ++ other) :
    first.opening? = second.opening? := by
  obtain ⟨start, starts, opening⟩ := symbolic_starts legible
  obtain ⟨startToo, startsToo, openingToo⟩ := symbolic_starts legibleToo
  have heads := congrArg List.head? same
  rw [List.head?_append, List.head?_append, starts, startsToo] at heads
  obtain rfl : start = startToo := by simpa using heads
  rw [opening, openingToo]

/-- An expression and what stands behind it can be told from their common text. -/
def EndsByItself (expression : Expression) : Prop :=
  ∀ (second : Expression) (rest other : List Char), second.Legible → Token.Ends rest →
    Token.Ends other → expression.symbolic.toList ++ rest = second.symbolic.toList ++ other →
    expression.unlocated = second.unlocated ∧ rest = other

theorem EndsByItself.before {mark : Char} (itself : first.EndsByItself)
    (separates : mark ∈ Token.separators) (legible : second.Legible)
    (same : first.symbolic.toList ++ mark :: rest = second.symbolic.toList ++ mark :: other) :
    first.unlocated = second.unlocated ∧ rest = other := by
  have ends (rest : List Char) : Token.Ends (mark :: rest) := by
    rintro found ⟨⟩
    exact separates
  obtain ⟨alike, onward⟩ := itself second _ _ legible (ends rest) (ends other) same
  exact ⟨alike, (List.cons.inj onward).2⟩

theorem word_endsByItself (legible : first.Legible) (word : first.opening? = none) :
    first.EndsByItself := by
  intro second rest other legibleToo ends endsToo same
  have wordToo : second.opening? = none := (opening?_unique legible legibleToo same).symm.trans word
  have tagged {expression : Expression} (word : expression.opening? = none) :
      ∃ tag, expression.wordTag? = some tag := by
    cases expression <;> first | exact ⟨_, rfl⟩ | cases word
  obtain ⟨tag, isTag⟩ := tagged word
  obtain ⟨tagToo, isTagToo⟩ := tagged wordToo
  have isWord := isWord_symbolic legible isTag
  have isWordToo := isWord_symbolic legibleToo isTagToo
  obtain ⟨texts, onward⟩ := Text.append_unique (· ∈ Token.separators)
    isWord.plain.noSeparator isWordToo.plain.noSeparator ends endsToo same
  rw [texts] at isWord
  obtain rfl := isWord.tag_unique isWordToo
  exact ⟨unlocated_eq_of_words isTag isTagToo (String.toList_inj.mp texts), onward⟩

theorem string_endsByItself {text : String} (legible : (string location text).Legible) :
    (string location text).EndsByItself := by
  intro second rest other legibleToo _ _ same
  have opening := opening?_unique legible legibleToo same
  cases second with
  | string locationToo textToo =>
      have quoted : Text.quoteWith Text.showsAlone text.toList ++ rest =
          Text.quoteWith Text.showsAlone textToo.toList ++ other := by
        simpa [symbolic, Text.quote] using same
      obtain ⟨texts, onward⟩ := Text.quoteWith_unique quoted
      obtain rfl := String.toList_inj.mp texts
      exact ⟨rfl, onward⟩
  | number | boolean | reference | tuple | lambda | binary => cases opening

/-- The first word in a group. It ends at a blank or at the closing parenthesis and tells the
group from groups of other sorts. -/
def groupWord : Expression → String
  | .tuple .. => "tuple"
  | .lambda .. => "lambda"
  | .binary _ operator _ _ => operator.symbol
  | _ => ""

/-- What stands behind the first word of a group, and then behind the group. -/
def behindWord (rest : List Char) : Expression → List Char
  | .tuple _ elements => (symbolicElements elements).toList ++ ')' :: rest
  | .lambda _ names body =>
      ' ' :: '(' :: ((" ".intercalate names).toList ++
        ')' :: ' ' :: (body.symbolic.toList ++ ')' :: rest))
  | .binary _ _ left right =>
      ' ' :: (left.symbolic.toList ++ ' ' :: (right.symbolic.toList ++ ')' :: rest))
  | _ => []

theorem group_symbolic (group : first.opening? = some '(') (rest : List Char) :
    first.symbolic.toList ++ rest = '(' :: (first.groupWord.toList ++ first.behindWord rest) := by
  cases first with
  | tuple | lambda | binary => simp [symbolic, groupWord, behindWord]
  | string => cases group
  | number | boolean | reference => cases group

theorem elements_ends (elements : List Expression) (rest : List Char) :
    Token.Ends ((symbolicElements elements).toList ++ ')' :: rest) := by
  cases elements <;> simp [symbolicElements, Token.Ends]

theorem group_unique (group : first.opening? = some '(') (legible : first.Legible)
    (legibleToo : second.Legible)
    (same : first.symbolic.toList ++ rest = second.symbolic.toList ++ other) :
    second.opening? = some '(' ∧ first.groupWord = second.groupWord ∧
      first.behindWord rest = second.behindWord other := by
  have groupToo : second.opening? = some '(' :=
    (opening?_unique legible legibleToo same).symm.trans group
  have apart (expression : Expression) :
      ∀ character ∈ expression.groupWord.toList, character ∉ Token.separators := by
    rcases expression with _ | _ | _ | _ | _ | _ | ⟨_, _ | _ | _, _, _⟩ <;>
      simp [groupWord, Operator.symbol]
  have ends {expression : Expression} (group : expression.opening? = some '(')
      (rest : List Char) : Token.Ends (expression.behindWord rest) := by
    cases expression with
    | tuple location elements => exact elements_ends elements rest
    | lambda | binary => simp [behindWord, Token.Ends]
    | string | number | boolean | reference => cases group
  rw [group_symbolic group, group_symbolic groupToo] at same
  obtain ⟨words, onward⟩ := Text.append_unique (· ∈ Token.separators) (apart first)
    (apart second) (ends group rest) (ends groupToo other) (List.cons.inj same).2
  exact ⟨groupToo, String.toList_inj.mp words, onward⟩

theorem elements_unique (each : ∀ element ∈ elements, element.EndsByItself)
    (legible : ∀ element ∈ others, element.Legible)
    (same : (symbolicElements elements).toList ++ ')' :: rest =
      (symbolicElements others).toList ++ ')' :: other) :
    elements.map unlocated = others.map unlocated ∧ rest = other := by
  induction elements generalizing others with
  | nil =>
      cases others with
      | nil => simpa [symbolicElements] using same
      | cons second others => simp [symbolicElements] at same
  | cons first elements ih =>
      cases others with
      | nil => simp [symbolicElements] at same
      | cons second others =>
          simp only [symbolicElements, String.toList_append, List.append_assoc,
            List.append_cancel_left_eq] at same
          rw [List.forall_mem_cons] at each legible
          obtain ⟨head, onward⟩ :=
            each.1 second _ _ legible.1 (elements_ends _ _) (elements_ends _ _) same
          obtain ⟨tail, rfl⟩ := ih each.2 legible.2 onward
          rw [List.map_cons, List.map_cons, head, tail]
          exact ⟨rfl, rfl⟩

theorem tuple_endsByItself (legible : (tuple location elements).Legible)
    (each : ∀ element ∈ elements, element.EndsByItself) :
    (tuple location elements).EndsByItself := by
  intro second rest other legibleToo _ _ same
  obtain ⟨group, words, onward⟩ := group_unique rfl legible legibleToo same
  cases second with
  | tuple locationToo elementsToo =>
      obtain ⟨parts, behind⟩ := elements_unique each (fun _ => legibleToo.child) onward
      refine ⟨?_, behind⟩
      rw [unlocated, unlocated, relocate, relocate, relocateEach_eq_map, relocateEach_eq_map]
      exact congrArg _ parts
  | lambda locationToo namesToo bodyToo => simp [groupWord] at words
  | binary locationToo operatorToo leftToo rightToo =>
      cases operatorToo <;> simp [groupWord, Operator.symbol] at words
  | string | number | boolean | reference => cases group

theorem lambda_endsByItself {names : List String} {body : Expression}
    (legible : (lambda location names body).Legible) (inner : body.EndsByItself) :
    (lambda location names body).EndsByItself := by
  intro second rest other legibleToo _ _ same
  obtain ⟨group, words, onward⟩ := group_unique rfl legible legibleToo same
  cases second with
  | tuple locationToo elementsToo => simp [groupWord] at words
  | lambda locationToo namesToo bodyToo =>
      have unclosed {location : Location} {names : List String} {body : Expression}
          (legible : (lambda location names body).Legible) :
          ')' ∉ (" ".intercalate names).toList :=
        separator_not_mem_row (fun _ => legible.spellable.parameter) (by decide) (by decide)
      obtain ⟨rows, bodies⟩ := Text.append_mark_unique (unclosed legible) (unclosed legibleToo)
        (List.cons.inj (List.cons.inj onward).2).2
      obtain rfl := names_unique rfl (by decide) (fun _ => legible.spellable.parameter)
        (fun _ => legibleToo.spellable.parameter) (String.toList_inj.mp rows)
      obtain ⟨alike, behind⟩ := inner.before (by decide)
        (legibleToo.child List.mem_cons_self) (List.cons.inj bodies).2
      exact ⟨congrArg (lambda .start names) alike, behind⟩
  | binary locationToo operatorToo leftToo rightToo =>
      cases operatorToo <;> simp [groupWord, Operator.symbol] at words
  | string | number | boolean | reference => cases group

theorem binary_endsByItself {operator : Operator} {left right : Expression}
    (legible : (binary location operator left right).Legible) (before : left.EndsByItself)
    (after : right.EndsByItself) : (binary location operator left right).EndsByItself := by
  intro second rest other legibleToo _ _ same
  obtain ⟨group, words, onward⟩ := group_unique rfl legible legibleToo same
  cases second with
  | tuple locationToo elementsToo => cases operator <;> simp [groupWord, Operator.symbol] at words
  | lambda locationToo namesToo bodyToo =>
      cases operator <;> simp [groupWord, Operator.symbol] at words
  | binary locationToo operatorToo leftToo rightToo =>
      have operators : operator = operatorToo := by
        cases operator <;> cases operatorToo <;>
          first | rfl | simp [groupWord, Operator.symbol] at words
      subst operators
      obtain ⟨lefts, behindLeft⟩ := before.before (by decide)
        (legibleToo.child (by simp [children])) (List.cons.inj onward).2
      obtain ⟨rights, behind⟩ := after.before (by decide)
        (legibleToo.child (by simp [children])) behindLeft
      exact ⟨congrArg₂ (binary .start operator) lefts rights, behind⟩
  | string | number | boolean | reference => cases group

theorem endsByItself (legible : first.Legible) : first.EndsByItself := by
  induction first using induction_children with
  | step first ih =>
      have inner : ∀ child ∈ first.children, child.EndsByItself :=
        fun child inside => ih child inside (legible.child inside)
      cases first with
      | number | boolean | reference => exact word_endsByItself legible rfl
      | string location text => exact string_endsByItself legible
      | tuple location elements => exact tuple_endsByItself legible inner
      | lambda location names body =>
          exact lambda_endsByItself legible (inner body List.mem_cons_self)
      | binary location operator left right =>
          exact binary_endsByItself legible (inner left (by simp [children]))
            (inner right (by simp [children]))

/-- Two programs with finite numbers and the same symbolic form differ in positions only. -/
theorem unlocated_eq_of_symbolic_eq {source sourceToo : String} {program programToo : Expression}
    (parsed : ofSource source = .ok program) (parsedToo : ofSource sourceToo = .ok programToo)
    (finite : program.FiniteNumbers) (finiteToo : programToo.FiniteNumbers)
    (same : program.symbolic = programToo.symbolic) :
    program.unlocated = programToo.unlocated := by
  have ended : Token.Ends [] := by simp [Token.Ends]
  have legible : program.Legible := ⟨spellable_of_ofSource parsed, finite⟩
  have legibleToo : programToo.Legible := ⟨spellable_of_ofSource parsedToo, finiteToo⟩
  exact (endsByItself legible programToo [] [] legibleToo ended ended (by rw [same])).1

/-- Variables that are named like parts of a symbolic form. -/
def lookalikeSource : String := "1.5 |> tuple |> |"

/-- The same on two lines, with the number spelled otherwise. -/
def respelledSource : String := "01.50 |>\n tuple|> |"

theorem unlocated_eq_of_symbolic_eq_respelled :
    ∃ program programToo, ofSource lookalikeSource = .ok program ∧
      ofSource respelledSource = .ok programToo ∧ program.FiniteNumbers ∧
      programToo.FiniteNumbers ∧ program.symbolic = programToo.symbolic ∧
      program.location ≠ programToo.location ∧ program.unlocated = programToo.unlocated := by
  have starting {text following : String} {decimal : Number.Decimal} {tokens : List Token}
      {stop : Location} (spelled : Number.Decimal.ofText? text.toList = some decimal)
      (ends : Token.Ends following.toList)
      (onward : scanFrom (Location.start.after text.toList) following.toList = .ok ⟨tokens, stop⟩) :
      scan (text ++ following) = .ok ⟨⟨.start, .number decimal.toFloat⟩ :: tokens, stop⟩ := by
    have read := @scanFrom_written .start text.toList following.toList _
      (.number (Token.numeral_of_ofText? spelled)) (.inr ends)
    rw [scan, String.toList_append, read, onward]
    rfl
  have scanned : scan lookalikeSource =
      .ok ⟨[⟨⟨1, 1⟩, .number (Number.Decimal.toFloat ⟨15, -1⟩)⟩, ⟨⟨1, 5⟩, .pipeline⟩,
        ⟨⟨1, 8⟩, .identifier "tuple"⟩, ⟨⟨1, 14⟩, .pipeline⟩, ⟨⟨1, 17⟩, .identifier "|"⟩],
        ⟨1, 18⟩⟩ :=
    @starting "1.5" " |> tuple |> |" _ _ _ (by decide) (by simp [Token.Ends]) (by cbv)
  have scannedToo : scan respelledSource =
      .ok ⟨[⟨⟨1, 1⟩, .number (Number.Decimal.toFloat ⟨150, -2⟩)⟩, ⟨⟨1, 7⟩, .pipeline⟩,
        ⟨⟨2, 2⟩, .identifier "tuple"⟩, ⟨⟨2, 7⟩, .pipeline⟩, ⟨⟨2, 10⟩, .identifier "|"⟩],
        ⟨2, 11⟩⟩ :=
    @starting "01.50" " |>\n tuple|> |" _ _ _ (by decide) (by simp [Token.Ends]) (by cbv)
  have parsed : ofSource lookalikeSource =
      .ok (.binary ⟨1, 14⟩ .pipeline
        (.binary ⟨1, 5⟩ .pipeline (.number ⟨1, 1⟩ (Number.Decimal.toFloat ⟨15, -1⟩))
          (.reference ⟨1, 8⟩ "tuple")) (.reference ⟨1, 17⟩ "|")) := by
    rw [ofSource, scanned]
    rfl
  have parsedToo : ofSource respelledSource =
      .ok (.binary ⟨2, 7⟩ .pipeline
        (.binary ⟨1, 7⟩ .pipeline (.number ⟨1, 1⟩ (Number.Decimal.toFloat ⟨150, -2⟩))
          (.reference ⟨2, 2⟩ "tuple")) (.reference ⟨2, 10⟩ "|")) := by
    rw [ofSource, scannedToo]
    rfl
  have value : Number.Decimal.toFloat ⟨150, -2⟩ = Number.Decimal.toFloat ⟨15, -1⟩ := by
    decide +kernel
  rw [value] at parsedToo
  have finite (outer inner number name last : Location) : FiniteNumbers
      (.binary outer .pipeline
        (.binary inner .pipeline (.number number (Number.Decimal.toFloat ⟨15, -1⟩))
          (.reference name "tuple")) (.reference last "|")) := by
    intro location value member
    obtain ⟨-, rfl⟩ : location = number ∧ value = Number.Decimal.toFloat ⟨15, -1⟩ := by
      simpa [nodes, nodesWith] using member
    decide +kernel
  exact ⟨_, _, parsed, parsedToo, finite _ _ _ _ _, finite _ _ _ _ _, rfl, by decide,
    unlocated_eq_of_symbolic_eq parsed parsedToo (finite _ _ _ _ _) (finite _ _ _ _ _) rfl⟩

end PipeLang.Expression
