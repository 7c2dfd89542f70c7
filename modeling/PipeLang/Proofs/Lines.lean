import PipeLang.Proofs.Cutting
import PipeLang.Proofs.Relocation

namespace PipeLang

/-! # Scanning line by line

A line feed ends every word and every comment, so a text that can be scanned and a line feed
behind it have no influence on how the next line is scanned, other than on its location. And
locations are only passed on: a text further down the page has the same tokens further down.
-/

namespace Token

theorem isPrefixOf_line {sign : List Char} (oneLine : '\n' ∉ sign) (text more : List Char) :
    sign.isPrefixOf (text ++ '\n' :: more) = sign.isPrefixOf text := by
  induction sign generalizing text with
  | nil => simp
  | cons character others ih =>
      rw [List.mem_cons, not_or] at oneLine
      cases text with
      | nil => simp [List.isPrefixOf, Ne.symm oneLine.1]
      | cons first rest =>
          simp only [List.cons_append, List.isPrefixOf]
          rw [ih oneLine.2]

theorem fixed?_line (text more : List Char) : fixed? (text ++ '\n' :: more) = fixed? text := by
  have oneLine : ∀ entry ∈ fixedSpellings, '\n' ∉ entry.1 := by decide
  exact List.find?_congr fun entry listed => isPrefixOf_line (oneLine entry listed) text more

theorem breaksWord_line (first : Char) (rest more : List Char) :
    breaksWord (first :: (rest ++ '\n' :: more)) = breaksWord (first :: rest) := by
  have oneLine : ∀ sign ∈ wordBreaks, sign = ['\n'] ∨ '\n' ∉ sign := by decide
  have each (sign : List Char) (listed : sign ∈ wordBreaks) :
      sign.isPrefixOf (first :: (rest ++ '\n' :: more)) = sign.isPrefixOf (first :: rest) := by
    rcases oneLine sign listed with rfl | oneLine
    · simp [List.isPrefixOf]
    · exact isPrefixOf_line oneLine (first :: rest) more
  rw [Bool.eq_iff_iff]
  simp only [breaksWord, List.isEmpty_cons, Bool.false_or, List.any_eq_true]
  exact exists_congr fun sign => and_congr_right fun listed => by rw [each sign listed]

theorem splitWord_line (text more : List Char) :
    splitWord (text ++ '\n' :: more) =
      ((splitWord text).1, (splitWord text).2 ++ '\n' :: more) := by
  induction text with
  | nil => rfl
  | cons character rest ih =>
      simp only [List.cons_append, splitWord, breaksWord_line]
      split
      · rfl
      · rw [ih]

theorem readString_append {opening here : Location} {text : List Char}
    {reading : Reading (List Char)} (read : readString opening here text = .ok reading)
    (more : List Char) :
    readString opening here (text ++ more) = .ok { reading with rest := reading.rest ++ more } := by
  have onward {code : Char} {place : Location} {rest : List Char} {reading : Reading (List Char)}
      (ih : ∀ {inner : Reading (List Char)}, readString opening place rest = .ok inner →
        readString opening place (rest ++ more) = .ok { inner with rest := inner.rest ++ more })
      (found : startingWith code (readString opening place rest) = .ok reading) :
      startingWith code (readString opening place (rest ++ more)) =
        .ok { reading with rest := reading.rest ++ more } := by
    obtain ⟨inner, read, rfl⟩ := startingWith_eq_ok found
    rw [ih read, startingWith]
  induction here, text using readString_induction generalizing reading with
  | nil => cases read
  | quote here rest =>
      rw [readString_quote] at read
      cases read
      exact readString_quote
  | coded here high low rest code found ih =>
      rw [readString_coded found] at read
      exact (readString_coded found).trans (onward ih read)
  | named here letter rest code notCoded found ih =>
      rw [readString_named notCoded found] at read
      exact (readString_named notCoded found).trans (onward ih read)
  | plain here character rest notQuote notBackslash ih =>
      rw [readString_plain notQuote notBackslash] at read
      exact (readString_plain notQuote notBackslash).trans (onward ih read)
  | broken here rest cause broken =>
      rw [readString_broken broken] at read
      cases read

theorem skipComment_line (here : Location) (text more : List Char) :
    skipComment here (text ++ '\n' :: more) =
        { skipComment here text with rest := (skipComment here text).rest ++ '\n' :: more } ∨
      (skipComment here text).content = none ∧ (skipComment here text).rest = [] ∧
        skipComment here (text ++ '\n' :: more) =
          ⟨none, (skipComment here text).location.next '\n', more⟩ := by
  induction text generalizing here with
  | nil => exact .inr ⟨rfl, rfl, rfl⟩
  | cons character rest ih =>
      simp only [List.cons_append, skipComment]
      split
      · exact .inl rfl
      · exact ih (here.next character)

/-- What is in front of a text is not changed by a line feed at its end, unless it is a comment
that the line feed ends. -/
theorem readFront_line {here : Location} {first : Char} {rest : List Char}
    {reading : Reading (Option Token)} (read : readFront here first rest = .ok reading)
    (more : List Char) :
    readFront here first (rest ++ '\n' :: more) =
        .ok { reading with rest := reading.rest ++ '\n' :: more } ∨
      reading.content = none ∧ reading.rest = [] ∧
        readFront here first (rest ++ '\n' :: more) =
          .ok ⟨none, reading.location.next '\n', more⟩ := by
  have dashes : ['-', '-'].isPrefixOf (first :: (rest ++ '\n' :: more)) =
      ['-', '-'].isPrefixOf (first :: rest) := isPrefixOf_line (by decide) (first :: rest) more
  have spelled : fixed? (first :: (rest ++ '\n' :: more)) = fixed? (first :: rest) :=
    fixed?_line (first :: rest) more
  cases readFront_cases read with
  | space space => exact .inl (FrontCase.space space).readFront_eq
  | comment notSpace comment =>
      have front : readFront here first (rest ++ '\n' :: more) =
          .ok (skipComment (here.next first) (rest ++ '\n' :: more)) :=
        (FrontCase.comment notSpace (dashes.trans comment)).readFront_eq
      rcases skipComment_line (here.next first) rest more with skipped | ⟨empty, ended, skipped⟩
      · exact .inl (front.trans (congrArg _ skipped))
      · exact .inr ⟨empty, ended, front.trans (congrArg _ skipped)⟩
  | string quote found =>
      exact .inl (FrontCase.string quote (readString_append found ('\n' :: more))).readFront_eq
  | @fixed spelling kind notSpace notComment notQuote found =>
      have starts : spelling.isPrefixOf (first :: rest) = true := by
        simpa using List.find?_some found
      have fits := (List.isPrefixOf_iff_prefix.mp starts).length_le
      have front : FrontCase here first (rest ++ '\n' :: more) _ :=
        .fixed notSpace (dashes ▸ notComment) notQuote (spelled.trans found)
      rw [front.readFront_eq, ← List.cons_append, List.drop_append_of_le_length fits]
      exact .inl rfl
  | word notSpace notComment notQuote notFixed classified =>
      have cut := splitWord_line rest more
      have front : FrontCase here first (rest ++ '\n' :: more) _ :=
        .word notSpace (dashes ▸ notComment) notQuote (spelled.trans notFixed)
          (by rw [cut]; exact classified)
      rw [front.readFront_eq, cut]
      exact .inl rfl

end Token

/-- Puts tokens in front of those of a text that follows. -/
def Scanned.following (tokens : List Token) (scanned : Scanned) : Scanned :=
  ⟨tokens ++ scanned.tokens, scanned.stop⟩

theorem scanFrom_line {here : Location} {text : List Char} {scanned : Scanned}
    (succeeded : scanFrom here text = .ok scanned) (more : List Char) :
    scanFrom here (text ++ '\n' :: more) =
      (scanFrom (scanned.stop.next '\n') more).map (Scanned.following scanned.tokens) := by
  fun_induction scanFrom here text generalizing scanned with
  | case1 here =>
      cases succeeded
      have blank : Token.readFront here '\n' more = .ok ⟨none, here.next '\n', more⟩ := rfl
      exact scanFrom_of_readFront_ok blank
  | case2 => cases succeeded
  | case3 here first rest reading front _ ih =>
      cases inner : scanFrom reading.location reading.rest with
      | error failure => simp [inner, Except.map] at succeeded
      | ok others =>
          simp only [inner, Except.map, Except.ok.injEq] at succeeded
          subst succeeded
          rcases Token.readFront_line front more with extended | ⟨empty, ended, passed⟩
          · have stops : (Scanned.behind reading others).stop = others.stop := rfl
            rw [List.cons_append, scanFrom_of_readFront_ok extended, ih inner, stops]
            cases scanFrom (others.stop.next '\n') more with
            | error failure => rfl
            | ok last => simp [Except.map, Scanned.behind, Scanned.following]
          · -- The line feed belongs to the comment, which ends the first text without it.
            rw [ended, scanFrom_nil] at inner
            cases inner
            rw [List.cons_append, scanFrom_of_readFront_ok passed]
            simp only [Scanned.behind, empty]
            rfl

/-- Moves the location of a failure, or whatever locations a result has. -/
def Located.relocateResult {Cause Result : Type} (move : Location → Location)
    (change : Result → Result) : Except (Located Cause) Result → Except (Located Cause) Result
  | .ok result => .ok (change result)
  | .error failure => .error (failure.relocate move)

def Reading.relocate {Content : Type} (move : Location → Location) (change : Content → Content)
    (reading : Reading Content) : Reading Content :=
  ⟨change reading.content, move reading.location, reading.rest⟩

def Scanned.relocate (move : Location → Location) (scanned : Scanned) : Scanned :=
  ⟨scanned.tokens.map (Token.relocate move), move scanned.stop⟩

section Moving

variable {move : Location → Location}

theorem Location.after_relocate
    (follows : ∀ here character, (move here).next character = move (here.next character))
    (here : Location) (text : List Char) : (move here).after text = move (here.after text) := by
  induction text generalizing here with
  | nil => rfl
  | cons character rest ih => rw [after_cons, after_cons, follows, ih]

namespace Token

theorem startingWith_relocate (code : Char) (outcome : Except ScanError (Reading (List Char))) :
    startingWith code (Located.relocateResult move (Reading.relocate move id) outcome) =
      Located.relocateResult move (Reading.relocate move id) (startingWith code outcome) := by
  cases outcome <;> rfl

variable (follows : ∀ here character, (move here).next character = move (here.next character))
include follows

theorem readString_relocate (opening here : Location) (text : List Char) :
    readString (move opening) (move here) text =
      Located.relocateResult move (Reading.relocate move id) (readString opening here text) := by
  induction here, text using readString_induction with
  | nil => rfl
  | quote here rest =>
      rw [readString_quote, readString_quote, follows]
      rfl
  | coded here high low rest code found ih =>
      rw [readString_coded found, readString_coded found, Location.after_relocate follows, ih,
        startingWith_relocate]
  | named here letter rest code notCoded found ih =>
      rw [readString_named notCoded found, readString_named notCoded found,
        Location.after_relocate follows, ih, startingWith_relocate]
  | plain here character rest notQuote notBackslash ih =>
      rw [readString_plain notQuote notBackslash, readString_plain notQuote notBackslash, follows,
        ih, startingWith_relocate]
  | broken here rest cause broken =>
      rw [readString_broken broken, readString_broken broken]
      rfl

theorem skipComment_relocate (here : Location) (text : List Char) :
    skipComment (move here) text =
      (skipComment here text).relocate move (Option.map (Token.relocate move)) := by
  induction text generalizing here with
  | nil => rfl
  | cons character rest ih =>
      simp only [skipComment, follows, ih]
      split <;> rfl

theorem readFront_relocate (here : Location) (first : Char) (rest : List Char) :
    readFront (move here) first rest =
      Located.relocateResult move (Reading.relocate move (Option.map (Token.relocate move)))
        (readFront here first rest) := by
  unfold readFront
  split
  next =>
    rw [follows]
    rfl
  next =>
    split
    next =>
      rw [follows, skipComment_relocate follows]
      rfl
    next =>
      split
      next =>
        rw [follows, readString_relocate follows]
        cases readString here (here.next first) rest <;> rfl
      next =>
        split
        next spelling kind _ =>
          rw [Location.after_relocate follows]
          rfl
        next =>
          dsimp only
          rw [Location.after_relocate follows]
          cases classify (first :: (splitWord rest).1) <;> rfl

end Token

theorem scanFrom_relocate
    (follows : ∀ here character, (move here).next character = move (here.next character))
    (here : Location) (text : List Char) :
    scanFrom (move here) text =
      Located.relocateResult move (Scanned.relocate move) (scanFrom here text) := by
  fun_induction scanFrom here text with
  | case1 here => rw [scanFrom_nil]; rfl
  | case2 here first rest failure front =>
      have moved := Token.readFront_relocate follows here first rest
      rw [front] at moved
      exact scanFrom_of_readFront_error moved
  | case3 here first rest reading front _ ih =>
      have moved := Token.readFront_relocate follows here first rest
      rw [front] at moved
      rw [scanFrom_of_readFront_ok moved]
      refine (congrArg _ ih).trans ?_
      cases scanFrom reading.location reading.rest with
      | error failure => rfl
      | ok others =>
          cases content : reading.content <;>
            simp [Located.relocateResult, Except.map, Scanned.behind, Scanned.relocate,
              Reading.relocate, content]

end Moving

/-- The location so many lines further down. -/
def Location.below (lines : Nat) (location : Location) : Location :=
  ⟨location.line + lines, location.column⟩

theorem Location.below_next (lines : Nat) (location : Location) (character : Char) :
    (location.below lines).next character = (location.next character).below lines := by
  unfold next
  split
  · simp only [below]
    congr 1
    omega
  · rfl

theorem Location.past_next_feed (text : List Char) :
    (past text).next '\n' = start.below (1 + text.count '\n') := by
  simp only [past, next, below, start, if_true]
  congr 1
  omega

theorem scanFrom_below (lines : Nat) (text : List Char) :
    scanFrom (Location.start.below lines) text =
      Located.relocateResult (.below lines) (Scanned.relocate (.below lines))
        (scanFrom .start text) :=
  scanFrom_relocate (Location.below_next lines) .start text

/-- A source that can be scanned and a line feed leave it to the source behind them whether the
whole can be scanned. That source has the same tokens as on its own, or the same error, as many
lines further down as there are line feeds before it. -/
theorem scan_distributes_over_lines {first : String} {before : Scanned}
    (scanned : scan first = .ok before) (second : String) :
    scan (first ++ "\n" ++ second) =
      match scan second with
      | .ok after =>
          .ok ⟨before.tokens ++
              after.tokens.map (Token.relocate (.below (1 + first.toList.count '\n'))),
            after.stop.below (1 + first.toList.count '\n')⟩
      | .error failure => .error (failure.relocate (.below (1 + first.toList.count '\n'))) := by
  have characters : (first ++ "\n" ++ second).toList = first.toList ++ '\n' :: second.toList := by
    simp
  have origin : Location.start = .past [] := rfl
  have stop : before.stop = .past first.toList := (scanFrom_cut origin scanned).2
  unfold scan
  rw [characters, scanFrom_line scanned, stop, Location.past_next_feed, scanFrom_below]
  cases scanFrom .start second.toList <;> rfl

/-- The first source ends in what could begin an operator, and in a comment. -/
theorem scan_distributes_over_lines_seams :
    scan ("(x -- y\n=" ++ "\n" ++ "> \"\\n\"") =
      .ok ⟨[⟨⟨1, 1⟩, .leftParen⟩, ⟨⟨1, 2⟩, .identifier "x"⟩, ⟨⟨2, 1⟩, .identifier "="⟩,
        ⟨⟨3, 1⟩, .identifier ">"⟩, ⟨⟨3, 3⟩, .string "\n"⟩], ⟨3, 7⟩⟩ ∧
    scan ("x\n-- y" ++ "\n" ++ "\n \"\\q") = .error ⟨⟨4, 3⟩, .unknownEscape 'q'⟩ := by
  have first : scan "(x -- y\n=" = .ok ⟨[⟨⟨1, 1⟩, .leftParen⟩, ⟨⟨1, 2⟩, .identifier "x"⟩,
      ⟨⟨2, 1⟩, .identifier "="⟩], ⟨2, 2⟩⟩ := by
    cbv
  have second : scan "> \"\\n\"" =
      .ok ⟨[⟨⟨1, 1⟩, .identifier ">"⟩, ⟨⟨1, 3⟩, .string "\n"⟩], ⟨1, 7⟩⟩ := by
    cbv
  have third : scan "x\n-- y" = .ok ⟨[⟨⟨1, 1⟩, .identifier "x"⟩], ⟨2, 5⟩⟩ := by cbv
  have broken : scan "\n \"\\q" = .error ⟨⟨2, 3⟩, .unknownEscape 'q'⟩ := by cbv
  constructor
  · rw [scan_distributes_over_lines first, second]
    rfl
  · rw [scan_distributes_over_lines third, broken]
    rfl

end PipeLang
