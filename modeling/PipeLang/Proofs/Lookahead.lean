import PipeLang.Proofs.Cursor

namespace PipeLang.Stream

/-! # Looking ahead

A place is counted from the cursor on, in 64 bits. As long as the sum of the two fits, looking
ahead agrees with the tokens that remain. A sum that does not fit starts again from zero, so the
answer is then a token that has been consumed. A search that goes on place by place, like that for
the arrow behind a parameter list, ends before that.
-/

variable {stream : Stream} {token : Token} {rest : List Token}

/-- A place that can be counted is looked up among the remaining tokens. From there on places are
counted from the first token again. -/
theorem peekNth?_eq (inside : stream.Inside) (fits : stream.Fits) (count : UInt64) :
    stream.peekNth? count =
      if count = 0 then none
      else if stream.cursor + (count.toNat - 1) < UInt64.size then
        stream.remaining[count.toNat - 1]?
      else stream.tokens[stream.cursor + (count.toNat - 1) - UInt64.size]? := by
  by_cases zero : count = 0
  · simp [peekNth?, zero]
  · have positive : 1 ≤ count.toNat :=
      Nat.one_le_iff_ne_zero.mpr fun isZero => zero (UInt64.toNat_inj.mp isZero)
    have before : (count - 1).toNat = count.toNat - 1 :=
      UInt64.toNat_sub_of_le _ _ (UInt64.le_iff_toNat_le.mpr positive)
    have cursor : (UInt64.ofNat stream.cursor).toNat = stream.cursor :=
      UInt64.toNat_ofNat_of_lt' (Nat.lt_of_le_of_lt inside fits)
    have small := count.toNat_lt_size
    rw [peekNth?, if_neg zero, if_neg zero, UInt64.toNat_add, before, cursor]
    split
    next counted => rw [Nat.mod_eq_of_lt counted, remaining, List.getElem?_drop]
    next wrapped =>
      have cursorSmall : stream.cursor < UInt64.size := Nat.lt_of_le_of_lt inside fits
      have restarted : (stream.cursor + (count.toNat - 1)) % UInt64.size =
          stream.cursor + (count.toNat - 1) - UInt64.size := by
        rw [Nat.mod_eq_sub_mod (Nat.not_lt.mp wrapped), Nat.mod_eq_of_lt (by omega)]
      exact congrArg (stream.tokens[·]?) restarted

/-- The place behind some of the remaining tokens. -/
theorem peekNth?_behind (inside : stream.Inside) (fits : stream.Fits) {passed : Nat}
    (within : passed ≤ stream.remaining.length) :
    stream.peekNth? (UInt64.ofNat (passed + 1)) = stream.remaining[passed]? := by
  rw [length_remaining] at within
  rw [Inside] at inside
  rw [Fits] at fits
  by_cases counted : passed + 1 < UInt64.size
  · have place : (UInt64.ofNat (passed + 1)).toNat = passed + 1 := UInt64.toNat_ofNat_of_lt' counted
    have nonzero : UInt64.ofNat (passed + 1) ≠ 0 := fun zero =>
      Nat.succ_ne_zero passed (place.symm.trans (congrArg UInt64.toNat zero))
    rw [peekNth?_eq inside fits, if_neg nonzero, place, Nat.add_sub_cancel, if_pos (by omega)]
  · -- the stream is as long as a stream can be, and all of it has been passed
    have all : passed + 1 = UInt64.size := by omega
    have none : stream.remaining.length ≤ passed := by
      rw [length_remaining]
      omega
    rw [all, List.getElem?_eq_none none]
    rfl

theorem peekNth?_one (inside : stream.Inside) (fits : stream.Fits) :
    stream.peekNth? 1 = stream.remaining.head? := by
  rw [List.head?_eq_getElem?]
  exact peekNth?_behind inside fits (Nat.zero_le _)

theorem peek_of_nil (inside : stream.Inside) (fits : stream.Fits) (ahead : stream.remaining = []) :
    stream.peek = .error ⟨stream.stop, .unexpectedEnd⟩ := by
  simp [peek, peekNth?_one inside fits, ahead]

theorem peek_of_cons (inside : stream.Inside) (fits : stream.Fits)
    (ahead : stream.remaining = token :: rest) : stream.peek = .ok token := by
  simp [peek, peekNth?_one inside fits, ahead]

/-- The token a number of places ahead among those that remain. -/
def ahead? (stream : Stream) (count : UInt64) : Option Token :=
  if count = 0 then none else stream.remaining[count.toNat - 1]?

theorem peekNth?_of_counted (inside : stream.Inside) (fits : stream.Fits) {count : UInt64}
    (counted : stream.cursor + (count.toNat - 1) < UInt64.size) :
    stream.peekNth? count = stream.ahead? count := by
  rw [peekNth?_eq inside fits, if_pos counted, ahead?]

theorem peekNth?_of_wrapped (inside : stream.Inside) (fits : stream.Fits) {count : UInt64}
    (wrapped : UInt64.size ≤ stream.cursor + (count.toNat - 1)) :
    let index := stream.cursor + (count.toNat - 1) - UInt64.size
    stream.ahead? count = none ∧ index < stream.cursor ∧
      ∃ token, stream.tokens[index]? = some token ∧ stream.peekNth? count = some token := by
  intro index
  have cursorSmall : stream.cursor < UInt64.size := Nat.lt_of_le_of_lt inside fits
  have small := count.toNat_lt_size
  have nonzero : count ≠ 0 := fun zero => by
    have none : count.toNat = 0 := congrArg UInt64.toNat zero
    omega
  have consumed : index < stream.cursor := by omega
  have there : index < stream.tokens.length := Nat.lt_of_lt_of_le consumed inside
  have beyond : stream.remaining.length ≤ count.toNat - 1 := by
    rw [length_remaining]
    rw [Fits] at fits
    omega
  refine ⟨?_, consumed, stream.tokens[index], List.getElem?_eq_getElem there, ?_⟩
  · rw [ahead?, if_neg nonzero, List.getElem?_eq_none beyond]
  · rw [peekNth?_eq inside fits, if_neg nonzero, if_neg (Nat.not_lt.mpr wrapped)]
    exact List.getElem?_eq_getElem there

/-- Looking ahead agrees with the tokens that remain if and only if the sum of the cursor and the
place fits. Otherwise nothing remains at that place, and the answer is a consumed token. -/
theorem lookahead_exact_iff (tokens : List Token) (stop : Location) (moves : List Move)
    (count : UInt64) (fits : tokens.length < UInt64.size) :
    let stream := moves.foldl move (ofTokens tokens stop)
    let index := stream.cursor + (count.toNat - 1)
    (stream.peekNth? count = stream.ahead? count ↔ index < UInt64.size) ∧
      (UInt64.size ≤ index →
        stream.ahead? count = none ∧ index - UInt64.size < stream.cursor ∧
          ∃ token, tokens[index - UInt64.size]? = some token ∧
            stream.peekNth? count = some token) := by
  intro stream index
  have onward : (ofTokens tokens stop).Onward stream :=
    moves_onward (ofTokens_inside tokens stop) moves
  have wrapped (large : UInt64.size ≤ index) :=
    peekNth?_of_wrapped onward.inside (onward.fits fits) large
  rw [onward.tokens] at wrapped
  refine ⟨⟨fun exact => Nat.lt_of_not_le fun large => ?_, ?_⟩, wrapped⟩
  · obtain ⟨none, _, token, _, some⟩ := wrapped large
    rw [exact, none] at some
    cases some
  · exact peekNth?_of_counted onward.inside (onward.fits fits)

theorem lookahead_exact_behind_first :
    let tokens : List Token := [⟨⟨1, 1⟩, .identifier "a"⟩, ⟨⟨1, 3⟩, .identifier "b"⟩]
    let stream := [Move.advance].foldl move (ofTokens tokens ⟨1, 4⟩)
    tokens.length < UInt64.size ∧ stream.peekNth? 1 = stream.ahead? 1 := by
  intro tokens stream
  have fits : tokens.length < UInt64.size := by decide
  exact ⟨fits, (lookahead_exact_iff tokens ⟨1, 4⟩ [.advance] 1 fits).1.mpr (by decide)⟩

/-- With all of two tokens consumed, the first one is seen again. -/
theorem lookahead_wraps :
    let tokens : List Token := [⟨⟨1, 1⟩, .identifier "a"⟩, ⟨⟨1, 3⟩, .identifier "b"⟩]
    let stream := [Move.advance, .advance].foldl move (ofTokens tokens ⟨1, 4⟩)
    stream.remaining = [] ∧ stream.ahead? 18446744073709551615 = none ∧
      stream.peekNth? 18446744073709551615 = some ⟨⟨1, 1⟩, .identifier "a"⟩ :=
  ⟨rfl, rfl, rfl⟩

theorem places_decrease {place : UInt64} (seen : stream.peekNth? place = some token) :
    (0 - (place + 1)).toNat < (0 - place).toNat := by
  have positive : place.toNat ≠ 0 := fun zero => by
    have start : place = 0 := UInt64.toNat_inj.mp zero
    simp [start, peekNth?] at seen
  have small := place.toNat_lt
  simp only [UInt64.toNat_sub, UInt64.toNat_add, UInt64.toNat_zero, UInt64.toNat_one]
  omega

/-- Searches for the parenthesis that closes the group in which `depth` parentheses are open, and
tells whether an arrow stands one place further. -/
def arrowAhead (stream : Stream) (depth : Nat) (place : UInt64) : Bool :=
  match _ : stream.peekNth? place with
  | none => false
  | some token =>
      match token.kind with
      | .leftParen => stream.arrowAhead (depth + 1) (place + 1)
      | .rightParen =>
          if depth ≤ 1 then (stream.peekNth? (place + 1)).any (·.kind == .arrow)
          else stream.arrowAhead (depth - 1) (place + 1)
      | _ => stream.arrowAhead depth (place + 1)
termination_by (0 - place).toNat
decreasing_by all_goals exact places_decrease ‹_›

theorem arrowAhead_behind (inside : stream.Inside) (fits : stream.Fits) (depth passed : Nat)
    (within : passed ≤ stream.remaining.length) :
    stream.arrowAhead depth (UInt64.ofNat (passed + 1)) =
      Expression.arrowFollows depth (stream.remaining.drop passed) := by
  generalize ahead : stream.remaining.drop passed = rest
  induction rest generalizing depth passed with
  | nil =>
      have none : stream.peekNth? (UInt64.ofNat (passed + 1)) = none := by
        rw [peekNth?_behind inside fits within, ← List.head?_drop, ahead]
        rfl
      rw [arrowAhead]
      split
      next => rfl
      next seen => rw [none] at seen; cases seen
  | cons token rest ih =>
      have more : passed + 1 ≤ stream.remaining.length := by
        have length := congrArg List.length ahead
        rw [List.length_drop, List.length_cons] at length
        omega
      have behind : stream.remaining.drop (passed + 1) = rest := by
        rw [← List.tail_drop, ahead]
        rfl
      have here : stream.peekNth? (UInt64.ofNat (passed + 1)) = some token := by
        rw [peekNth?_behind inside fits within, ← List.head?_drop, ahead]
        rfl
      have place : UInt64.ofNat (passed + 1) + 1 = UInt64.ofNat (passed + 1 + 1) :=
        (UInt64.ofNat_add _ _).symm
      have next : stream.peekNth? (UInt64.ofNat (passed + 1) + 1) = rest.head? := by
        rw [place, peekNth?_behind inside fits more, ← behind, List.head?_drop]
      have onward (depth : Nat) :
          stream.arrowAhead depth (UInt64.ofNat (passed + 1) + 1) =
            Expression.arrowFollows depth rest := by
        rw [place]
        exact ih depth (passed + 1) more behind
      rw [arrowAhead, Expression.arrowFollows]
      split
      next seen => rw [here] at seen; cases seen
      next found seen =>
        cases here.symm.trans seen
        cases token.kind <;> simp only [onward, next]

theorem arrowAhead_one (inside : stream.Inside) (fits : stream.Fits) :
    stream.arrowAhead 0 1 = Expression.arrowFollows 0 stream.remaining :=
  arrowAhead_behind inside fits 0 0 (Nat.zero_le _)

end PipeLang.Stream
