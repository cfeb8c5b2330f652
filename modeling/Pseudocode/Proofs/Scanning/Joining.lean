import Pseudocode.Proofs.Scanning.Tiling

/-!
# Programs with a line end between them

The scanner starts anew behind a line end: a program of two parts with a line end between them has
the tokens of the first part, the line end and the tokens of the second part.  The tokens of the
second part are only moved down; their columns stay.  The first part must leave nothing open, or its
last text or comment would reach into the second.
-/

namespace Pseudocode

/-! ## Moving down -/

/-- A move to another source, by so many characters and so many lines. -/
structure Shift where
  /-- The source that is moved to. -/
  source : Source
  /-- The number of characters in front of what is moved. -/
  characters : Nat
  /-- The number of lines above it. -/
  lines : Nat

/-- The place that a place is moved to.  The column stays. -/
def Position.shift (move : Shift) (p : Position) : Position :=
  ⟨p.index + move.characters, p.line + move.lines, p.column, move.source⟩

/-- The token that a token is moved to. -/
def Token.shift (move : Shift) (token : Token) : Token :=
  ⟨token.lexeme, ⟨token.span.start.shift move, token.span.stop.shift move⟩⟩

/-- The same place in another source. -/
def Shift.within (source : Source) : Shift := ⟨source, 0, 0⟩

/-- The move below a first part and the line end behind it. -/
def Shift.below (first : String) (source : Source) : Shift :=
  ⟨source, first.length + 1, first.toList.count '\n' + 1⟩

namespace Position

theorem shift_bump (move : Shift) (p : Position) : (p.shift move).bump = p.bump.shift move := by
  simp only [shift, bump, Nat.add_right_comm]

theorem shift_advance (move : Shift) (p : Position) (c : Char) :
    (p.shift move).advance c = (p.advance c).shift move := by
  unfold advance
  split
  · simp only [shift, Nat.add_right_comm]
  · exact shift_bump move p

theorem shift_advanceAll (move : Shift) (p : Position) (chars : List Char) :
    (p.shift move).advanceAll chars = (p.advanceAll chars).shift move := by
  induction chars generalizing p with
  | nil => rfl
  | cons c cs ih => rw [advanceAll_cons, shift_advance, ih, advanceAll_cons]

theorem source_advance (p : Position) (c : Char) : (p.advance c).source = p.source := by
  unfold advance
  split <;> rfl

theorem source_advanceAll (p : Position) (chars : List Char) :
    (p.advanceAll chars).source = p.source := by
  induction chars generalizing p with
  | nil => rfl
  | cons c cs ih => rw [advanceAll_cons, ih, source_advance]

/-- Behind a first part and its line end a program goes on as the second part starts, moved down. -/
theorem behind_lineEnd (source own : Source) (first : String) :
    (behind source first.toList).advance '\n' = (start own).shift (.below first source) := by
  have line := (agrees_end source first.toList).line
  have index := index_behind source first.toList
  have kept : (behind source first.toList).source = source := source_advanceAll _ _
  rw [index, List.take_length] at line
  rw [String.length_toList] at index
  simp only [advance, if_true, index, line, kept, start, shift, Shift.below, Nat.zero_add]

end Position

/-! ## Tokens that are moved -/

namespace Scanner

theorem Piece.token?_shift (move : Shift) (piece : Piece) (p : Position) :
    piece.token? (p.shift move) = (piece.token? p).map (Token.shift move) := by
  cases found : piece.lexeme? with
  | none => simp [Piece.token?, found]
  | some lexeme =>
      simp only [Piece.token?, found, Option.map_some, Token.shift, Position.shift_bump,
        Position.shift_advanceAll]
      split <;> rfl

theorem placed_shift (move : Shift) (pieces : List Piece) (p : Position) :
    placed (p.shift move) pieces = (placed p pieces).map (Token.shift move) := by
  induction pieces generalizing p with
  | nil => rfl
  | cons piece pieces ih =>
      rw [placed, placed, Piece.token?_shift, Position.shift_advanceAll, ih,
        List.map_append, Option.toList_map]

theorem single_shift (move : Shift) (lexeme : Lexeme) (p : Position) :
    Token.single lexeme (p.shift move) = (Token.single lexeme p).shift move := by
  rw [Token.single, Token.single, Token.shift, Position.shift_bump]

/-- What the scanner reads moves along with the place where it starts. -/
theorem tokensWithin_shift {chars : List Char} (closed : CommentsClosed chars) (move : Shift)
    {fuel fuel' : Nat} (enough : chars.length ≤ fuel) (enough' : chars.length ≤ fuel')
    {p : Position} {tokens : List Token} (scanned : tokensWithin fuel ⟨chars, p⟩ = .ok tokens) :
    tokensWithin fuel' ⟨chars, p.shift move⟩ = .ok (tokens.map (Token.shift move)) := by
  obtain settled | ⟨before, body, rfl, settled, stays⟩ := settled_or_staysOpen closed
  · obtain ⟨pieces, lexes⟩ := exists_lexes settled enough scanned
    obtain rfl := Except.ok.inj (scanned.symm.trans (lexes.tokensWithin enough p))
    rw [lexes.tokensWithin enough', place, place, placed_shift, Position.shift_advanceAll,
      single_shift, List.map_append]
    rfl
  · have anew : Stops joins ('"' :: body) := stops_cons rfl body
    obtain ⟨pieces, lexes⟩ | ⟨cause, fails⟩ := lexes_or_fails settled
    · obtain ⟨content, reads⟩ := tokensWithin_of_staysOpen stays
      obtain ⟨less, left, same⟩ := lexes.tokensWithin_append anew enough p
      obtain ⟨less', left', same'⟩ := lexes.tokensWithin_append anew enough' (p.shift move)
      rw [same, reads less _ left] at scanned
      obtain rfl := Except.ok.inj scanned
      rw [same', reads less' _ left', placed_shift]
      simp only [beyond, Position.shift_advanceAll, Position.shift_bump, single_shift]
      rw [List.map_append]
      rfl
    · obtain ⟨stop, fails, -⟩ := fails _ _ p anew enough
      rw [fails] at scanned
      cases scanned

/-- The scanner reads a first part, the line end behind it and then what follows. -/
theorem Lexes.tokensWithin_line {chars : List Char} {pieces : List Piece}
    (lexes : Lexes chars pieces) (next : List Char) (p : Position) :
    ∃ less, next.length ≤ less ∧
      Scanner.tokensWithin (chars ++ '\n' :: next).length ⟨chars ++ '\n' :: next, p⟩ =
        (Scanner.placed p pieces ++ .single .newline (p.advanceAll chars) :: ·) <$>
          Scanner.tokensWithin less ⟨next, (p.advanceAll chars).advance '\n'⟩ := by
  have anew : Stops joins ('\n' :: next) := stops_cons rfl next
  obtain ⟨less, enough, same⟩ := lexes.tokensWithin_append anew (Nat.le_refl _) p
  obtain ⟨less, rfl⟩ : ∃ fewer, less = fewer + 1 := ⟨less - 1, by simp at enough; omega⟩
  refine ⟨less, by simpa using enough, ?_⟩
  have step : step ⟨'\n' :: next, p.advanceAll chars⟩ '\n' =
      .ok (some (.single .newline (p.advanceAll chars)),
        ⟨next, (p.advanceAll chars).advance '\n'⟩) := rfl
  rw [same, tokensWithin_of_ok rfl step]
  cases Scanner.tokensWithin less ⟨next, (p.advanceAll chars).advance '\n'⟩ <;> rfl

end Scanner

open Scanner

namespace Source

variable {name first second : String} {front tokens : List Token} {last : Token}

/-- A program whose end is found at its end leaves nothing open. -/
theorem settled_of_end (closed : CommentsClosed first.toList)
    (scanned : Source.tokens ⟨name, first⟩ = .ok (front ++ [last]))
    (ends : last.span.start.index = first.length) : Settled first.toList := by
  refine Decidable.byContradiction fun isOpen => ?_
  obtain ⟨before, body, pieces, content, -, -, same⟩ := tokens_of_unclosed closed isOpen scanned
  have isLast := congrArg List.getLast? same
  have beyond : last = .single .eof (Position.behind ⟨name, first⟩ first.toList).bump := by
    simpa using isLast
  rw [beyond, Token.single, Position.index_bump, Position.index_behind,
    String.length_toList] at ends
  omega

/-- The tokens of two programs with a line end between them. -/
theorem tokens_joined (closed : CommentsClosed first.toList)
    (closed' : CommentsClosed second.toList)
    (scanned : Source.tokens ⟨name, first⟩ = .ok (front ++ [last]))
    (ends : last.span.start.index = first.length)
    (scanned' : Source.tokens ⟨name, second⟩ = .ok tokens) :
    let whole : Source := ⟨name, first ++ "\n" ++ second⟩
    whole.tokens = .ok (front.map (Token.shift (.within whole)) ++
      .single .newline (last.span.start.shift (.within whole)) ::
        tokens.map (Token.shift (.below first whole))) := by
  intro whole
  obtain ⟨pieces, lexes, same⟩ := tokens_of_settled (settled_of_end closed scanned ends) scanned
  obtain ⟨rfl, isEnd⟩ := List.append_inj' same rfl
  obtain rfl := List.singleton_inj.mp isEnd
  have start : Position.start whole = (Position.start ⟨name, first⟩).shift (.within whole) := rfl
  have chars : whole.text.toList = first.toList ++ '\n' :: second.toList := by
    simp [whole]
  obtain ⟨less, enough, reads⟩ := lexes.tokensWithin_line second.toList (.start whole)
  have further := tokensWithin_shift closed' (.below first whole) (Nat.le_refl _) enough scanned'
  rw [Source.tokens, Scanner.tokens, Scanner.start, chars, reads, ← Position.behind,
    Position.behind_lineEnd whole ⟨name, second⟩, further, start, placed_shift]
  simp only [Position.behind, start, Position.shift_advanceAll]
  rfl

/-- A text of two lines, a comment and a name that starts with digits. -/
def winding : String :=
  "\"x\ny\" # c\n12b"

/-- A line end and a text that is never closed. -/
def trailing : String :=
  "\n\"z"

theorem tokens_joined_winding : ∃ front last tokens,
    Source.tokens ⟨"", winding⟩ = .ok (front ++ [last]) ∧
    last.span.start.index = winding.length ∧
    Source.tokens ⟨"", trailing⟩ = .ok tokens ∧
    tokens.map (fun token => (token.span.start.index, token.span.start.line,
      token.span.start.column)) = [(0, 0, 0), (1, 1, 0), (4, 1, 3)] ∧
    Source.tokens ⟨"", winding ++ "\n" ++ trailing⟩ =
      .ok (front.map (Token.shift (.within ⟨"", winding ++ "\n" ++ trailing⟩)) ++
        .single .newline
          (last.span.start.shift (.within ⟨"", winding ++ "\n" ++ trailing⟩)) ::
          tokens.map (Token.shift ⟨⟨"", winding ++ "\n" ++ trailing⟩, 14, 3⟩)) := by
  have scanned : Source.tokens ⟨"", winding⟩ = .ok ([_, _] ++ [_]) := rfl
  have scanned' : Source.tokens ⟨"", trailing⟩ = .ok _ := rfl
  exact ⟨_, _, _, scanned, rfl, scanned', rfl,
    tokens_joined (by decide +kernel) (by decide +kernel) scanned rfl scanned'⟩

end Source

end Pseudocode
