import Pseudocode.Proofs.Scanning.Ending
import Pseudocode.Proofs.Scanning.Readings

/-!
# Tokens and their places

The tokens of a text stand one behind the other, and what lies between them is skipped: blanks, and
comments with the line ends that close them.  The places where they start and stop tell the right
line and column.  Only a line end is told to stop in the next column of its own line, and only a
text that is never closed reaches one step beyond the end.
-/

namespace Pseudocode

/-! ## Lines and columns -/

namespace Position

/-- A place that tells its line and its column in a text: the line is the number of line ends before
it, and the column is counted from the last of them.  Places beyond the end go on in its line. -/
structure Agrees (chars : List Char) (p : Position) : Prop where
  line : p.line = (chars.take p.index).count '\n'
  column : ∃ above inLine, chars.take p.index = above ++ inLine ∧
    (above = [] ∨ above.getLast? = some '\n') ∧ '\n' ∉ inLine ∧ p.index = above.length + p.column

theorem agrees_start (chars : List Char) (source : Source) : Agrees chars (start source) where
  line := rfl
  column := ⟨[], [], rfl, .inl rfl, List.not_mem_nil, rfl⟩

@[simp]
theorem index_bump (p : Position) : p.bump.index = p.index + 1 := rfl

theorem index_advance (p : Position) (c : Char) : (p.advance c).index = p.index + 1 := by
  unfold advance
  split <;> rfl

@[simp]
theorem index_advanceAll (p : Position) (chars : List Char) :
    (p.advanceAll chars).index = p.index + chars.length := by
  induction chars generalizing p with
  | nil => rfl
  | cons c cs ih =>
      rw [advanceAll_cons, ih, index_advance, List.length_cons]
      omega

@[simp]
theorem advanceAll_append (p : Position) (chars others : List Char) :
    p.advanceAll (chars ++ others) = (p.advanceAll chars).advanceAll others :=
  List.foldl_append

theorem Agrees.advance {before rest : List Char} {c : Char} {p : Position}
    (agrees : p.Agrees (before ++ c :: rest)) (index : p.index = before.length) :
    (p.advance c).Agrees (before ++ c :: rest) := by
  obtain ⟨line, above, inLine, parts, ends, noLine, column⟩ := agrees
  have upTo : (before ++ c :: rest).take (p.index + 1) = before ++ [c] := by
    rw [index, List.take_length_add_append]
    rfl
  rw [index, List.take_left] at line parts
  unfold Position.advance
  split
  · next isLineEnd =>
      subst isLineEnd
      refine ⟨?_, before ++ ['\n'], [], ?_, ?_, List.not_mem_nil, ?_⟩
      · simp [upTo, line]
      · simp [upTo]
      · simp
      · simp [index]
  · next inside =>
      refine ⟨?_, above, inLine ++ [c], ?_, ends, ?_, ?_⟩
      · simp [bump, upTo, line, inside]
      · rw [index_bump, upTo, parts, List.append_assoc]
      · simpa [noLine] using Ne.symm inside
      · simp [bump, column, Nat.add_assoc]

theorem Agrees.advanceAll {before chars rest : List Char} {p : Position}
    (agrees : p.Agrees (before ++ (chars ++ rest))) (index : p.index = before.length) :
    (p.advanceAll chars).Agrees (before ++ (chars ++ rest)) := by
  induction chars generalizing before p with
  | nil => exact agrees
  | cons c cs ih =>
      have next : (p.advance c).Agrees (before ++ c :: (cs ++ rest)) := agrees.advance index
      rw [List.append_cons] at next
      rw [List.cons_append, List.append_cons]
      exact ih next (by simp [index_advance, index])

/-- Beyond the end a place goes on in its line. -/
theorem Agrees.bump {chars : List Char} {p : Position} (agrees : p.Agrees chars)
    (atEnd : chars.length ≤ p.index) : p.bump.Agrees chars := by
  obtain ⟨line, above, inLine, parts, ends, noLine, column⟩ := agrees
  have all : chars.take p.bump.index = chars.take p.index := by
    rw [index_bump, List.take_of_length_le (Nat.le_succ_of_le atEnd),
      List.take_of_length_le atEnd]
  refine ⟨all ▸ line, above, inLine, all ▸ parts, ends, noLine, ?_⟩
  simp [Position.bump, column, Nat.add_assoc]

/-- The place behind the first characters of a text. -/
def behind (source : Source) (before : List Char) : Position :=
  (start source).advanceAll before

@[simp]
theorem index_behind (source : Source) (before : List Char) :
    (behind source before).index = before.length := by
  rw [behind, index_advanceAll, start, Nat.zero_add]

theorem agrees_behind (source : Source) (before rest : List Char) :
    (behind source before).Agrees (before ++ rest) :=
  (agrees_start ([] ++ (before ++ rest)) source).advanceAll rfl

theorem agrees_end (source : Source) (chars : List Char) : (behind source chars).Agrees chars := by
  simpa using agrees_behind source chars []

end Position

/-! ## Tilings -/

open Scanner

/-- The characters of a text from one place to another. -/
def between (chars : List Char) (first last : Nat) : List Char :=
  (chars.take last).drop first

/-- Tokens one behind the other, from a place of a text on, with nothing but blanks and comments
before each of them. -/
def Tiles (chars : List Char) : Nat → List Token → Prop
  | _, [] => True
  | first, token :: tokens =>
      first ≤ token.span.start.index ∧ Skipped (between chars first token.span.start.index) ∧
        Tiles chars token.span.stop.index tokens

/-- A token that starts and stops where its places tell.  A line end stops in the next column. -/
structure Token.Placed (chars : List Char) (token : Token) : Prop where
  start : token.span.start.Agrees chars
  stop : token.lexeme ≠ .newline → token.span.stop.Agrees chars
  lineEnd : token.lexeme = .newline → token.span.stop = token.span.start.bump

/-- Tokens of a text and the mark for its end: they tile the text and tell their places, none of
them is empty, and there is no other mark for the end. -/
structure Tiling (chars : List Char) (front : List Token) (last : Token) : Prop where
  isEnd : last.lexeme = .eof
  proper : ∀ token ∈ front,
    token.lexeme ≠ .eof ∧ token.span.start.index < token.span.stop.index
  tiles : Tiles chars 0 (front ++ [last])
  placed : ∀ token ∈ front ++ [last], token.Placed chars

namespace Scanner

theorem Skipped.append {chars others : List Char} (first : Skipped chars)
    (second : Skipped others) : Skipped (chars ++ others) := by
  induction first with
  | nil => exact second
  | blank isBlank _ ih => exact .blank isBlank ih
  | comment inLine _ ih =>
      rw [List.cons_append, List.append_assoc]
      exact .comment inLine ih

theorem between_self (chars : List Char) (n : Nat) : between chars n n = [] :=
  List.drop_eq_nil_of_le (List.length_take_le n chars)

theorem between_append {before piece rest : List Char} {first : Nat}
    (le : first ≤ before.length) :
    between (before ++ piece ++ rest) first (before ++ piece).length =
      between (before ++ piece ++ rest) first before.length ++ piece := by
  rw [between, between, List.take_left, List.append_assoc, List.take_left,
    List.drop_append_of_le_length le]


/-! ## The tokens of pieces -/

theorem Piece.token?_eq_some {piece : Piece} {p : Position} {token : Token}
    (isToken : piece.token? p = some token) : piece.lexeme? = some token.lexeme ∧
      token.span.start = p ∧
      token.span.stop = if piece.chars = ['\n'] then p.bump else p.advanceAll piece.chars := by
  unfold Piece.token? at isToken
  cases found : piece.lexeme? with
  | none => simp [found] at isToken
  | some lexeme =>
      rw [found] at isToken
      cases isToken
      exact ⟨rfl, rfl, rfl⟩

theorem Piece.index_stop {piece : Piece} {p : Position} {token : Token}
    (isToken : piece.token? p = some token) :
    token.span.stop.index = p.index + piece.chars.length := by
  rw [(token?_eq_some isToken).2.2]
  split
  · next isLineEnd => rw [isLineEnd]; rfl
  · exact Position.index_advanceAll p piece.chars

section

variable {c : Char} {cs rest : List Char} {piece : Piece}
  (begins : Begins (fun s => s.step c) (c :: cs) piece rest)

include begins

theorem Begins.step_eq (p : Position) : step ⟨c :: cs, p⟩ c =
    .ok (piece.token? p, ⟨rest, p.advanceAll piece.chars⟩) := by
  have run := begins.run (stops_nil joins) p
  rwa [List.append_nil, List.append_nil] at run

theorem Begins.isMark {lexeme : Lexeme} (found : piece.lexeme? = some lexeme)
    (isMark : lexeme.isMark = true) : lexeme = .newline ∧ c = '\n' := by
  have run := begins.step_eq default
  rw [Piece.token?, found] at run
  exact readsOn_step _ c _ _ run isMark

/-- A line end is read as such. -/
theorem Begins.lineEnd_of_first (isLineEnd : c = '\n') :
    piece.lexeme? = some .newline ∧ piece.chars = ['\n'] := by
  subst isLineEnd
  have same := (begins.step_eq default).symm.trans ((begins_lineEnd cs).step_eq default)
  rw [Except.ok.injEq, Prod.mk.injEq, Scanner.mk.injEq] at same
  obtain ⟨token, rfl, -⟩ := same
  exact ⟨(Piece.token?_eq_some token).1, (List.append_cancel_right begins.parts).symm⟩

/-- The mark for the end of a line is read from a line end, and from nothing else. -/
theorem Begins.newline_iff : piece.lexeme? = some .newline ↔ piece.chars = ['\n'] := by
  constructor
  · intro found
    exact (begins.lineEnd_of_first (begins.isMark found rfl).2).2
  · intro isLineEnd
    have parts := begins.parts
    rw [isLineEnd] at parts
    exact (begins.lineEnd_of_first (List.cons.inj parts).1).1

theorem Begins.ne_eof : piece.lexeme? ≠ some .eof := by
  intro found
  cases (begins.isMark found rfl).1

/-- The token of a piece is placed where the piece stands. -/
theorem Begins.placed {before after : List Char} {p : Position} {token : Token}
    (isToken : piece.token? p = some token) (index : p.index = before.length)
    (agrees : p.Agrees (before ++ (c :: cs ++ after))) :
    token.Placed (before ++ (c :: cs ++ after)) := by
  obtain ⟨found, start, stop⟩ := Piece.token?_eq_some isToken
  have reads : token.lexeme = .newline ↔ piece.chars = ['\n'] := by
    rw [← begins.newline_iff, found, Option.some.injEq]
  refine ⟨start ▸ agrees, fun other => ?_, fun isLine => ?_⟩
  · rw [stop, if_neg (mt reads.mpr other)]
    rw [begins.parts, List.append_assoc] at agrees ⊢
    exact agrees.advanceAll index
  · rw [stop, start, if_pos (reads.mp isLine)]

end

/-- Where the tokens of pieces come from. -/
theorem Lexes.mem_placed {chars : List Char} {pieces : List Piece} (lexes : Lexes chars pieces)
    {p : Position} {token : Token} (member : token ∈ placed p pieces) :
    ∃ front c cs piece rest, chars = front ++ c :: cs ∧
      Begins (fun s => s.step c) (c :: cs) piece rest ∧
      piece.token? (p.advanceAll front) = some token := by
  induction lexes generalizing p with
  | done => cases member
  | @piece c cs rest first pieces begins others ih =>
      rw [placed, List.mem_append, Option.mem_toList] at member
      obtain isFirst | later := member
      · exact ⟨[], c, cs, first, rest, rfl, begins, isFirst⟩
      · obtain ⟨front, d, ds, piece, last, rfl, cut, isToken⟩ := ih later
        refine ⟨first.chars ++ front, d, ds, piece, last, ?_, cut, ?_⟩
        · rw [begins.parts, List.append_assoc]
        · rw [Position.advanceAll_append, isToken]

/-- A token of a text is no mark for its end, is not empty and is placed where it stands. -/
theorem Lexes.placed {chars : List Char} {pieces : List Piece} (lexes : Lexes chars pieces)
    (after : List Char) {source : Source} {token : Token}
    (member : token ∈ Scanner.placed (.start source) pieces) :
    token.lexeme ≠ .eof ∧ token.span.start.index < token.span.stop.index ∧
      token.span.stop.index ≤ chars.length ∧ token.Placed (chars ++ after) := by
  obtain ⟨front, c, cs, piece, rest, rfl, begins, isToken⟩ := lexes.mem_placed member
  have positive := List.length_pos_iff.mpr begins.nonempty
  have length := congrArg List.length begins.parts
  obtain ⟨found, start, -⟩ := Piece.token?_eq_some isToken
  have index : ((Position.start source).advanceAll front).index = front.length :=
    Position.index_behind source front
  refine ⟨?_, ?_, ?_, ?_⟩
  · rintro isEnd
    exact begins.ne_eof (isEnd ▸ found)
  · rw [Piece.index_stop isToken, start]
    omega
  · rw [Piece.index_stop isToken, index, List.length_append, length, List.length_append]
    omega
  · rw [List.append_assoc]
    exact begins.placed isToken index (Position.agrees_behind source front _)

/-- The tokens of pieces tile a text, together with those that tile what follows. -/
theorem Lexes.tiles {before chars after : List Char} {pieces : List Piece}
    (lexes : Lexes chars pieces) {p : Position} (index : p.index = before.length) {first : Nat}
    (le : first ≤ before.length)
    (gap : Skipped (between (before ++ chars ++ after) first before.length))
    {others : List Token} (later : ∀ next, next ≤ (before ++ chars).length →
      Skipped (between (before ++ chars ++ after) next (before ++ chars).length) →
      Tiles (before ++ chars ++ after) next others) :
    Tiles (before ++ chars ++ after) first (Scanner.placed p pieces ++ others) := by
  induction lexes generalizing before p first with
  | done =>
      rw [List.append_nil] at gap later ⊢
      exact later first le gap
  | @piece c cs rest piece pieces begins _ ih =>
      have length : (before ++ piece.chars).length = before.length + piece.chars.length :=
        List.length_append
      have next : (p.advanceAll piece.chars).index = (before ++ piece.chars).length := by
        rw [Position.index_advanceAll, index, length]
      rw [begins.parts, ← List.append_assoc] at gap later ⊢
      rw [Scanner.placed]
      cases isToken : piece.token? p with
      | none =>
          have skips : piece.lexeme? = none := by simpa [Piece.token?] using isToken
          refine ih next (by omega) ?_ later
          rw [List.append_assoc, between_append le, ← List.append_assoc]
          exact gap.append (begins.skips skips)
      | some token =>
          obtain ⟨-, start, -⟩ := Piece.token?_eq_some isToken
          have stop : token.span.stop.index = (before ++ piece.chars).length := by
            rw [Piece.index_stop isToken, index, length]
          refine ⟨?_, ?_, ?_⟩
          · rwa [start, index]
          · rwa [start, index]
          · rw [stop]
            exact ih next (Nat.le_refl _) (between_self _ _ ▸ .nil) later

/-- The tokens of pieces at the start of a text tile it, together with those that tile the rest. -/
theorem Lexes.tiles_start {chars after whole : List Char} {pieces : List Piece}
    (lexes : Lexes chars pieces) (parts : whole = chars ++ after) (source : Source)
    {others : List Token}
    (later : ∀ next, next ≤ chars.length → Skipped (between whole next chars.length) →
      Tiles whole next others) :
    Tiles whole 0 (Scanner.placed (.start source) pieces ++ others) := by
  have index : (Position.start source).index = ([] : List Char).length := rfl
  subst parts
  exact lexes.tiles index (Nat.le_refl 0) .nil later

/-- The mark for the end of a program, at a place beyond which there is nothing. -/
theorem placed_eof {chars : List Char} {p : Position} (agrees : p.Agrees chars)
    (atEnd : chars.length ≤ p.index) : (Token.single .eof p).Placed chars :=
  ⟨agrees, fun _ => agrees.bump atEnd, nofun⟩

/-- The tokens of pieces, and the mark for the end behind them. -/
theorem Lexes.tiling {chars : List Char} {pieces : List Piece} (lexes : Lexes chars pieces)
    (source : Source) :
    Tiling chars (Scanner.placed (.start source) pieces) (.single .eof (.behind source chars)) := by
  have index := Position.index_behind source chars
  have each {token : Token} (member : token ∈ Scanner.placed (.start source) pieces) :=
    lexes.placed [] member
  simp only [List.append_nil] at each
  refine ⟨rfl, fun token member => ⟨(each member).1, (each member).2.1⟩, ?_, ?_⟩
  · refine lexes.tiles_start (List.append_nil _).symm source fun next le gap => ?_
    exact ⟨index.symm ▸ le, index.symm ▸ gap, trivial⟩
  · intro token member
    obtain isToken | isEnd := List.mem_append.mp member
    · exact (each isToken).2.2.2
    · rw [List.mem_singleton.mp isEnd]
      exact placed_eof (Position.agrees_end source chars) (Nat.le_of_eq index.symm)

/-- The token of a text that is never closed. -/
def unclosed (source : Source) (chars before : List Char) (content : String) : Token :=
  ⟨.string content, .behind source before, (Position.behind source chars).bump⟩

/-- The tokens of pieces, a text that is never closed and the mark for the end beyond it. -/
theorem Lexes.tiling_unclosed {chars before body : List Char} {pieces : List Piece}
    (lexes : Lexes before pieces) (parts : chars = before ++ '"' :: body) (source : Source)
    (content : String) :
    Tiling chars
      (Scanner.placed (.start source) pieces ++ [unclosed source chars before content])
      (.single .eof (Position.behind source chars).bump) := by
  have index := Position.index_behind source chars
  have first := Position.index_behind source before
  have further : before.length < chars.length := by
    rw [parts, List.length_append, List.length_cons]
    omega
  have beyond := (Position.agrees_end source chars).bump (Nat.le_of_eq index.symm)
  have each {token : Token} (member : token ∈ Scanner.placed (.start source) pieces) :=
    lexes.placed ('"' :: body) member
  rw [← parts] at each
  refine ⟨rfl, fun token member => ?_, ?_, fun token member => ?_⟩
  · obtain isToken | isLast := List.mem_append.mp member
    · exact ⟨(each isToken).1, (each isToken).2.1⟩
    · rw [List.mem_singleton.mp isLast]
      refine ⟨nofun, ?_⟩
      change (Position.behind source before).index < (Position.behind source chars).index + 1
      omega
  · rw [List.append_assoc]
    refine lexes.tiles_start parts source fun next le gap => ?_
    refine ⟨first.symm ▸ le, first.symm ▸ gap, Nat.le_refl _, ?_, trivial⟩
    exact between_self chars _ ▸ .nil
  · rw [List.append_assoc] at member
    obtain isToken | member := List.mem_append.mp member
    · exact (each isToken).2.2.2
    · obtain rfl | isEnd := List.mem_cons.mp member
      · exact ⟨parts ▸ Position.agrees_behind source before _, fun _ => beyond, nofun⟩
      · rw [List.mem_singleton.mp isEnd]
        exact placed_eof beyond (Nat.le_succ_of_le (Nat.le_of_eq index.symm))

end Scanner

namespace Source

variable {name text : String} {tokens : List Token}

/-- The tokens of a text that leaves nothing open. -/
theorem tokens_of_settled (settled : Settled text.toList)
    (scanned : Source.tokens ⟨name, text⟩ = .ok tokens) : ∃ pieces, Lexes text.toList pieces ∧
      tokens = placed (.start ⟨name, text⟩) pieces ++
        [.single .eof (.behind ⟨name, text⟩ text.toList)] := by
  obtain ⟨pieces, lexes⟩ := Scanner.exists_lexes settled (Nat.le_refl _) scanned
  refine ⟨pieces, lexes, Except.ok.inj (scanned.symm.trans ?_)⟩
  rw [tokens_of_lexes lexes, place, lexes.chars_eq]
  rfl

/-- The tokens of a text that ends with one that is never closed. -/
theorem tokens_of_unclosed (closed : CommentsClosed text.toList) (isOpen : ¬ Settled text.toList)
    (scanned : Source.tokens ⟨name, text⟩ = .ok tokens) : ∃ before body pieces content,
      text.toList = before ++ '"' :: body ∧ Lexes before pieces ∧
      tokens = placed (.start ⟨name, text⟩) pieces ++
        [unclosed ⟨name, text⟩ text.toList before content,
          .single .eof (Position.behind ⟨name, text⟩ text.toList).bump] := by
  obtain ⟨before, body, parts, settled, stays⟩ :=
    (settled_or_staysOpen closed).resolve_left isOpen
  have anew : Stops joins ('"' :: body) := stops_cons rfl body
  have run : tokensWithin text.toList.length ⟨text.toList, .start ⟨name, text⟩⟩ = .ok tokens :=
    scanned
  obtain ⟨pieces, lexes⟩ | ⟨cause, fails⟩ := lexes_or_fails settled
  · obtain ⟨content, reads⟩ := tokensWithin_of_staysOpen stays
    obtain ⟨less, enough, same⟩ := lexes.tokensWithin_append anew (Nat.le_refl _)
      (.start ⟨name, text⟩)
    refine ⟨before, body, pieces, content, parts, lexes, Except.ok.inj (run.symm.trans ?_)⟩
    rw [parts, same, reads less _ enough, beyond, unclosed, Position.behind, Position.behind,
      Position.advanceAll_append]
    rfl
  · obtain ⟨stop, fails, -⟩ := fails _ _ (.start ⟨name, text⟩) anew (Nat.le_refl _)
    rw [parts, fails] at run
    cases run

/-- The tokens of a text in which every comment is closed tile it and tell their places.  The mark
for its end stands at the end, or one step beyond it behind a text that is never closed. -/
theorem tokens_tile (closed : CommentsClosed text.toList)
    (scanned : Source.tokens ⟨name, text⟩ = .ok tokens) :
    ∃ front last, tokens = front ++ [last] ∧ Tiling text.toList front last ∧
      (Settled text.toList → last.span.start.index = text.length ∧
        ∀ token ∈ front, token.span.stop.index ≤ text.length) ∧
      (¬ Settled text.toList → last.span.start.index = text.length + 1 ∧
        ∃ others content span, front = others ++ [⟨.string content, span⟩] ∧
          span.stop.index = text.length + 1 ∧
          ∀ token ∈ others, token.span.stop.index ≤ text.length) := by
  have index := Position.index_behind ⟨name, text⟩ text.toList
  rw [String.length_toList] at index
  by_cases settled : Settled text.toList
  · obtain ⟨pieces, lexes, rfl⟩ := tokens_of_settled settled scanned
    refine ⟨_, _, rfl, lexes.tiling _, fun _ => ⟨index, fun token member => ?_⟩, absurd settled⟩
    rw [← String.length_toList]
    exact (lexes.placed [] member).2.2.1
  · obtain ⟨before, body, pieces, content, parts, lexes, rfl⟩ :=
      tokens_of_unclosed closed settled scanned
    refine ⟨_, _, List.append_cons _ _ _, lexes.tiling_unclosed parts _ content,
      fun isSettled => absurd isSettled settled, fun _ => ⟨?_, _, _, _, rfl, ?_, ?_⟩⟩
    · exact congrArg Nat.succ index
    · exact congrArg Nat.succ index
    · intro token member
      rw [← String.length_toList, parts, List.length_append]
      exact Nat.le_add_right_of_le (lexes.placed ('"' :: body) member).2.2.1

/-- A comment, an empty line and a text of two lines that is never closed. -/
def loose : String :=
  "a # b\n\n\"x\ny"

theorem tokens_tile_loose : ∃ tokens, Source.tokens ⟨"", loose⟩ = .ok tokens ∧
    tokens.map (fun token => (token.span.start.index, token.span.stop.index)) =
      [(0, 1), (6, 7), (7, 12), (12, 13)] ∧
    ∃ front last, tokens = front ++ [last] ∧ Tiling loose.toList front last := by
  have closed : CommentsClosed loose.toList := by decide +kernel
  have scanned : Source.tokens ⟨"", loose⟩ = .ok _ := rfl
  obtain ⟨front, last, parts, tiling, -⟩ := tokens_tile closed scanned
  exact ⟨_, scanned, rfl, front, last, parts, tiling⟩

end Source

end Pseudocode
