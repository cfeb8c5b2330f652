import Pseudocode.Proofs.Scanning.Pieces

/-!
# What is read from a text

A text in which every comment is closed leaves nothing open or ends with a text that is never
closed.  In either case what is read from it, as lexemes or as a reason to stop, depends neither on
where it stands nor on how many steps the scanner is allowed beyond those it needs.  It is read from
left to right: what starts anew behind a text that leaves nothing open is read on its own.
-/

namespace Pseudocode

/-- Every comment is closed by a line end. -/
def CommentsClosed (chars : List Char) : Prop :=
  Mode.code.after chars ≠ .comment

instance (chars : List Char) : Decidable (CommentsClosed chars) :=
  inferInstanceAs (Decidable (Mode.code.after chars ≠ .comment))

theorem commentsClosed_append {chars : List Char} (settled : Settled chars) (next : List Char) :
    CommentsClosed (chars ++ next) ↔ CommentsClosed next := by
  rw [CommentsClosed, CommentsClosed, Mode.after_append, settled]

/-! ## Texts that are never closed -/

/-- A text is open behind the last quote. -/
def Mode.isOpen : Mode → Bool
  | text => true
  | escape => true
  | _ => false

/-- Once open, a text is not closed by any of the characters. -/
def Mode.StaysOpen : Mode → List Char → Prop
  | _, [] => True
  | mode, c :: cs => (mode.next c).isOpen = true ∧ (mode.next c).StaysOpen cs

/-- A text that is open at the end was opened by a last quote, or has been open from the start. -/
theorem exists_staysOpen (mode : Mode) {chars : List Char}
    (opened : (mode.after chars).isOpen = true) :
    mode.isOpen = true ∧ mode.StaysOpen chars ∨
      ∃ before body, chars = before ++ '"' :: body ∧ mode.after before = .code ∧
        Mode.StaysOpen .text body := by
  induction chars generalizing mode with
  | nil => exact .inl ⟨opened, trivial⟩
  | cons c cs ih =>
      obtain ⟨isOpen, stays⟩ | ⟨before, body, rfl, settled, stays⟩ := ih _ opened
      · cases mode with
        | text | escape => exact .inl ⟨rfl, isOpen, stays⟩
        | code =>
            by_cases quote : c = '"'
            · subst quote
              exact .inr ⟨[], cs, rfl, rfl, stays⟩
            · simp only [Mode.next, quote, if_false] at isOpen
              split at isOpen <;> cases isOpen
        | comment =>
            simp only [Mode.next] at isOpen
            split at isOpen <;> cases isOpen
      · exact .inr ⟨c :: before, body, rfl, settled, stays⟩

/-- Where every comment is closed, nothing is open at the end, or a text that is never closed. -/
theorem settled_or_staysOpen {chars : List Char} (closed : CommentsClosed chars) :
    Settled chars ∨ ∃ before body, chars = before ++ '"' :: body ∧ Settled before ∧
      Mode.StaysOpen .text body := by
  cases last : Mode.code.after chars with
  | code => exact .inl last
  | comment => exact absurd last closed
  | text | escape =>
      right
      obtain ⟨isOpen, -⟩ | later := exists_staysOpen .code (by rw [last]; rfl)
      · cases isOpen
      · exact later

namespace Scanner

theorem textBody_of_staysOpen (escaped : Bool) {cs : List Char}
    (stays : Mode.StaysOpen (if escaped then .escape else .text) cs) (read : List Char) :
    ∃ content, ∀ p, textBody escaped read cs p = (content, ⟨[], p.advanceAll cs⟩) := by
  induction cs generalizing escaped read with
  | nil => exact ⟨read.reverse, fun _ => rfl⟩
  | cons c cs ih =>
      cases escaped with
      | true =>
          obtain ⟨content, reads⟩ := ih false stays.2 (unescape c :: read)
          exact ⟨content, fun p => reads (p.advance c)⟩
      | false =>
          by_cases quote : c = '"'
          · subst quote
            cases stays.1
          · by_cases backslash : c = '\\'
            · subst backslash
              obtain ⟨content, reads⟩ := ih true stays.2 read
              exact ⟨content, fun p => reads (p.advance _)⟩
            · have mode : Mode.next .text c = .text := by simp [Mode.next, quote, backslash]
              obtain ⟨content, reads⟩ := ih false (mode ▸ stays.2) (c :: read)
              refine ⟨content, fun p => ?_⟩
              rw [Position.advanceAll_cons, ← reads (p.advance c), textBody]
              simp [quote, backslash]

/-- The place behind a text that is never closed: one step beyond the end. -/
def beyond (p : Position) (body : List Char) : Position :=
  (p.advanceAll ('"' :: body)).bump

/-- A text that is never closed is one token, with the end of the program right behind it. -/
theorem tokensWithin_of_staysOpen {body : List Char} (stays : Mode.StaysOpen .text body) :
    ∃ content, ∀ fuel p, ('"' :: body).length ≤ fuel →
      tokensWithin fuel ⟨'"' :: body, p⟩ =
        .ok [⟨.string content, p, beyond p body⟩, .single .eof (beyond p body)] := by
  obtain ⟨content, reads⟩ := textBody_of_staysOpen false stays []
  refine ⟨String.ofList content, fun fuel p enough => ?_⟩
  cases fuel with
  | zero => cases enough
  | succ fuel =>
      have run : step ⟨'"' :: body, p⟩ '"' =
          .ok (some ⟨.string (String.ofList content), p, beyond p body⟩, ⟨[], beyond p body⟩) := by
        change found (text ⟨'"' :: body, p⟩) = _
        simp only [text, advance, reads, tokenTo]
        rfl
      rw [tokensWithin_of_ok rfl run]
      cases fuel <;> rfl

/-! ## Readings -/

/-- What a scanner finds, without places. -/
def view : Except Stop (List Token) → Except Stop (List Lexeme)
  | .ok tokens => .ok (tokens.map (·.lexeme))
  | .error stop => .error stop.unplaced

theorem view_map (front : List Token) (result : Except Stop (List Token)) :
    view ((front ++ ·) <$> result) = (front.map (·.lexeme) ++ ·) <$> view result := by
  cases result with
  | ok tokens => exact congrArg Except.ok List.map_append
  | error stop => rfl

/-- What is read from a text. -/
def reading (chars : List Char) : Except Stop (List Lexeme) :=
  view (tokensWithin chars.length ⟨chars, default⟩)

/-- What is read from a text depends on neither the place nor the number of steps. -/
theorem exists_reading {chars : List Char} (closed : CommentsClosed chars) :
    ∃ found, ∀ fuel p, chars.length ≤ fuel → view (tokensWithin fuel ⟨chars, p⟩) = found := by
  have fails {before : List Char} {cause : Stop} (fails : Fails before cause) (next : List Char)
      (anew : Stops joins next) : ∀ fuel p, (before ++ next).length ≤ fuel →
        view (tokensWithin fuel ⟨before ++ next, p⟩) = .error cause := by
    intro fuel p enough
    obtain ⟨stop, run, same⟩ := fails next fuel p anew enough
    rw [run, view, same]
  obtain settled | ⟨before, body, rfl, settled, stays⟩ := settled_or_staysOpen closed
  · obtain ⟨pieces, lexes⟩ | ⟨cause, stopped⟩ := lexes_or_fails settled
    · refine ⟨.ok (lexemes pieces ++ [.eof]), fun fuel p enough => ?_⟩
      rw [lexes.tokensWithin enough, view, lexemes_place]
    · have stopped := fails stopped [] (stops_nil joins)
      rw [List.append_nil] at stopped
      exact ⟨.error cause, stopped⟩
  · have anew : Stops joins ('"' :: body) := stops_cons rfl body
    obtain ⟨pieces, lexes⟩ | ⟨cause, stopped⟩ := lexes_or_fails settled
    · obtain ⟨content, reads⟩ := tokensWithin_of_staysOpen stays
      refine ⟨.ok (lexemes pieces ++ [.string content, .eof]), fun fuel p enough => ?_⟩
      obtain ⟨less, enough, same⟩ := lexes.tokensWithin_append anew enough p
      rw [same, view_map, lexemes_placed, reads less _ enough]
      rfl
    · exact ⟨.error cause, fails stopped _ anew⟩

theorem view_tokensWithin {chars : List Char} (closed : CommentsClosed chars) {fuel : Nat}
    (enough : chars.length ≤ fuel) (p : Position) :
    view (tokensWithin fuel ⟨chars, p⟩) = reading chars := by
  obtain ⟨found, reads⟩ := exists_reading closed
  rw [reads fuel p enough, reading, reads _ _ (Nat.le_refl _)]

/-- A piece is read first, and then what is behind it. -/
theorem Begins.reading {c : Char} {cs rest : List Char} {piece : Piece}
    (begins : Begins (fun s => s.step c) (c :: cs) piece rest) (closed : CommentsClosed rest) :
    Scanner.reading (c :: cs) = (piece.lexeme?.toList ++ ·) <$> Scanner.reading rest := by
  have run := begins.run (stops_nil joins) default
  rw [List.append_nil, List.append_nil] at run
  have enough : rest.length ≤ cs.length := Nat.le_of_lt_succ begins.shorter
  rw [Scanner.reading, List.length_cons, tokensWithin_of_ok rfl run, view_map,
    view_tokensWithin closed enough]
  cases found : piece.lexeme? <;> simp [Piece.token?, found]

/-- What starts anew behind a text that leaves nothing open is read on its own. -/
theorem reading_append {chars next : List Char} (settled : Settled chars)
    (anew : Stops joins next) (closed : CommentsClosed next) :
    (∃ front, reading chars = .ok (front ++ [.eof]) ∧
        reading (chars ++ next) = (front ++ ·) <$> reading next) ∨
      ∃ cause, reading chars = .error cause ∧ reading (chars ++ next) = .error cause := by
  obtain ⟨pieces, lexes⟩ | ⟨cause, fails⟩ := lexes_or_fails settled
  · left
    refine ⟨lexemes pieces, ?_, ?_⟩
    · rw [reading, lexes.tokensWithin (Nat.le_refl _), view, lexemes_place]
    · obtain ⟨less, enough, same⟩ := lexes.tokensWithin_append anew (Nat.le_refl _) default
      rw [reading, same, view_map, lexemes_placed, view_tokensWithin closed enough]
  · right
    refine ⟨cause, ?_, ?_⟩
    · obtain ⟨stop, run, same⟩ := fails [] chars.length default (stops_nil joins) (by simp)
      rw [List.append_nil] at run
      rw [reading, run, view, same]
    · obtain ⟨stop, run, same⟩ := fails next _ default anew (Nat.le_refl _)
      rw [reading, run, view, same]

end Scanner

/-- What is read from a program, without places. -/
def Source.reading (source : Source) : Except Stop (List Lexeme) :=
  Scanner.view source.tokens

theorem Source.reading_eq {name text : String} (closed : CommentsClosed text.toList) :
    Source.reading ⟨name, text⟩ = Scanner.reading text.toList :=
  Scanner.view_tokensWithin closed (Nat.le_refl _) _

end Pseudocode
