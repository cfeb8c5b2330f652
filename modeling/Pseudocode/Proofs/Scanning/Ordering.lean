import Pseudocode.Proofs.Scanning.Tiling

/-!
# Tokens one behind the other

The tokens of any text stand one behind the other, and none of them is empty.  This also holds where
the text ends inside a comment: nothing but the mark for the end is read from there on.
-/

namespace Pseudocode

/-- Tokens one behind the other, from a place on. -/
def Ordered : Nat → List Token → Prop
  | _, [] => True
  | first, token :: tokens =>
      first ≤ token.span.start.index ∧ token.span.start.index < token.span.stop.index ∧
        Ordered token.span.stop.index tokens

theorem Ordered.from {first before : Nat} {tokens : List Token} (ordered : Ordered first tokens)
    (le : before ≤ first) : Ordered before tokens := by
  cases tokens with
  | nil => trivial
  | cons token tokens =>
      obtain ⟨start, proper, later⟩ := ordered
      exact ⟨Nat.le_trans le start, proper, later⟩

theorem ordered_single {p : Position} {first : Nat} (le : first ≤ p.index) (lexeme : Lexeme) :
    Ordered first [.single lexeme p] :=
  ⟨le, Nat.lt_succ_self p.index, trivial⟩

/-! ## Texts that end in a comment -/

/-- A comment that is open at the end was opened by a last sign, or has been open from the start. -/
theorem exists_openComment (mode : Mode) {chars : List Char}
    (isOpen : mode.after chars = .comment) :
    mode = .comment ∧ '\n' ∉ chars ∨
      ∃ before body, chars = before ++ '#' :: body ∧ mode.after before = .code ∧ '\n' ∉ body := by
  induction chars generalizing mode with
  | nil => exact .inl ⟨isOpen, List.not_mem_nil⟩
  | cons c cs ih =>
      obtain ⟨inside, inLine⟩ | ⟨before, body, rfl, settled, inLine⟩ := ih _ isOpen
      · cases mode with
        | comment =>
            have other : c ≠ '\n' := by
              rintro rfl
              cases inside
            exact .inl ⟨rfl, by simp [inLine, other.symm]⟩
        | code =>
            by_cases sign : c = '#'
            · subst sign
              exact .inr ⟨[], cs, rfl, rfl, inLine⟩
            · simp only [Mode.next, sign, if_false] at inside
              split at inside <;> cases inside
        | text =>
            simp only [Mode.next] at inside
            split at inside
            · cases inside
            · split at inside <;> cases inside
        | escape => cases inside
      · exact .inr ⟨c :: before, body, rfl, settled, inLine⟩

namespace Scanner

/-- Nothing is read from a comment that is never closed. -/
theorem tokensWithin_of_openComment {body : List Char} (inLine : '\n' ∉ body) {fuel : Nat}
    (enough : ('#' :: body).length ≤ fuel) (p : Position) :
    tokensWithin fuel ⟨'#' :: body, p⟩ = .ok [.single .eof (p.advanceAll ('#' :: body))] := by
  cases fuel with
  | zero => cases enough
  | succ fuel =>
      have all : ∀ c ∈ '#' :: body, decide (c ≠ '\n') = true := by
        intro c member
        rw [decide_eq_true_eq]
        rintro rfl
        rcases List.mem_cons.mp member with hash | inside
        · cases hash
        · exact inLine inside
      have skips := (skipWhile_of_stops all (stops_nil _) p).1
      rw [List.append_nil] at skips
      have run : step ⟨'#' :: body, p⟩ '#' = .ok (none, ⟨[], p.advanceAll ('#' :: body)⟩) := by
        change Except.ok (none, skipComment ⟨'#' :: body, p⟩) = _
        rw [skipComment, skips]
      rw [tokensWithin_of_ok rfl run]
      cases fuel <;> rfl

/-- The tokens of pieces stand one behind the other. -/
theorem Lexes.ordered {chars : List Char} {pieces : List Piece} (lexes : Lexes chars pieces)
    {p : Position} {others : List Token} (later : Ordered (p.index + chars.length) others) :
    Ordered p.index (Scanner.placed p pieces ++ others) := by
  induction lexes generalizing p with
  | done => exact later
  | @piece c cs rest first pieces begins _ ih =>
      have parts : (c :: cs).length = first.chars.length + rest.length := by
        rw [begins.parts, List.length_append]
      have index := Position.index_advanceAll p first.chars
      have behind : Ordered (p.advanceAll first.chars).index
          (Scanner.placed (p.advanceAll first.chars) pieces ++ others) := by
        refine ih ?_
        rwa [index, Nat.add_assoc, ← parts]
      rw [Scanner.placed, List.append_assoc]
      cases isToken : first.token? p with
      | none => exact behind.from (by omega)
      | some token =>
          have start := (Piece.token?_eq_some isToken).2.1
          have stop := Piece.index_stop isToken
          have positive := List.length_pos_iff.mpr begins.nonempty
          refine ⟨Nat.le_of_eq (congrArg Position.index start.symm), ?_, ?_⟩
          · rw [start, stop]
            omega
          · rwa [stop, ← index]

theorem Lexes.ordered_start {chars : List Char} {pieces : List Piece} (lexes : Lexes chars pieces)
    (source : Source) {others : List Token} (later : Ordered chars.length others) :
    Ordered 0 (Scanner.placed (.start source) pieces ++ others) := by
  have index : (Position.start source).index = 0 := rfl
  rw [← Nat.zero_add chars.length, ← index] at later
  exact lexes.ordered later

end Scanner

namespace Source

open Scanner

variable {name text : String} {tokens : List Token}

/-- The tokens of a text that ends in a comment. -/
theorem tokens_of_openComment (isOpen : ¬ CommentsClosed text.toList)
    (scanned : Source.tokens ⟨name, text⟩ = .ok tokens) : ∃ before body pieces,
      text.toList = before ++ '#' :: body ∧ Lexes before pieces ∧
      tokens = placed (.start ⟨name, text⟩) pieces ++
        [.single .eof (.behind ⟨name, text⟩ text.toList)] := by
  obtain ⟨inside, -⟩ | ⟨before, body, parts, settled, inLine⟩ :=
    exists_openComment .code (Decidable.not_not.mp isOpen)
  · cases inside
  have anew : Stops joins ('#' :: body) := stops_cons rfl body
  have run : tokensWithin text.toList.length ⟨text.toList, .start ⟨name, text⟩⟩ = .ok tokens :=
    scanned
  obtain ⟨pieces, lexes⟩ | ⟨cause, fails⟩ := lexes_or_fails settled
  · obtain ⟨less, enough, same⟩ := lexes.tokensWithin_append anew (Nat.le_refl _)
      (.start ⟨name, text⟩)
    refine ⟨before, body, pieces, parts, lexes, Except.ok.inj (run.symm.trans ?_)⟩
    rw [parts, same, tokensWithin_of_openComment inLine enough, Position.behind,
      Position.advanceAll_append]
    rfl
  · obtain ⟨stop, fails, -⟩ := fails _ _ (.start ⟨name, text⟩) anew (Nat.le_refl _)
    rw [parts, fails] at run
    cases run

/-- The tokens of a text stand one behind the other. -/
theorem ordered_tokens (scanned : Source.tokens ⟨name, text⟩ = .ok tokens) :
    Ordered 0 tokens := by
  have index := Position.index_behind ⟨name, text⟩ text.toList
  by_cases closed : CommentsClosed text.toList
  · by_cases settled : Settled text.toList
    · obtain ⟨pieces, lexes, rfl⟩ := tokens_of_settled settled scanned
      exact lexes.ordered_start _ (ordered_single (Nat.le_of_eq index.symm) .eof)
    · obtain ⟨before, body, pieces, content, parts, lexes, rfl⟩ :=
        tokens_of_unclosed closed settled scanned
      have first := Position.index_behind ⟨name, text⟩ before
      refine lexes.ordered_start _
        ⟨Nat.le_of_eq first.symm, ?_, ordered_single (Nat.le_refl _) .eof⟩
      change (Position.behind _ before).index < (Position.behind _ text.toList).index + 1
      rw [first, index, parts, List.length_append]
      omega
  · obtain ⟨before, body, pieces, parts, lexes, rfl⟩ := tokens_of_openComment closed scanned
    refine lexes.ordered_start _ (ordered_single ?_ .eof)
    rw [index, parts, List.length_append]
    exact Nat.le_add_right _ _

end Source
end Pseudocode
