import Pseudocode.Proofs.Parsing.Trace
import Pseudocode.Token.Scanner

/-!
# The end of a text

The mark for the end of the program stands behind all other tokens of a text and nowhere else: no
step of the scanner reads it.  The mark for the end of a line is read from a line end only.
-/

namespace Pseudocode

/-- Whether a lexeme marks the end of a line or of the program. -/
def Lexeme.isMark : Lexeme → Bool
  | newline => true
  | eof => true
  | _ => false

namespace Scanner

theorem isMark_wordLexeme (word : String) : (wordLexeme word).isMark = false := by
  unfold wordLexeme
  split <;> rfl

theorem eq_newline_of_single? {c : Char} {lexeme : Lexeme} (isSingle : single? c = some lexeme)
    (isMark : lexeme.isMark = true) : lexeme = .newline ∧ c = '\n' := by
  unfold single? at isSingle
  split at isSingle <;> cases isSingle
  case h_1 => exact ⟨rfl, rfl⟩
  all_goals cases isMark

theorem isMark_number {s : Scanner} {result : Token × Scanner} (read : s.number = .ok result) :
    result.1.lexeme.isMark = false := by
  rcases skipped : s.skipNumber with ⟨after, pointed⟩
  simp only [number, skipped] at read
  split at read
  · cases read
    exact isMark_wordLexeme _
  · split at read
    · cases value : Number.realLiteral (s.rest.take (s.rest.length - after.rest.length)) with
      | error fault =>
          rw [value] at read
          cases read
      | ok x =>
          rw [value] at read
          cases read
          rfl
    · cases value : Number.wholeLiteral (s.rest.take (s.rest.length - after.rest.length)) with
      | error fault =>
          rw [value] at read
          cases read
      | ok n =>
          rw [value] at read
          cases read
          rfl

theorem isMark_notEqual {s after : Scanner} {token : Token}
    (read : s.notEqual = (.ok token, after)) : token.lexeme.isMark = false := by
  simp only [notEqual] at read
  split at read <;> cases read
  rfl

theorem isMark_sign (s : Scanner) : s.star.1.lexeme.isMark = false ∧
    s.equals.1.lexeme.isMark = false ∧ s.lessThan.1.lexeme.isMark = false ∧
    s.greaterThan.1.lexeme.isMark = false := by
  refine ⟨?_, ?_, ?_, ?_⟩
  · simp only [star]
    split <;> rfl
  · simp only [equals]
    split <;> rfl
  · simp only [lessThan]
    split <;> rfl
  · simp only [greaterThan]
    split <;> rfl

/-- A step at a character that reads no mark but that for the end of a line from a line end. -/
def ReadsOn (c : Char) (result : Except Stop (Option Token × Scanner)) : Prop :=
  ∀ token after, result = .ok (some token, after) → token.lexeme.isMark = true →
    token.lexeme = .newline ∧ c = '\n'

theorem readsOn_found {c : Char} {result : Token × Scanner}
    (other : result.1.lexeme.isMark = false) : ReadsOn c (found result) := by
  intro token after run isMark
  cases run
  rw [other] at isMark
  cases isMark

theorem readsOn_blank (c : Char) (after : Scanner) : ReadsOn c (.ok (none, after)) := by
  intro token last run
  cases run

theorem readsOn_error (c : Char) (stop : Stop) : ReadsOn c (.error stop) := by
  intro token last run
  cases run

theorem readsOn_ite {c : Char} {condition : Prop} [Decidable condition]
    {first second : Except Stop (Option Token × Scanner)} (holds : ReadsOn c first)
    (fails : ReadsOn c second) : ReadsOn c (if condition then first else second) := by
  split
  · exact holds
  · exact fails

theorem readsOn_step (s : Scanner) (c : Char) : ReadsOn c (s.step c) := by
  obtain ⟨star, equals, less, greater⟩ := s.isMark_sign
  refine readsOn_ite (readsOn_blank c _) (readsOn_ite (readsOn_blank c _) (readsOn_ite ?number
    (readsOn_ite ?word (readsOn_ite ?text (readsOn_ite (readsOn_found star)
      (readsOn_ite ?exclamation (readsOn_ite (readsOn_found equals)
        (readsOn_ite (readsOn_found less) (readsOn_ite (readsOn_found greater) ?single)))))))))
  case number =>
    split
    · next result read => exact readsOn_found (isMark_number read)
    · exact readsOn_error c _
  case word => exact readsOn_found (isMark_wordLexeme _)
  case text => exact readsOn_found rfl
  case exclamation =>
    split
    · next read => exact readsOn_found (isMark_notEqual read)
    · exact readsOn_error c _
  case single =>
    split
    · next isSingle =>
        intro token after run isMark
        cases run
        exact eq_newline_of_single? isSingle isMark
    · exact readsOn_error c _

theorem step_ne_eof {s after : Scanner} {c : Char} {token : Token}
    (run : s.step c = .ok (some token, after)) : token.lexeme ≠ .eof := by
  intro isEnd
  have isLine := (readsOn_step s c token after run (by rw [isEnd]; rfl)).1
  rw [isEnd] at isLine
  cases isLine

theorem ended_tokensWithin {fuel : Nat} {s : Scanner} {tokens : List Token}
    (scanned : tokensWithin fuel s = .ok tokens) : Grammar.Ended tokens := by
  induction fuel generalizing s tokens with
  | zero =>
      cases scanned
      exact Or.inl ⟨rfl, rfl⟩
  | succ fuel ih =>
      rw [tokensWithin] at scanned
      split at scanned
      · cases scanned
        exact Or.inl ⟨rfl, rfl⟩
      · next c rest _ =>
          cases run : s.step c with
          | error stop =>
              rw [run] at scanned
              cases scanned
          | ok result =>
              obtain ⟨token?, after⟩ := result
              cases others : tokensWithin fuel after with
              | error stop =>
                  simp only [run, others, bind, Except.bind] at scanned
                  cases scanned
              | ok more =>
                  simp only [run, others, bind, Except.bind, pure, Except.pure] at scanned
                  cases scanned
                  cases token? with
                  | none => exact ih others
                  | some token => exact Or.inr ⟨step_ne_eof run, ih others⟩

end Scanner

/-- The tokens of a text end with its only end. -/
theorem Source.ended_tokens {source : Source} {tokens : List Token}
    (scanned : source.tokens = .ok tokens) : Grammar.Ended tokens :=
  Scanner.ended_tokensWithin scanned

end Pseudocode
