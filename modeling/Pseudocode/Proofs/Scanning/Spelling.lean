import Pseudocode.Token.Scanner
import Pseudocode.Tree

/-!
# Spelling

A word spells a lexeme if the scanner reads it as this lexeme whenever a space or the end of the
text follows.  Words with one space between neighbours are then read one after another.
-/

namespace Pseudocode
namespace Scanner

/-- Behind a word: the end of the text or a space. -/
def Apart (rest : List Char) : Prop :=
  rest = [] ∨ ∃ more, rest = ' ' :: more

/-- A word that is read as a lexeme when it stands apart. -/
def Spelled (word : String) (lexeme : Lexeme) : Prop :=
  ∃ c cs, word.toList = c :: cs ∧ ∀ rest position, Apart rest →
    ∃ span after, step ⟨c :: cs ++ rest, position⟩ c = .ok (some ⟨lexeme, span⟩, ⟨rest, after⟩)

/-- Words that are read as lexemes, one by one. -/
inductive SpelledAll : List String → List Lexeme → Prop where
  | nil : SpelledAll [] []
  | cons {word : String} {lexeme : Lexeme} {words : List String} {lexemes : List Lexeme}
      (first : Spelled word lexeme) (others : SpelledAll words lexemes) :
      SpelledAll (word :: words) (lexeme :: lexemes)

theorem Spelled.all {word : String} {lexeme : Lexeme} (spelled : Spelled word lexeme) :
    SpelledAll [word] [lexeme] :=
  .cons spelled .nil

theorem SpelledAll.append {words words' : List String} {lexemes lexemes' : List Lexeme}
    (first : SpelledAll words lexemes) (second : SpelledAll words' lexemes') :
    SpelledAll (words ++ words') (lexemes ++ lexemes') := by
  induction first with
  | nil => exact second
  | cons spelled _ ih => exact .cons spelled ih

/-! ## Words in a row -/

/-- Words with one space between neighbours. -/
def spaced : List String → String
  | [] => ""
  | [word] => word
  | word :: words => word ++ " " ++ spaced words

/-- Words with a space in front of each. -/
def behind : List String → List Char
  | [] => []
  | word :: words => ' ' :: word.toList ++ behind words

theorem toList_spaced (word : String) (words : List String) :
    (spaced (word :: words)).toList = word.toList ++ behind words := by
  induction words generalizing word with
  | nil => simp [spaced, behind]
  | cons next words ih =>
      rw [spaced, String.toList_append, String.toList_append, ih]
      · simp [behind]
      · simp

theorem apart_behind (words : List String) : Apart (behind words) := by
  cases words with
  | nil => exact Or.inl rfl
  | cons word words => exact Or.inr ⟨_, rfl⟩

theorem tokensWithin_step {fuel : Nat} {s after : Scanner} {c : Char} {cs : List Char}
    {token? : Option Token} {tokens : List Token} (rest : s.rest = c :: cs)
    (run : s.step c = .ok (token?, after)) (more : tokensWithin fuel after = .ok tokens) :
    tokensWithin (fuel + 1) s = .ok (token?.toList ++ tokens) := by
  rw [tokensWithin]
  simp only [rest, run]
  change (tokensWithin fuel after >>= fun tokens => .ok (token?.toList ++ tokens)) = _
  rw [more]
  rfl

/-- A word, when what comes behind it is read in fewer steps. -/
theorem Spelled.tokensWithin {word : String} {lexeme : Lexeme} (spelled : Spelled word lexeme)
    {rest : List Char} (apart : Apart rest) {fuel : Nat}
    (enough : (word.toList ++ rest).length ≤ fuel) {lexemes : List Lexeme}
    (more : ∀ fuel position, rest.length ≤ fuel →
      ∃ tokens, Scanner.tokensWithin fuel ⟨rest, position⟩ = .ok tokens ∧
        tokens.map (·.lexeme) = lexemes) (position : Position) :
    ∃ tokens, Scanner.tokensWithin fuel ⟨word.toList ++ rest, position⟩ = .ok tokens ∧
      tokens.map (·.lexeme) = lexeme :: lexemes := by
  obtain ⟨c, cs, letters, reads⟩ := spelled
  rw [letters] at enough ⊢
  obtain ⟨span, after, run⟩ := reads rest position apart
  cases fuel with
  | zero => simp at enough
  | succ fuel =>
      have less : rest.length ≤ fuel := by
        simp only [List.cons_append, List.length_cons, List.length_append] at enough
        omega
      obtain ⟨tokens, others, same⟩ := more fuel after less
      exact ⟨_, tokensWithin_step rfl run others, by simp [same]⟩

theorem tokensWithin_behind {words : List String} {lexemes : List Lexeme}
    (spelled : SpelledAll words lexemes) {fuel : Nat} (position : Position)
    (enough : (behind words).length ≤ fuel) :
    ∃ tokens, tokensWithin fuel ⟨behind words, position⟩ = .ok tokens ∧
      tokens.map (·.lexeme) = lexemes ++ [.eof] := by
  induction spelled generalizing fuel position with
  | nil => cases fuel <;> exact ⟨_, rfl, rfl⟩
  | @cons word lexeme words lexemes first others ih =>
      cases fuel with
      | zero => simp [behind] at enough
      | succ fuel =>
          have less : (word.toList ++ behind words).length ≤ fuel := by
            simp only [behind, List.cons_append, List.length_cons] at enough
            exact Nat.le_of_succ_le_succ enough
          -- The space is one step of its own, which gives no token.
          obtain ⟨tokens, run, same⟩ := first.tokensWithin (apart_behind words) less
            (fun fuel position enough => ih position enough) (position.advance ' ')
          have blank : step ⟨' ' :: (word.toList ++ behind words), position⟩ ' ' =
              .ok (none, ⟨word.toList ++ behind words, position.advance ' '⟩) := rfl
          exact ⟨_, tokensWithin_step rfl blank run, by simpa using same⟩

/-- Spaced words are read as their lexemes, in order, and the end. -/
theorem tokens_spaced {words : List String} {lexemes : List Lexeme}
    (spelled : SpelledAll words lexemes) (name : String) :
    ∃ tokens, Source.tokens ⟨name, spaced words⟩ = .ok tokens ∧
      tokens.map (·.lexeme) = lexemes ++ [.eof] := by
  cases spelled with
  | nil => exact ⟨_, rfl, rfl⟩
  | @cons word lexeme words lexemes first others =>
      rw [Source.tokens, Scanner.tokens, start, toList_spaced]
      exact first.tokensWithin (apart_behind words) (Nat.le_refl _)
        (fun fuel position enough => tokensWithin_behind others position enough) _

/-- Every word is at least one character long. -/
theorem SpelledAll.length_le {words : List String} {lexemes : List Lexeme}
    (spelled : SpelledAll words lexemes) : words.length ≤ (spaced words).length := by
  have longer : ∀ {words lexemes}, SpelledAll words lexemes →
      words.length ≤ (behind words).length := by
    intro words lexemes spelled
    induction spelled with
    | nil => exact Nat.le_refl 0
    | cons first others ih =>
        simp only [behind, List.cons_append, List.length_cons, List.length_append]
        omega
  cases spelled with
  | nil => exact Nat.zero_le _
  | @cons word lexeme words lexemes first others =>
      obtain ⟨c, cs, letters, -⟩ := first
      have rest := longer others
      rw [← String.length_toList, toList_spaced, letters]
      simp only [List.cons_append, List.length_cons, List.length_append]
      omega

/-! ## Words -/

theorem takeWhile_apart {condition : Char → Bool} {word rest : List Char}
    (all : ∀ c ∈ word, condition c = true) (stops : condition ' ' = false) (apart : Apart rest) :
    (word ++ rest).takeWhile condition = word := by
  rw [List.takeWhile_append_of_pos all]
  rcases apart with rfl | ⟨more, rfl⟩ <;> simp [stops]

theorem dropWhile_apart {condition : Char → Bool} {word rest : List Char}
    (all : ∀ c ∈ word, condition c = true) (stops : condition ' ' = false) (apart : Apart rest) :
    (word ++ rest).dropWhile condition = rest := by
  rw [List.dropWhile_append_of_pos all]
  rcases apart with rfl | ⟨more, rfl⟩ <;> simp [stops]

/-- A word that starts with a letter or an underscore and goes on with letters, digits and
underscores. -/
theorem spelled_word {c : Char} {cs : List Char} (starts : (Text.isLetter c || c = '_') = true)
    (noDigit : Text.isDigit c = false) (all : ∀ d ∈ c :: cs, continuesWord d = true) :
    Spelled (String.ofList (c :: cs)) (wordLexeme (String.ofList (c :: cs))) := by
  refine ⟨c, cs, String.toList_ofList, fun rest position apart => ?_⟩
  have noBlank : c ≠ ' ' ∧ c ≠ '\t' ∧ c ≠ '#' := by
    refine ⟨?_, ?_, ?_⟩ <;> rintro rfl <;> cases starts
  have read : Scanner.word ⟨c :: cs ++ rest, position⟩ =
      (⟨wordLexeme (String.ofList (c :: cs)), ⟨position, position.advanceAll (c :: cs)⟩⟩,
        ⟨rest, position.advanceAll (c :: cs)⟩) := by
    rw [Scanner.word, skipWhile, takeWhile_apart all rfl apart, dropWhile_apart all rfl apart]
    rfl
  refine ⟨⟨position, position.advanceAll (c :: cs)⟩, position.advanceAll (c :: cs), ?_⟩
  rw [step, if_neg (by simp [noBlank]), if_neg noBlank.2.2, if_neg (by simp [noDigit]),
    if_pos starts, read]
  rfl

theorem spelled_keyword (k : Keyword) : Spelled k.word (.keyword k) := by
  have letters : ∃ c cs, k.word = String.ofList (c :: cs) ∧
      (Text.isLetter c || c = '_') = true ∧ Text.isDigit c = false ∧
      (c :: cs).all continuesWord = true := by
    cases k <;> exact ⟨_, _, rfl, rfl, rfl, rfl⟩
  obtain ⟨c, cs, same, starts, noDigit, all⟩ := letters
  have reserved : wordLexeme k.word = .keyword k := by cases k <;> rfl
  rw [← reserved, same]
  exact spelled_word starts noDigit (List.all_eq_true.mp all)

/-! ## Signs -/

/-- The word of a binary operator. -/
def binaryWord : BinaryOp → String
  | .add => "+"
  | .sub => "-"
  | .mul => "*"
  | .div => "/"
  | .mod => "MOD"
  | .pow doubled => if doubled then "**" else "^"
  | .equal => "=="
  | .notEqual => "!="
  | .less => "<"
  | .greater => ">"
  | .lessEqual => "<="
  | .greaterEqual => ">="
  | .and => "AND"
  | .or => "OR"

/-- The word of a unary operator. -/
def unaryWord : UnaryOp → String
  | .plus => "+"
  | .minus => "-"
  | .not => "NOT"

theorem spelled_leftParen : Spelled "(" .leftParen :=
  ⟨'(', [], rfl, fun _ _ _ => ⟨_, _, rfl⟩⟩

theorem spelled_rightParen : Spelled ")" .rightParen :=
  ⟨')', [], rfl, fun _ _ _ => ⟨_, _, rfl⟩⟩

theorem spelled_binary (op : BinaryOp) : Spelled (binaryWord op) op.lexeme := by
  cases op with
  | mod => exact spelled_keyword .modWord
  | and => exact spelled_keyword .andWord
  | or => exact spelled_keyword .orWord
  | pow doubled =>
      cases doubled with
      | true => exact ⟨'*', ['*'], rfl, fun _ _ _ => ⟨_, _, rfl⟩⟩
      | false => exact ⟨'^', [], rfl, fun _ _ _ => ⟨_, _, rfl⟩⟩
  | _ =>
      refine ⟨_, _, rfl, fun rest position apart => ?_⟩
      rcases apart with rfl | ⟨more, rfl⟩ <;> exact ⟨_, _, rfl⟩

theorem spelled_unary (op : UnaryOp) : Spelled (unaryWord op) op.lexeme := by
  cases op with
  | plus => exact spelled_binary .add
  | minus => exact spelled_binary .sub
  | not => exact spelled_keyword .notWord

/-! ## Numerals -/

/-- The character of a decimal digit. -/
def digitChar (d : Fin 10) : Char :=
  Nat.digitChar d

theorem isDigit_digitChar : ∀ d : Fin 10, Text.isDigit (digitChar d) = true := by
  decide

theorem decimalDigits?_digitChar (digits : List (Fin 10)) :
    Number.decimalDigits? (digits.map digitChar) = some (digits.map Fin.val) := by
  have one : ∀ d : Fin 10, Text.decimalValue? (digitChar d) = some d.val := by decide
  induction digits with
  | nil => rfl
  | cons d digits ih =>
      rw [Number.decimalDigits?] at ih ⊢
      rw [List.map_cons, List.mapM_cons, one, ih]
      rfl

theorem wholeLiteral_digitChar {digits : List (Fin 10)} (nonempty : digits ≠ [])
    (short : digits.length ≤ Number.digitLimit) :
    Number.wholeLiteral (digits.map digitChar) = .ok (Number.ofDigits (digits.map Fin.val)) := by
  rw [Number.wholeLiteral, decimalDigits?_digitChar]
  cases digits with
  | nil => contradiction
  | cons d digits => exact if_neg (by simpa using short)

/-- A run of digits is read as a number, since neither a point nor a letter follows. -/
theorem number_apart {word rest : List Char} {n : Nat} (all : ∀ c ∈ word, Text.isDigit c = true)
    (value : Number.wholeLiteral word = .ok n) (apart : Apart rest) (position : Position) :
    Scanner.number ⟨word ++ rest, position⟩ =
      .ok (⟨.int n, ⟨position, position.advanceAll word⟩⟩, ⟨rest, position.advanceAll word⟩) := by
  have skipped : skipNumber ⟨word ++ rest, position⟩ =
      (⟨rest, position.advanceAll word⟩, false) := by
    rw [skipNumber, skipWhile, takeWhile_apart all rfl apart, dropWhile_apart all rfl apart]
    rcases apart with rfl | ⟨more, rfl⟩ <;> rfl
  have noLetter : (rest.head?).any Text.isLetter = false := by
    rcases apart with rfl | ⟨more, rfl⟩ <;> rfl
  have literal : (word ++ rest).take ((word ++ rest).length - rest.length) = word := by
    simp
  simp only [Scanner.number, skipped, noLetter, literal, value]
  rfl

/-- A run of digits stands for the number that it is read as. -/
theorem spelled_number {word : List Char} (nonempty : word ≠ [])
    (all : ∀ c ∈ word, Text.isDigit c = true) {n : Nat}
    (value : Number.wholeLiteral word = .ok n) : Spelled (String.ofList word) (.int n) := by
  obtain ⟨c, cs, rfl⟩ := List.exists_cons_of_ne_nil nonempty
  refine ⟨c, cs, String.toList_ofList, fun rest position apart => ?_⟩
  have isDigit := all c List.mem_cons_self
  have noBlank : c ≠ ' ' ∧ c ≠ '\t' ∧ c ≠ '#' := by
    refine ⟨?_, ?_, ?_⟩ <;> rintro rfl <;> cases isDigit
  have read := number_apart all value apart position
  refine ⟨⟨position, position.advanceAll (c :: cs)⟩, position.advanceAll (c :: cs), ?_⟩
  rw [step, if_neg (by simp [noBlank]), if_neg noBlank.2.2, if_pos isDigit, read]
  rfl

/-- Decimal digits, at most as many as the limit, are read as the number they denote. -/
theorem spelled_digits {digits : List (Fin 10)} (nonempty : digits ≠ [])
    (short : digits.length ≤ Number.digitLimit) :
    Spelled (String.ofList (digits.map digitChar))
      (.int (Number.ofDigits (digits.map Fin.val))) := by
  refine spelled_number (mt List.map_eq_nil_iff.mp nonempty) ?_
    (wholeLiteral_digitChar nonempty short)
  intro c member
  obtain ⟨d, -, rfl⟩ := List.mem_map.mp member
  exact isDigit_digitChar d

end Scanner
end Pseudocode
