import Pseudocode.Proofs.Scanning.Spelling

/-!
# Reading what was written

Every lexeme that a program can hold, apart from the numbers with a point and the doubled power
sign, has a canonical spelling.  Lexemes written in their spellings with one space between
neighbours are read back, whatever texts are among them.
-/

namespace Pseudocode

/-! ## Canonical spellings -/

namespace Lexeme

/-- A character in a text: a quote and a backslash are escaped, all others stand for themselves. -/
def escape (c : Char) : List Char :=
  if c = '"' ∨ c = '\\' then ['\\', c] else [c]

/-- A text in quotes. -/
def quoted (s : String) : String :=
  String.ofList ('"' :: s.toList.flatMap escape ++ ['"'])

/-- Whether a character is an ASCII letter, an ASCII digit or an underscore. -/
def isPlain (c : Char) : Bool :=
  c.isAlphanum || c = '_'

/-- Whether a text is a name of plain characters: no digit comes first, and it is not reserved. -/
def isIdentifier (s : String) : Bool :=
  match s.toList with
  | [] => false
  | c :: cs => !c.isDigit && (c :: cs).all isPlain && (Keyword.ofWord? s).isNone

/-- The canonical spellings of a lexeme.  Only the assignment sign has more than one. -/
def spellings : Lexeme → List String
  | int n => if n.repr.length ≤ Number.digitLimit then [n.repr] else []
  | string s => [quoted s]
  | name s => if isIdentifier s then [s] else []
  | keyword k => [k.word]
  | plus => ["+"]
  | minus => ["-"]
  | star => ["*"]
  | slash => ["/"]
  | power false => ["^"]
  | assign => ["=", "<-", "←"]
  | leftParen => ["("]
  | rightParen => [")"]
  | leftBracket => ["["]
  | rightBracket => ["]"]
  | leftBrace => ["\x7b"]
  | rightBrace => ["\x7d"]
  | equal => ["=="]
  | notEqual => ["!="]
  | less => ["<"]
  | greater => [">"]
  | lessEqual => ["<="]
  | greaterEqual => [">="]
  | comma => [","]
  | newline => ["\n"]
  | _ => []

end Lexeme

/-- A lexeme in one of its spellings. -/
structure Written where
  /-- The lexeme. -/
  lexeme : Lexeme
  /-- How it is written. -/
  word : String
  isSpelling : word ∈ lexeme.spellings

namespace Scanner

open Lexeme

/-! ## Numbers and names -/

theorem ascii_of_isPlain {c : Char} (plain : isPlain c = true) : c.toNat < 128 := by
  delta isPlain Char.isAlphanum Char.isAlpha Char.isUpper Char.isLower Char.isDigit at plain
  simp only [Bool.or_eq_true, Bool.and_eq_true, decide_eq_true_eq, UInt32.le_iff_toNat_le] at plain
  have last : 'Z'.val.toNat = 90 ∧ 'z'.val.toNat = 122 ∧ '9'.val.toNat = 57 := ⟨rfl, rfl, rfl⟩
  obtain inRange | rfl := plain
  · change c.val.toNat < 128
    omega
  · decide

theorem isDigit_eq {c : Char} (plain : isPlain c = true) : Text.isDigit c = c.isDigit :=
  Text.classify_of_lt (ascii_of_isPlain plain)

theorem isPlain_of_isDigit {c : Char} (isDigit : c.isDigit = true) : isPlain c = true := by
  simp [isPlain, Char.isAlphanum, isDigit]

theorem decimalDigits?_of_isDigit {word : List Char} (all : ∀ c ∈ word, c.isDigit = true) :
    Number.decimalDigits? word = some (word.map fun c => c.toNat - '0'.toNat) := by
  induction word with
  | nil => rfl
  | cons c cs ih =>
      obtain ⟨isDigit, others⟩ := List.forall_mem_cons.mp all
      have value : Text.decimalValue? c = some (c.toNat - '0'.toNat) := by
        have ascii := ascii_of_isPlain (isPlain_of_isDigit isDigit)
        rw [Text.decimalValue?, if_pos ascii, if_pos isDigit]
      have rest := ih others
      rw [Number.decimalDigits?] at rest ⊢
      rw [List.mapM_cons, value, rest]
      rfl

/-- The decimal digits of a number are read as the number. -/
theorem wholeLiteral_toDigits {n : Nat} (short : (Nat.toDigits 10 n).length ≤ Number.digitLimit) :
    Number.wholeLiteral (Nat.toDigits 10 n) = .ok n := by
  have value := Number.ofDigits_toDigits n
  have all : ∀ c ∈ Nat.toDigits 10 n, c.isDigit = true := fun c member =>
    Nat.isDigit_of_mem_toDigits (by decide) (by decide) member
  have nonempty : Nat.toDigits 10 n ≠ [] := Nat.toDigits_ne_nil
  rw [Number.wholeLiteral, decimalDigits?_of_isDigit all]
  cases digits : Nat.toDigits 10 n with
  | nil => exact absurd digits nonempty
  | cons c cs =>
      rw [digits] at short value
      rw [← value]
      exact if_neg (by simpa using short)

theorem spelled_repr {n : Nat} (short : n.repr.length ≤ Number.digitLimit) :
    Spelled n.repr (.int n) := by
  rw [← String.length_toList, Nat.toList_repr] at short
  have all : ∀ c ∈ Nat.toDigits 10 n, Text.isDigit c = true := by
    intro c member
    have isDigit := Nat.isDigit_of_mem_toDigits (by decide) (by decide) member
    rw [isDigit_eq (isPlain_of_isDigit isDigit), isDigit]
  have spelled := spelled_number Nat.toDigits_ne_nil all (wholeLiteral_toDigits short)
  rwa [← Nat.toList_repr, String.ofList_toList] at spelled

theorem spelled_identifier {s : String} (identifier : isIdentifier s = true) :
    Spelled s (.name s) := by
  unfold isIdentifier at identifier
  cases letters : s.toList with
  | nil => simp [letters] at identifier
  | cons c cs =>
      simp only [letters, Bool.and_eq_true, Bool.not_eq_true', List.all_eq_true,
        Option.isNone_iff_eq_none] at identifier
      obtain ⟨⟨noDigit, all⟩, noKeyword⟩ := identifier
      have name : wordLexeme s = .name s := by rw [wordLexeme, noKeyword]
      have same : s = String.ofList (c :: cs) := by rw [← letters, String.ofList_toList]
      have plain := all c List.mem_cons_self
      rw [← name, same]
      refine spelled_word ?_ (isDigit_eq plain ▸ noDigit) fun d member => ?_
      · rw [Text.isLetter, Text.classify_of_lt (ascii_of_isPlain plain)]
        simpa [isPlain, Char.isAlphanum, noDigit] using plain
      · have plain := all d member
        rwa [continuesWord, Text.isWordChar, Text.classify_of_lt (ascii_of_isPlain plain)]

/-! ## Texts -/

/-- The characters of a text are read back up to the quote that closes it. -/
theorem textBody_escape (chars read rest : List Char) (p : Position) :
    textBody false read (chars.flatMap escape ++ '"' :: rest) p =
      (read.reverse ++ chars, ⟨'"' :: rest, p.advanceAll (chars.flatMap escape)⟩) := by
  induction chars generalizing read p with
  | nil => simp [textBody]
  | cons c cs ih =>
      by_cases special : c = '"' ∨ c = '\\'
      · have escapes : escape c = ['\\', c] := if_pos special
        have stands : unescape c = c := by obtain rfl | rfl := special <;> rfl
        rw [List.flatMap_cons, escapes]
        simp [textBody, ih, stands]
      · have escapes : escape c = [c] := if_neg special
        obtain ⟨noQuote, noBackslash⟩ := not_or.mp special
        rw [List.flatMap_cons, escapes]
        simp [textBody, ih, noQuote, noBackslash]

theorem spelled_quoted (s : String) : Spelled (quoted s) (.string s) := by
  refine ⟨'"', s.toList.flatMap escape ++ ['"'], String.toList_ofList, fun rest p _ => ?_⟩
  have reads := textBody_escape s.toList [] rest (p.advance '"')
  have same : '"' :: (s.toList.flatMap escape ++ ['"']) ++ rest =
      '"' :: (s.toList.flatMap escape ++ '"' :: rest) := by simp
  rw [same]
  change ∃ span after, found (text ⟨'"' :: (s.toList.flatMap escape ++ '"' :: rest), p⟩) = _
  simp only [text, advance, reads, List.reverse_nil, List.nil_append, String.ofList_toList]
  exact ⟨_, _, rfl⟩

/-! ## Programs of lexemes -/

/-- A sign that is read in front of the end and in front of a space. -/
theorem spelled_sign {c : Char} {cs : List Char} {lexeme : Lexeme}
    (reads : ∀ more p,
      (∃ span after, step ⟨c :: cs, p⟩ c = .ok (some ⟨lexeme, span⟩, ⟨[], after⟩)) ∧
      ∃ span after, step ⟨c :: (cs ++ ' ' :: more), p⟩ c =
        .ok (some ⟨lexeme, span⟩, ⟨' ' :: more, after⟩)) :
    Spelled (String.ofList (c :: cs)) lexeme := by
  refine ⟨c, cs, String.toList_ofList, fun rest p apart => ?_⟩
  obtain rfl | ⟨more, rfl⟩ := apart
  · rw [List.append_nil]
    exact (reads [] p).1
  · exact (reads more p).2

/-- The only sign that is no ASCII character is neither a digit nor a letter. -/
theorem step_leftArrow (rest : List Char) (p : Position) :
    step ⟨'←' :: rest, p⟩ '←' = .ok (some (.single .assign p), ⟨rest, p.advance '←'⟩) := by
  have noDigit : Text.isDigit '←' = false := by decide +kernel
  have noLetter : Text.isLetter '←' = false := by decide +kernel
  simp only [step, noDigit, noLetter]
  rfl

theorem spelled_of_mem {lexeme : Lexeme} {word : String} (isSpelling : word ∈ lexeme.spellings) :
    Spelled word lexeme := by
  cases lexeme with
  | int n =>
      rw [spellings] at isSpelling
      split at isSpelling
      · next short => exact List.mem_singleton.mp isSpelling ▸ spelled_repr short
      · cases isSpelling
  | string s => exact List.mem_singleton.mp isSpelling ▸ spelled_quoted s
  | name s =>
      rw [spellings] at isSpelling
      split at isSpelling
      · next identifier =>
          rw [List.mem_singleton.mp isSpelling]
          exact spelled_identifier identifier
      · cases isSpelling
  | keyword k => exact List.mem_singleton.mp isSpelling ▸ spelled_keyword k
  | power doubled =>
      cases doubled with
      | false => exact List.mem_singleton.mp isSpelling ▸ spelled_binary (.pow false)
      | true => cases isSpelling
  | assign =>
      simp only [spellings, List.mem_cons, List.not_mem_nil, or_false] at isSpelling
      obtain rfl | rfl | rfl := isSpelling
      · exact spelled_sign fun _ _ => ⟨⟨_, _, rfl⟩, ⟨_, _, rfl⟩⟩
      · exact spelled_sign fun _ _ => ⟨⟨_, _, rfl⟩, ⟨_, _, rfl⟩⟩
      · exact spelled_sign fun _ _ => ⟨⟨_, _, step_leftArrow _ _⟩, ⟨_, _, step_leftArrow _ _⟩⟩
  | float | truth | arrow | eof => cases isSpelling
  | _ =>
      rw [List.mem_singleton.mp isSpelling]
      exact spelled_sign fun _ _ => ⟨⟨_, _, rfl⟩, ⟨_, _, rfl⟩⟩

/-- Lexemes in their spellings with one space between neighbours are read back in order. -/
theorem tokens_written (items : List Written) (file : String) :
    ∃ tokens, Source.tokens ⟨file, spaced (items.map (·.word))⟩ = .ok tokens ∧
      tokens.map (·.lexeme) = items.map (·.lexeme) ++ [.eof] := by
  have spelled : SpelledAll (items.map (·.word)) (items.map (·.lexeme)) := by
    induction items with
    | nil => exact .nil
    | cons item items ih => exact .cons (spelled_of_mem item.isSpelling) ih
  exact tokens_spaced spelled file

end Scanner

end Pseudocode
