import Pseudocode.Diagnostic
import Pseudocode.Number.Read
import Pseudocode.Text.Numeral
import Pseudocode.Token

/-!
# From text to tokens

A scanner holds the rest of the text and the place it has reached.  Every step takes characters off
the front of the rest; the place moves with each of them.  Past the end of the text the place still
moves, one column per step.

Numbers and words overlap: when a letter follows the digits, the whole run is a word.  A comment
ends with its line end, which belongs to it.  A text that is not closed ends with the program.
-/

namespace Pseudocode

/-- The rest of a text and the place where it starts. -/
structure Scanner where
  /-- The characters that have not been read. -/
  rest : List Char
  /-- The place of the first of them. -/
  position : Position

namespace Scanner

/-- A scanner at the start of a source. -/
def start (source : Source) : Scanner :=
  ⟨source.text.toList, .start source⟩

/-- Step over one character, or past the end. -/
def advance : Scanner → Scanner
  | ⟨[], p⟩ => ⟨[], p.bump⟩
  | ⟨c :: rest, p⟩ => ⟨rest, p.advance c⟩

/-- Step over the characters that satisfy a condition. -/
def skipWhile (condition : Char → Bool) (s : Scanner) : Scanner :=
  ⟨s.rest.dropWhile condition, s.position.advanceAll (s.rest.takeWhile condition)⟩

/-- The token from the place of one scanner to that of another. -/
def tokenTo (first last : Scanner) (lexeme : Lexeme) : Token :=
  ⟨lexeme, ⟨first.position, last.position⟩⟩

/-- Whether a character continues a word. -/
def continuesWord (c : Char) : Bool :=
  Text.isWordChar c || c = '_'

/-- The lexeme of a word: a reserved word or a name. -/
def wordLexeme (word : String) : Lexeme :=
  match Keyword.ofWord? word with
  | some keyword => .keyword keyword
  | none => .name word

/-- Read a word. -/
def word (s : Scanner) : Token × Scanner :=
  let after := s.skipWhile continuesWord
  let text := String.ofList (s.rest.takeWhile continuesWord)
  (s.tokenTo after (wordLexeme text), after)

/-- Step over digits and, if a point follows them, over the point and the digits after it.  The
second part tells whether there was a point. -/
def skipNumber (s : Scanner) : Scanner × Bool :=
  let whole := s.skipWhile Text.isDigit
  match whole.rest with
  | '.' :: _ => (whole.advance.skipWhile Text.isDigit, true)
  | _ => (whole, false)

/-- Read a number, or a word that starts with digits. -/
def number (s : Scanner) : Except Fault (Token × Scanner) :=
  let (after, pointed) := s.skipNumber
  if (after.rest.head?).any Text.isLetter then .ok s.word
  else
    let literal := s.rest.take (s.rest.length - after.rest.length)
    if pointed then do return (s.tokenTo after (.float (← Number.realLiteral literal)), after)
    else do return (s.tokenTo after (.int (← Number.wholeLiteral literal)), after)

/-- The character that an escape stands for. -/
def unescape : Char → Char
  | 'n' => '\n'
  | 't' => '\t'
  | c => c

/-- Read the characters of a text up to its closing quote or the end of the program.  A backslash
escapes the character after it. -/
def textBody (escaped : Bool) (read : List Char) : List Char → Position → List Char × Scanner
  | [], p => (read.reverse, ⟨[], p⟩)
  | c :: rest, p =>
      if escaped then textBody false (unescape c :: read) rest (p.advance c)
      else if c = '"' then (read.reverse, ⟨c :: rest, p⟩)
      else if c = '\\' then textBody true read rest (p.advance c)
      else textBody false (c :: read) rest (p.advance c)

/-- Read a text; the scanner stands at its opening quote. -/
def text (s : Scanner) : Token × Scanner :=
  let opened := s.advance
  let (chars, closing) := textBody false [] opened.rest opened.position
  let after := closing.advance
  (s.tokenTo after (.string (String.ofList chars)), after)

/-- Read a minus sign, or an arrow when a greater sign follows. -/
def minusOrArrow (s : Scanner) : Token × Scanner :=
  let after := s.advance
  match after.rest with
  | '>' :: _ => (s.tokenTo after.advance .arrow, after.advance)
  | _ => (s.tokenTo after .minus, after)

/-- Read an inequality sign; the exclamation mark alone is an error. -/
def notEqual (s : Scanner) : Except Diagnostic Token × Scanner :=
  let after := s.advance
  match after.rest with
  | '=' :: _ => (.ok (s.tokenTo after.advance .notEqual), after.advance)
  | _ => (.error ⟨.loneExclamation, some ⟨s.position, after.advance.position⟩⟩, after.advance)

/-- Read an assignment sign, or an equality sign when it is doubled. -/
def equals (s : Scanner) : Token × Scanner :=
  let after := s.advance
  match after.rest with
  | '=' :: _ => (s.tokenTo after.advance .equal, after.advance)
  | _ => (s.tokenTo after .assign, after)

/-- Read a less sign, its weak form, or the assignment sign made of a less sign and a minus sign. -/
def lessThan (s : Scanner) : Token × Scanner :=
  let after := s.advance
  match after.rest with
  | '=' :: _ => (s.tokenTo after.advance .lessEqual, after.advance)
  | '-' :: _ => (s.tokenTo after.advance .assign, after.advance)
  | _ => (s.tokenTo after .less, after)

/-- Read a greater sign or its weak form. -/
def greaterThan (s : Scanner) : Token × Scanner :=
  let after := s.advance
  match after.rest with
  | '=' :: _ => (s.tokenTo after.advance .greaterEqual, after.advance)
  | _ => (s.tokenTo after .greater, after)

/-- Read a star, or the power sign when it is doubled. -/
def star (s : Scanner) : Token × Scanner :=
  let after := s.advance
  match after.rest with
  | '*' :: _ => (s.tokenTo after.advance (.power true), after.advance)
  | _ => (.single .star s.position, after)

/-- Step over a comment and the line end that closes it. -/
def skipComment (s : Scanner) : Scanner :=
  let lineEnd := s.skipWhile (· ≠ '\n')
  match lineEnd.rest with
  | [] => lineEnd
  | _ :: _ => lineEnd.advance

/-- The lexemes that are single characters. -/
def single? : Char → Option Lexeme
  | '\n' => some .newline
  | '+' => some .plus
  | '-' => some .minus
  | '/' => some .slash
  | '%' => some (.keyword .modWord)
  | '^' => some (.power false)
  | '(' => some .leftParen
  | ')' => some .rightParen
  | '[' => some .leftBracket
  | ']' => some .rightBracket
  | '{' => some .leftBrace
  | '}' => some .rightBrace
  | '←' => some .assign
  | ',' => some .comma
  | _ => none

/-- A token and the scanner after it, as the result of a step. -/
def found (result : Token × Scanner) : Except Stop (Option Token × Scanner) :=
  .ok (some result.1, result.2)

/-- Read the next token, or step over a blank or a comment; `c` is the next character. -/
def step (s : Scanner) (c : Char) : Except Stop (Option Token × Scanner) :=
  if c = ' ' || c = '\t' then .ok (none, s.advance)
  else if c = '#' then .ok (none, s.skipComment)
  else if Text.isDigit c then
    match s.number with
    | .ok result => found result
    | .error fault => .error (.fault fault)
  else if Text.isLetter c || c = '_' then found s.word
  else if c = '"' then found s.text
  else if c = '*' then found s.star
  else if c = '!' then
    match s.notEqual with
    | (.ok token, after) => found (token, after)
    | (.error diagnostic, _) => .error (.error diagnostic)
  else if c = '=' then found s.equals
  else if c = '<' then found s.lessThan
  else if c = '>' then found s.greaterThan
  else
    match single? c with
    | some lexeme => found (.single lexeme s.position, s.advance)
    | none =>
        .error (.error ⟨.illegalCharacter c, some ⟨s.position, s.advance.position⟩⟩)

/-- Read at most `fuel` steps.  The tokens end with a mark for the end of the program. -/
def tokensWithin : Nat → Scanner → Except Stop (List Token)
  | 0, s => .ok [.single .eof s.position]
  | fuel + 1, s =>
      match s.rest with
      | [] => .ok [.single .eof s.position]
      | c :: _ => do
          let (token?, after) ← s.step c
          let tokens ← tokensWithin fuel after
          return token?.toList ++ tokens

/-- Read all tokens.  Every step takes a character off the rest, so the length of the rest is enough
fuel. -/
def tokens (s : Scanner) : Except Stop (List Token) :=
  tokensWithin s.rest.length s

end Scanner

/-- The tokens of a source. -/
def Source.tokens (source : Source) : Except Stop (List Token) :=
  (Scanner.start source).tokens

end Pseudocode
