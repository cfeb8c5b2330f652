import Pseudocode.Number.Basic
import Pseudocode.Source

/-!
# Tokens

A token is a lexeme with its place.  The words `TRUE` and `FALSE` are keywords until the parser has
read them as truth values; from then on they no longer count as keywords.
-/

namespace Pseudocode

/-- The reserved words. -/
inductive Keyword where
  | varWord
  | trueWord
  | falseWord
  | andWord
  | orWord
  | notWord
  | modWord
  | ifWord
  | thenWord
  | elifWord
  | elseWord
  | forWord
  | eachWord
  | inWord
  | whileWord
  | repeatWord
  | untilWord
  | timesWord
  | toWord
  | procedureWord
  | endWord
  | returnWord
  | continueWord
  | breakWord
  deriving DecidableEq, Repr

namespace Keyword

/-- All reserved words. -/
def all : List Keyword :=
  [.varWord, .trueWord, .falseWord, .andWord, .orWord, .notWord, .modWord, .ifWord, .thenWord,
    .elifWord, .elseWord, .forWord, .eachWord, .inWord, .whileWord, .repeatWord, .untilWord,
    .timesWord, .toWord, .procedureWord, .endWord, .returnWord, .continueWord, .breakWord]

/-- The spelling of a reserved word. -/
def word : Keyword → String
  | .varWord => "VAR"
  | .trueWord => "TRUE"
  | .falseWord => "FALSE"
  | .andWord => "AND"
  | .orWord => "OR"
  | .notWord => "NOT"
  | .modWord => "MOD"
  | .ifWord => "IF"
  | .thenWord => "THEN"
  | .elifWord => "ELIF"
  | .elseWord => "ELSE"
  | .forWord => "FOR"
  | .eachWord => "EACH"
  | .inWord => "IN"
  | .whileWord => "WHILE"
  | .repeatWord => "REPEAT"
  | .untilWord => "UNTIL"
  | .timesWord => "TIMES"
  | .toWord => "TO"
  | .procedureWord => "PROCEDURE"
  | .endWord => "END"
  | .returnWord => "RETURN"
  | .continueWord => "CONTINUE"
  | .breakWord => "BREAK"

/-- The reserved word with a spelling. -/
def ofWord? (word : String) : Option Keyword :=
  all.find? fun k => k.word = word

end Keyword

/-- The lexemes of the language. -/
inductive Lexeme where
  /-- A whole number. -/
  | int (n : Nat)
  /-- A number with a point. -/
  | float (x : Float)
  /-- A text. -/
  | string (s : String)
  /-- A name. -/
  | name (s : String)
  /-- A reserved word. -/
  | keyword (k : Keyword)
  /-- One of the words `TRUE` and `FALSE` after it has been read as a truth value. -/
  | truth (b : Bool)
  | plus
  | minus
  | star
  | slash
  /-- The power operator, in its one-character or its two-character spelling. -/
  | power (doubled : Bool)
  /-- The assignment sign. -/
  | assign
  | leftParen
  | rightParen
  | leftBracket
  | rightBracket
  | leftBrace
  | rightBrace
  | equal
  | notEqual
  | less
  | greater
  | lessEqual
  | greaterEqual
  | comma
  | arrow
  | newline
  | eof

/-- The value that a token carries. -/
inductive Scalar where
  | none
  | number (n : Number)
  | text (s : String)
  | truth (b : Bool)

namespace Lexeme

/-- The name of the type of a lexeme. -/
def typeName : Lexeme → String
  | int _ => "INT"
  | float _ => "FLOAT"
  | string _ => "STRING"
  | name _ => "IDENTIFIER"
  | keyword _ => "KEYWORD"
  | truth _ => "KEYWORD"
  | plus => "PLUS"
  | minus => "MINUS"
  | star => "MUL"
  | slash => "DIV"
  | power _ => "POW"
  | assign => "EQ"
  | leftParen => "LPAREN"
  | rightParen => "RPAREN"
  | leftBracket => "LSQUARE"
  | rightBracket => "RSQUARE"
  | leftBrace => "LCURL"
  | rightBrace => "RCURL"
  | equal => "EE"
  | notEqual => "NE"
  | less => "LT"
  | greater => "GT"
  | lessEqual => "LTE"
  | greaterEqual => "GTE"
  | comma => "COMMA"
  | arrow => "ARROW"
  | newline => "NEWLINE"
  | eof => "EOF"

/-- The value of a lexeme. -/
def value : Lexeme → Scalar
  | int n => .number (.whole n)
  | float x => .number (.real x)
  | string s => .text s
  | name s => .text s
  | keyword k => .text k.word
  | truth b => .truth b
  | power doubled => if doubled then .text "**" else .none
  | _ => .none

/-- Whether a lexeme is the given reserved word. -/
def isKeyword (k : Keyword) : Lexeme → Bool
  | keyword k' => k = k'
  | _ => false

/-- Whether a lexeme is a name. -/
def isName : Lexeme → Bool
  | name _ => true
  | _ => false

end Lexeme

/-- The text of a truth value. -/
def truthText (b : Bool) : String :=
  if b then "True" else "False"

/-- The text of a value that counts as true; zero, the empty text and false have none. -/
def Scalar.text? : Scalar → Option String
  | .none => Option.none
  | .number n => if n.isTrue then some (n.text?.getD "") else Option.none
  | .text s => if s.isEmpty then Option.none else some s
  | .truth b => if b then some (truthText b) else Option.none

/-- A lexeme with its place. -/
structure Token where
  /-- The lexeme. -/
  lexeme : Lexeme
  /-- The stretch of the source it was read from. -/
  span : Span

namespace Token

/-- A token of one character, given by its first place. -/
def single (lexeme : Lexeme) (start : Position) : Token :=
  ⟨lexeme, ⟨start, start.bump⟩⟩

/-- The text of a token: its type and, if it counts as true, its value. -/
def render (t : Token) : String :=
  match t.lexeme.value.text? with
  | some text => t.lexeme.typeName ++ ":" ++ text
  | none => t.lexeme.typeName

/-- Whether a token is the given reserved word. -/
def isKeyword (t : Token) (k : Keyword) : Bool :=
  t.lexeme.isKeyword k

end Token
end Pseudocode
