/-!
# Malformed documents

What can be wrong with the text of a document, and where.
-/

namespace Pseudocode
namespace Json

/-- The ways in which a text fails to be a document. -/
inductive Problem where
  /-- A value should start here. -/
  | value
  /-- A comma or the end of the array or object should stand here. -/
  | comma
  /-- A colon should stand here. -/
  | colon
  /-- The quote that opens a property name should stand here. -/
  | propertyName
  /-- Something follows the document. -/
  | extraData
  /-- The string that starts here is not closed. -/
  | unterminated
  /-- A control character inside a string. -/
  | controlCharacter
  /-- An unknown escape. -/
  | escape
  /-- An escape for a code unit without its four digits. -/
  | unitEscape
  /-- The text starts with a byte order mark. -/
  | byteOrderMark
  deriving DecidableEq, Repr

/-- The words for a problem. -/
def Problem.message : Problem → String
  | .value => "Expecting value"
  | .comma => "Expecting ',' delimiter"
  | .colon => "Expecting ':' delimiter"
  | .propertyName => "Expecting property name enclosed in double quotes"
  | .extraData => "Extra data"
  | .unterminated => "Unterminated string starting at"
  | .controlCharacter => "Invalid control character at"
  | .escape => "Invalid \\escape"
  | .unitEscape => "Invalid \\uXXXX escape"
  | .byteOrderMark => "Unexpected UTF-8 BOM (decode using utf-8-sig)"

/-- A problem with its place in the text. -/
structure Complaint where
  /-- What is wrong. -/
  problem : Problem
  /-- The line, counted from one. -/
  line : Nat
  /-- The column in the line, counted from one. -/
  column : Nat
  /-- The offset in the text, counted from zero. -/
  offset : Nat
  deriving DecidableEq, Repr

/-- The words for a complaint: the problem, then its place in three ways. -/
def Complaint.message (c : Complaint) : String :=
  s!"{c.problem.message}: line {c.line} column {c.column} (char {c.offset})"

end Json
end Pseudocode
