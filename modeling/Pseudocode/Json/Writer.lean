import Pseudocode.Json.Basic
import Pseudocode.Number.Layout

/-!
# Writing documents

Every item and every property stands on a line of its own, two blanks deeper than the bracket before
it.  Texts are written in ASCII: other code points are escaped by their UTF-16 units.
-/

namespace Pseudocode
namespace Json

/-- Four hexadecimal digits. -/
def hexUnit (unit : Nat) : String :=
  let digits := String.ofList (Nat.toDigits 16 unit)
  Number.zeros (4 - digits.length) ++ digits

/-- The escape of a code unit. -/
def writeUnit (unit : Nat) : String :=
  "\\u" ++ hexUnit unit

/-- A code point inside a text. -/
def writePoint (point : Nat) : String :=
  if point = 34 then "\\\""
  else if point = 92 then "\\\\"
  else if point = 10 then "\\n"
  else if point = 13 then "\\r"
  else if point = 9 then "\\t"
  else if point = 12 then "\\f"
  else if point = 8 then "\\b"
  else if 32 ≤ point && point < 127 then String.singleton (Char.ofNat point)
  else if point < 0x10000 then writeUnit point
  else
    let offset := point - 0x10000
    writeUnit (0xD800 + offset / 0x400) ++ writeUnit (0xDC00 + offset % 0x400)

/-- A text in quotes. -/
def writeText (points : List Nat) : String :=
  "\"" ++ String.join (points.map writePoint) ++ "\""

/-- A double; the special values have names of their own. -/
def writeReal (x : Float) : String :=
  match Number.Binary.ofFloat x with
  | .nan => "NaN"
  | .infinite negative => if negative then "-Infinity" else "Infinity"
  | finite => Number.realLayout.binary finite

/-- A line end and the blanks of a depth. -/
def lineBreak (depth : Nat) : String :=
  "\n" ++ String.ofList (List.replicate (2 * depth) ' ')

mutual

/-- Write a document at a depth. -/
def writeAt (depth : Nat) : Json → String
  | null => "null"
  | bool b => if b then "true" else "false"
  | int n => toString n
  | real x => writeReal x
  | text points => writeText points
  | array [] => "[]"
  | array (first :: rest) =>
      "[" ++ lineBreak (depth + 1) ++ writeAt (depth + 1) first ++ writeItems (depth + 1) rest ++
        lineBreak depth ++ "]"
  | object [] => "\x7b\x7d"
  | object ((name, first) :: rest) =>
      "\x7b" ++ lineBreak (depth + 1) ++ writeText name ++ ": " ++ writeAt (depth + 1) first ++
        writeProperties (depth + 1) rest ++ lineBreak depth ++ "\x7d"

/-- Write further items of an array. -/
def writeItems (depth : Nat) : List Json → String
  | [] => ""
  | first :: rest => "," ++ lineBreak depth ++ writeAt depth first ++ writeItems depth rest

/-- Write further properties of an object. -/
def writeProperties (depth : Nat) : List (List Nat × Json) → String
  | [] => ""
  | (name, first) :: rest =>
      "," ++ lineBreak depth ++ writeText name ++ ": " ++ writeAt depth first ++
        writeProperties depth rest

end

/-- Write a document as the content of a file. -/
def write (j : Json) : String :=
  writeAt 0 j

end Json
end Pseudocode
