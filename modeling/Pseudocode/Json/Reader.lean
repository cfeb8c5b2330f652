import Pseudocode.Json.Basic
import Pseudocode.Number.Read
import Pseudocode.Text.Lines

/-!
# Reading documents

The reader works on the rest of the text.  Where it cannot go on it says what it missed and how many
characters were left; the place in the text follows from that.  Besides the numbers of the format it
accepts `NaN` and the two infinities.
-/

namespace Pseudocode
namespace Json

/-- Why reading stops: a problem with the number of characters left at its place, or a whole number
with too many digits. -/
inductive Snag where
  | problem (what : Problem) (left : Nat)
  | digits (count : Nat)

/-- Stop before the given rest of the text. -/
def stop {α : Type} (what : Problem) (rest : List Char) : Except Snag α :=
  .error (.problem what rest.length)

/-- Whether a character is blank between the parts of a document. -/
def isSpace (c : Char) : Bool :=
  c = ' ' || c = '\t' || c = '\n' || c = '\r'

/-- Step over blanks. -/
def skipSpace (rest : List Char) : List Char :=
  rest.dropWhile isSpace

/-! ## Numbers -/

/-- Step over the whole part of a number: a zero, or digits that do not start with one. -/
def wholePart : List Char → Option (List Char × List Char)
  | '0' :: rest => some (['0'], rest)
  | c :: rest =>
      if c.isDigit then some (c :: rest.takeWhile Char.isDigit, rest.dropWhile Char.isDigit)
      else none
  | [] => none

/-- Step over a point and the digits after it; without a digit there is no fraction. -/
def fractionPart : List Char → List Char × List Char
  | '.' :: c :: rest =>
      if c.isDigit then (c :: rest.takeWhile Char.isDigit, rest.dropWhile Char.isDigit)
      else ([], '.' :: c :: rest)
  | rest => ([], rest)

/-- Step over an exponent; without a digit there is none. -/
def exponentPart (start : List Char) : Option (Bool × List Char) × List Char :=
  match start with
  | c :: rest =>
      if Number.isExponentMark c then
        let (negative, rest) := Number.splitSign rest
        let digits := rest.takeWhile Char.isDigit
        if digits.isEmpty then (none, start)
        else (some (negative, digits), rest.dropWhile Char.isDigit)
      else (none, start)
  | [] => (none, start)

/-- The value of ASCII digits. -/
def digitsValue (digits : List Char) : Nat :=
  Number.ofDigits (digits.map fun c => c.toNat - '0'.toNat)

/-- Read a number; `start` is the text at its first character, sign included. -/
def number (start : List Char) : Except Snag (Json × List Char) :=
  let (negative, body) := match start with
    | '-' :: rest => (true, rest)
    | _ => (false, start)
  match wholePart body with
  | none => stop .value start
  | some (whole, rest) =>
      let (fraction, rest) := fractionPart rest
      let (exponent, rest) := exponentPart rest
      if fraction.isEmpty && exponent.isNone then
        if Number.digitLimit < whole.length then .error (.digits whole.length)
        else .ok (.int (Number.signed negative (digitsValue whole)), rest)
      else
        let power := match exponent with
          | some (minus, digits) =>
              Number.signed minus (min (digitsValue ((digits.dropWhile (· = '0')).take 9)) 99999)
          | none => 0
        let value :=
          Number.ofDecimal negative (digitsValue (whole ++ fraction)) (power - fraction.length)
        .ok (.real value, rest)

/-! ## Texts -/

/-- The value of a hexadecimal digit. -/
def hexValue? (c : Char) : Option Nat :=
  if c.isDigit then some (c.toNat - '0'.toNat)
  else if 'a' ≤ c && c ≤ 'f' then some (c.toNat - 'a'.toNat + 10)
  else if 'A' ≤ c && c ≤ 'F' then some (c.toNat - 'A'.toNat + 10)
  else none

/-- The code unit of four hexadecimal digits. -/
def unit? (digits : List Char) : Option Nat := do
  let values ← digits.mapM hexValue?
  return values.foldl (fun n digit => 16 * n + digit) 0

/-- Whether a code unit is the first half of a pair. -/
def isHighSurrogate (unit : Nat) : Bool :=
  0xD800 ≤ unit && unit ≤ 0xDBFF

/-- Whether a code unit is the second half of a pair. -/
def isLowSurrogate (unit : Nat) : Bool :=
  0xDC00 ≤ unit && unit ≤ 0xDFFF

/-- The code point of a pair. -/
def joinSurrogates (high low : Nat) : Nat :=
  0x10000 + (high - 0xD800) * 0x400 + (low - 0xDC00)

/-- Read the four digits of an escape; `rest` starts after the letter.  At least one character has
to follow the digits. -/
def unitEscape (rest : List Char) : Except Snag (Nat × List Char) :=
  let snag : Except Snag (Nat × List Char) := .error (.problem .unitEscape (rest.length + 1))
  if rest.length ≤ 4 then snag
  else
    match unit? (rest.take 4) with
    | some unit => .ok (unit, rest.drop 4)
    | none => snag

/-- Read a second escape after the first half of a pair.  It is used up only if it is the second
half; otherwise it is read again as an escape of its own. -/
def pairEscape (high : Nat) (rest : List Char) : Except Snag (Nat × List Char) :=
  match rest with
  | '\\' :: 'u' :: more =>
      if more.length ≤ 4 then .ok (high, rest)
      else do
        let (low, after) ← unitEscape more
        if isLowSurrogate low then .ok (joinSurrogates high low, after) else .ok (high, rest)
  | _ => .ok (high, rest)

/-- The character that a one-letter escape stands for. -/
def letterEscape? : Char → Option Nat
  | '"' => some '"'.toNat
  | '\\' => some '\\'.toNat
  | '/' => some '/'.toNat
  | 'b' => some 8
  | 'f' => some 12
  | 'n' => some 10
  | 'r' => some 13
  | 't' => some 9
  | _ => none

/-- Read the characters of a text; `opening` is the number of characters left at its quote. -/
def textBody (opening : Nat) : Nat → List Nat → List Char → Except Snag (List Nat × List Char)
  | 0, _, _ => .error (.problem .unterminated opening)
  | _ + 1, _, [] => .error (.problem .unterminated opening)
  | fuel + 1, read, c :: rest =>
      if c = '"' then .ok (read.reverse, rest)
      else if c = '\\' then
        match rest with
        | [] => .error (.problem .unterminated opening)
        | 'u' :: more => do
            let (unit, after) ← unitEscape more
            if isHighSurrogate unit then
              let (point, after) ← pairEscape unit after
              textBody opening fuel (point :: read) after
            else textBody opening fuel (unit :: read) after
        | letter :: more =>
            match letterEscape? letter with
            | some point => textBody opening fuel (point :: read) more
            | none => stop .escape (c :: rest)
      else if c.toNat < 32 then stop .controlCharacter (c :: rest)
      else textBody opening fuel (c.toNat :: read) rest

/-- Read a text; `rest` starts after the opening quote. -/
def quoted (rest : List Char) : Except Snag (List Nat × List Char) :=
  textBody (rest.length + 1) (rest.length + 1) [] rest

/-! ## Values -/

/-- Add a property; an earlier one of the same name keeps its place and takes the new value. -/
def addProperty (properties : List (List Nat × Json)) (name : List Nat) (value : Json) :
    List (List Nat × Json) :=
  match properties with
  | [] => [(name, value)]
  | (other, old) :: rest =>
      if other = name then (name, value) :: rest else (other, old) :: addProperty rest name value

/-- Read a word that stands for a value, or a number. -/
def scalar (start : List Char) : Except Snag (Json × List Char) :=
  match start with
  | 'n' :: 'u' :: 'l' :: 'l' :: rest => .ok (.null, rest)
  | 't' :: 'r' :: 'u' :: 'e' :: rest => .ok (.bool true, rest)
  | 'f' :: 'a' :: 'l' :: 's' :: 'e' :: rest => .ok (.bool false, rest)
  | 'N' :: 'a' :: 'N' :: rest => .ok (.real Number.notANumber, rest)
  | 'I' :: 'n' :: 'f' :: 'i' :: 'n' :: 'i' :: 't' :: 'y' :: rest =>
      .ok (.real (Number.infinity false), rest)
  | '-' :: 'I' :: 'n' :: 'f' :: 'i' :: 'n' :: 'i' :: 't' :: 'y' :: rest =>
      .ok (.real (Number.infinity true), rest)
  | rest => number rest

mutual

/-- Read a value. -/
def value : Nat → List Char → Except Snag (Json × List Char)
  | 0, rest => stop .value rest
  | fuel + 1, start =>
      match start with
      | '"' :: rest => do
          let (points, after) ← quoted rest
          return (.text points, after)
      | '{' :: rest =>
          match skipSpace rest with
          | '}' :: after => .ok (.object [], after)
          | rest => properties fuel [] rest
      | '[' :: rest =>
          match skipSpace rest with
          | ']' :: after => .ok (.array [], after)
          | rest => items fuel [] rest
      | rest => scalar rest

/-- Read the items of an array up to its end; `read` holds the earlier items, the latest first. -/
def items : Nat → List Json → List Char → Except Snag (Json × List Char)
  | 0, _, rest => stop .value rest
  | fuel + 1, read, rest => do
      let (first, after) ← value fuel rest
      match skipSpace after with
      | ']' :: after => .ok (.array (first :: read).reverse, after)
      | ',' :: after => items fuel (first :: read) (skipSpace after)
      | rest => stop .comma rest

/-- Read the properties of an object up to its end. -/
def properties : Nat → List (List Nat × Json) → List Char → Except Snag (Json × List Char)
  | 0, _, rest => stop .value rest
  | fuel + 1, read, rest =>
      match rest with
      | '"' :: quotedName => do
          let (name, after) ← quoted quotedName
          match skipSpace after with
          | ':' :: after => do
              let (first, after) ← value fuel (skipSpace after)
              let read := addProperty read name first
              match skipSpace after with
              | '}' :: after => .ok (.object read, after)
              | ',' :: after => properties fuel read (skipSpace after)
              | rest => stop .comma rest
          | rest => stop .colon rest
      | rest => stop .propertyName rest

end

/-- The complaint about a problem with so many characters of the text left. -/
def complaint (text : List Char) (what : Problem) (left : Nat) : Complaint :=
  let before := text.take (text.length - left)
  let line := before.reverse.takeWhile (· ≠ '\n')
  ⟨what, before.count '\n' + 1, line.length + 1, before.length⟩

/-- Read the document of a whole text. -/
def readDocument (text : List Char) : Except Snag Json :=
  match text with
  | '﻿' :: _ => stop .byteOrderMark text
  | _ => do
      let (result, rest) ← value (3 * text.length + 3) (skipSpace text)
      match skipSpace rest with
      | [] => return result
      | rest => stop .extraData rest

/-- Read the document in a file. -/
def read (file : String) : Except Fault Json :=
  let text := Text.normalizeLines file.toList
  match readDocument text with
  | .ok result => .ok result
  | .error (.problem what left) => .error (.malformed (complaint text what left))
  | .error (.digits count) => .error (.tooManyDigits count)

end Json
end Pseudocode
