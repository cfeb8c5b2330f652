import Pseudocode.Number.Basic
import Pseudocode.Text.Blank
import Pseudocode.Text.Numeral

/-!
# Reading numbers

Literals of a program consist of digits with at most one point.  A line of input may also have a
sign, an exponent, underscores between digits, or name an infinity.  Digits of every decimal system
are read, and a decimal text gives the double nearest to its value.
-/

namespace Pseudocode
namespace Number

/-- The value of a run of decimal digits; nothing if some character is no decimal digit. -/
def decimalDigits? (digits : List Char) : Option (List Nat) :=
  digits.mapM Text.decimalValue?

/-- The number that a list of digits denotes. -/
def ofDigits (digits : List Nat) : Nat :=
  digits.foldl (fun n digit => 10 * n + digit) 0

theorem ofDigits_toDigits (n : Nat) :
    ofDigits ((Nat.toDigits 10 n).map fun c => c.toNat - '0'.toNat) = n := by
  rw [ofDigits, List.foldl_map]
  exact Nat.ofDigitChars_toDigits (by decide) (by decide)

/-- The double nearest to `digits * 10 ^ exponent`.  A value far outside the range of the doubles is
settled by its number of digits. -/
def ofDecimal (negative : Bool) (digits : Nat) (exponent : Int) : Float :=
  let leading := (digits.log2 : Int) * 3 / 10 + exponent
  if digits = 0 || leading < -500 then ofSignedBits negative 0
  else if 500 < leading then infinity negative
  else
    let (up, down) := powerOfTen exponent
    (nearest? negative (digits * up) down).getD (infinity negative)

/-- The whole number of a literal without a point. -/
def wholeLiteral (literal : List Char) : Except Fault Nat :=
  match decimalDigits? literal with
  | none => .error .notANumeral
  | some [] => .error .notANumeral
  | some digits =>
      if digitLimit < digits.length then .error (.tooManyDigits digits.length)
      else .ok (ofDigits digits)

/-- The parts of a literal before and after its point. -/
def splitAtPoint (literal : List Char) : List Char × List Char :=
  (literal.takeWhile (· ≠ '.'), (literal.dropWhile (· ≠ '.')).drop 1)

/-- The double of an unsigned literal with or without a point. -/
def pointLiteral? (negative : Bool) (literal : List Char) (exponent : Int) : Option Float := do
  let (before, after) := splitAtPoint literal
  let before ← decimalDigits? before
  let after ← decimalDigits? after
  if before.isEmpty && after.isEmpty then none
  else some (ofDecimal negative (ofDigits (before ++ after)) (exponent - after.length))

/-- The double of a literal with a point. -/
def realLiteral (literal : List Char) : Except Fault Float :=
  match pointLiteral? false literal 0 with
  | some x => .ok x
  | none => .error .notANumeral

/-- Take the sign off a numeral. -/
def splitSign : List Char → Bool × List Char
  | '-' :: rest => (true, rest)
  | '+' :: rest => (false, rest)
  | rest => (false, rest)

/-- Whether a character is the mark of an exponent. -/
def isExponentMark (c : Char) : Bool :=
  c = 'e' || c = 'E'

/-- The exponent after its mark: a sign and at least one digit. -/
def exponent? (text : List Char) : Option Int :=
  let (negative, digits) := splitSign text
  match decimalDigits? digits with
  | none => none
  | some [] => none
  | some digits =>
      let size := ofDigits (digits.dropWhile (· = 0) |>.take 9)
      some (signed negative (min size 99999))

/-- The double of an unsigned numeral with an optional exponent. -/
def numeral? (negative : Bool) (text : List Char) : Option Float :=
  let mantissa := text.takeWhile (!isExponentMark ·)
  match text.dropWhile (!isExponentMark ·) with
  | [] => pointLiteral? negative mantissa 0
  | _ :: rest => do pointLiteral? negative mantissa (← exponent? rest)

/-- Whether every underscore stands between two digits; `previous` is the character before. -/
def underscoresFit : Option Char → List Char → Bool
  | previous, [] => previous ≠ some '_'
  | previous, c :: rest =>
      let afterDigit := previous.any fun p => (Text.decimalValue? p).isSome
      let isDigit := (Text.decimalValue? c).isSome
      let fits := if c = '_' then afterDigit else previous ≠ some '_' || isDigit
      fits && underscoresFit (some c) rest

/-- The double that a line of input denotes, if it denotes one. -/
def ofLine? (line : List Char) : Option Float :=
  let line := Text.strip line
  if !underscoresFit none line then none
  else
    let (negative, body) := splitSign (line.filter (· ≠ '_'))
    let word := String.ofList (body.map Char.toLower)
    if word = "inf" || word = "infinity" then some (infinity negative)
    else if word = "nan" then some notANumber
    else numeral? negative body

end Number
end Pseudocode
