import Pseudocode.Number.Shortest

/-!
# How numbers are written

Whole numbers are written in decimal.  Doubles take their shortest digits; the layout says where
positional notation ends and whether a whole value keeps its point.
-/

namespace Pseudocode
namespace Number

/-- The decisions of a decimal layout. -/
structure Layout where
  /-- The least exponent of the leading digit that is still written positionally. -/
  leastPositional : Int
  /-- The first exponent of the leading digit that is no longer written positionally. -/
  firstScientific : Int
  /-- Whether a whole value in positional notation ends in a point and a zero. -/
  keepsPoint : Bool

/-- Real numbers: positional from `0.0001` up to below `10 ^ 16`, always with a point or an
exponent. -/
def realLayout : Layout := ⟨-4, 16, true⟩

/-- The two parts of a complex number: as real numbers, but a whole value has no point. -/
def partLayout : Layout := ⟨-4, 16, false⟩

/-- A run of zeros. -/
def zeros (count : Nat) : String :=
  String.ofList (List.replicate count '0')

/-- A decimal exponent: a sign and at least two digits. -/
def exponentText (exponent : Int) : String :=
  let size := toString exponent.natAbs
  "e" ++ (if exponent < 0 then "-" else "+") ++ (if size.length < 2 then "0" ++ size else size)

namespace Layout

/-- Write a numeral in positional notation; `point` digits stand before the point. -/
def positional (layout : Layout) (digits : List Char) (point : Int) : String :=
  let width : Int := digits.length
  if point ≤ 0 then
    "0." ++ zeros (-point).toNat ++ String.ofList digits
  else if width ≤ point then
    String.ofList digits ++ zeros (point - width).toNat ++ (if layout.keepsPoint then ".0" else "")
  else
    String.ofList (digits.take point.toNat) ++ "." ++ String.ofList (digits.drop point.toNat)

/-- Write a numeral with one digit before the point and an exponent. -/
def scientific (digits : List Char) (exponent : Int) : String :=
  String.ofList (digits.take 1) ++
    (if digits.length ≤ 1 then "" else "." ++ String.ofList (digits.drop 1)) ++
    exponentText exponent

/-- Write a numeral. -/
def decimal (layout : Layout) (d : Decimal) : String :=
  let digits := (toString d.digits).toList
  let point : Int := d.exponent + digits.length
  let leading := point - 1
  if layout.leastPositional ≤ leading && leading < layout.firstScientific then
    layout.positional digits point
  else
    scientific digits leading

/-- Write a double taken apart. -/
def binary (layout : Layout) : Binary → String
  | .nan => "nan"
  | .infinite negative => if negative then "-inf" else "inf"
  | .finite negative mantissa exponent =>
      (if negative then "-" else "") ++
        if mantissa = 0 then (if layout.keepsPoint then "0.0" else "0")
        else layout.decimal (shortest mantissa exponent)

/-- Write a double. -/
def float (layout : Layout) (x : Float) : String :=
  layout.binary (.ofFloat x)

end Layout

/-- Write a complex number: in parentheses with both parts, or the imaginary part alone when the
real part is a zero without a minus sign. -/
def complexText (re im : Float) : String :=
  let imaginary := partLayout.float im
  if re.toBits = 0 then imaginary ++ "j"
  else
    let sign := if imaginary.startsWith "-" then "" else "+"
    "(" ++ partLayout.float re ++ sign ++ imaginary ++ "j)"

/-- The most decimal digits of a whole number that are read or written. -/
def digitLimit : Nat := 4300

/-- Whether a whole number has more digits than are written. -/
def exceedsDigitLimit (n : Int) : Bool :=
  Nat.pow 10 digitLimit ≤ n.natAbs

end Number
end Pseudocode
