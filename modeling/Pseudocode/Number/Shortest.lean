import Pseudocode.Number.Binary

/-!
# Shortest decimal digits of a double

The reals that round to a double `m * 2 ^ q` form an interval around it, which contains its ends
exactly when `m` is even.  The digits of a double are the fewest decimal digits that name a number
of this interval and, among those, the ones nearest to the double.  They are found by trying one
digit, two digits and so on; seventeen always suffice.
-/

namespace Pseudocode
namespace Number

/-- A decimal numeral: the number `digits * 10 ^ exponent`. -/
structure Decimal where
  /-- The digits, read as one whole number. -/
  digits : Nat
  /-- The power of ten that belongs to the last digit. -/
  exponent : Int
  deriving DecidableEq, Repr

/-- Two natural numbers whose quotient is `10 ^ exponent`. -/
def powerOfTen (exponent : Int) : Nat × Nat :=
  if 0 ≤ exponent then (Nat.pow 10 exponent.toNat, 1) else (1, Nat.pow 10 (-exponent).toNat)

/-- The interval of the reals that round to a double, in units of a quarter of its last place. -/
structure Rounding where
  /-- The lower end. -/
  low : Nat
  /-- The double itself. -/
  value : Nat
  /-- The upper end. -/
  high : Nat
  /-- Whether the two ends belong to the interval. -/
  closed : Bool
  /-- The unit is `2 ^ exponent`. -/
  exponent : Int

namespace Rounding

/-- The interval around `mantissa * 2 ^ exponent`.  Below a power of two the doubles lie twice as
close. -/
def around (mantissa : Nat) (exponent : Int) : Rounding where
  low := 4 * mantissa - if mantissa = fractionBits && leastExponent < exponent then 1 else 2
  value := 4 * mantissa
  high := 4 * mantissa + 2
  closed := mantissa % 2 = 0
  exponent := exponent - 2

/-- Whether the interval contains `digits * 10 ^ power`. -/
def contains (r : Rounding) (digits : Nat) (power : Int) : Bool :=
  let (twoUp, twoDown) := powerOfTwo r.exponent
  let (tenUp, tenDown) := powerOfTen power
  let candidate := digits * tenUp * twoDown
  let low := r.low * twoUp * tenDown
  let high := r.high * twoUp * tenDown
  if r.closed then low ≤ candidate && candidate ≤ high else low < candidate && candidate < high

/-- The digits just below the double when the last digit counts `10 ^ power`, with twice the
remainder and the unit it is measured in. -/
def below (r : Rounding) (power : Int) : Nat × Nat × Nat :=
  let (twoUp, twoDown) := powerOfTwo r.exponent
  let (tenUp, tenDown) := powerOfTen power
  let numerator := r.value * twoUp * tenDown
  let denominator := tenUp * twoDown
  (numerator / denominator, 2 * (numerator % denominator), denominator)

/-- The numeral of the interval nearest to the double whose last digit counts `10 ^ power`. -/
def pick? (r : Rounding) (power : Int) : Option Decimal :=
  let (digits, twice, unit) := r.below power
  let lower := r.contains digits power
  let upper := r.contains (digits + 1) power
  let preferUpper := unit < twice || (twice = unit && digits % 2 = 1)
  if lower && upper then some ⟨if preferUpper then digits + 1 else digits, power⟩
  else if lower then some ⟨digits, power⟩
  else if upper then some ⟨digits + 1, power⟩
  else none

/-- The exponent of the leading decimal digit of the double. -/
def leading (r : Rounding) : Int :=
  let (twoUp, twoDown) := powerOfTwo r.exponent
  let numerator := r.value * twoUp
  if twoDown ≤ numerator then ((toString (numerator / twoDown)).length : Int) - 1
  else
    let shifts := (List.range 400).find? fun shift => twoDown ≤ numerator * Nat.pow 10 shift
    Int.negOfNat (shifts.getD 400)

/-- Try ever more digits, down from a given power of ten. -/
def search (r : Rounding) : Nat → Int → Decimal
  | 0, power => ⟨(r.below power).1, power⟩
  | tries + 1, power => (r.pick? power).getD (r.search tries (power - 1))

end Rounding

/-- Move trailing zeros of the digits into the exponent. -/
def Decimal.trim : Nat → Decimal → Decimal
  | 0, d => d
  | steps + 1, d =>
      if d.digits ≠ 0 && d.digits % 10 = 0 then trim steps ⟨d.digits / 10, d.exponent + 1⟩ else d

/-- The shortest numeral of the positive double `mantissa * 2 ^ exponent`. -/
def shortest (mantissa : Nat) (exponent : Int) : Decimal :=
  let r := Rounding.around mantissa exponent
  (r.search 17 r.leading).trim 20

end Number
end Pseudocode
