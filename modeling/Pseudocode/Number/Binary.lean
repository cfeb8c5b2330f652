/-!
# Floating-point numbers as exact fractions

A finite double is `mantissa * 2 ^ exponent`.  This file takes a double apart into these two parts
and goes the other way: `nearestBits` rounds a fraction of natural numbers to the nearest double, a
tie going to the even mantissa.  Everything is exact arithmetic on natural numbers, so one rounding
function serves for whole numbers, for quotients and for decimal texts.
-/

namespace Pseudocode
namespace Number

/-- A double taken apart. -/
inductive Binary where
  /-- Not a number. -/
  | nan
  /-- One of the two infinities. -/
  | infinite (negative : Bool)
  /-- The number `mantissa * 2 ^ exponent` with a sign; zero has a sign too. -/
  | finite (negative : Bool) (mantissa : Nat) (exponent : Int)
  deriving DecidableEq, Repr

/-- The bits of the fraction field of a double. -/
def fractionBits : Nat := Nat.pow 2 52

/-- The least exponent of a double whose mantissa is a whole number. -/
def leastExponent : Int := -1074

/-- The greatest exponent of a finite double whose mantissa has all 53 bits. -/
def greatestExponent : Int := 971

namespace Binary

/-- Take a bit pattern apart. -/
def ofBits (bits : Nat) : Binary :=
  let negative := bits / Nat.pow 2 63 % 2 = 1
  let field := bits / fractionBits % 2048
  let fraction := bits % fractionBits
  if field = 2047 then
    if fraction = 0 then .infinite negative else .nan
  else if field = 0 then
    .finite negative fraction leastExponent
  else
    .finite negative (fraction + fractionBits) ((field : Int) - 1075)

/-- Take a double apart. -/
def ofFloat (x : Float) : Binary :=
  ofBits x.toBits.toNat

end Binary

/-- Two natural numbers whose quotient is `2 ^ exponent`. -/
def powerOfTwo (exponent : Int) : Nat × Nat :=
  if 0 ≤ exponent then (Nat.pow 2 exponent.toNat, 1) else (1, Nat.pow 2 (-exponent).toNat)

/-- The quotient of two natural numbers, rounded to the nearest whole number, a tie going to the
even one. -/
def roundQuotient (numerator denominator : Nat) : Nat :=
  let quotient := numerator / denominator
  let remainder := numerator % denominator
  if 2 * remainder < denominator then quotient
  else if denominator < 2 * remainder then quotient + 1
  else if quotient % 2 = 0 then quotient
  else quotient + 1

/-- The exponent at which the fraction has a mantissa of 53 bits, or the least exponent when the
fraction is too small for that. -/
def mantissaExponent (numerator denominator : Nat) : Int :=
  let guess : Int := (numerator.log2 : Int) - (denominator.log2 : Int) - 52
  let (up, down) := powerOfTwo guess
  let exponent := if numerator * down < denominator * up * fractionBits then guess - 1 else guess
  max exponent leastExponent

/-- The bit pattern of the double nearest to a positive fraction, or nothing when the fraction is
too large for a double. -/
def nearestBits (numerator denominator : Nat) : Option Nat :=
  if numerator = 0 then some 0
  else
    let exponent := mantissaExponent numerator denominator
    let (up, down) := powerOfTwo exponent
    let mantissa := roundQuotient (numerator * down) (denominator * up)
    let carried := mantissa = 2 * fractionBits
    let mantissa := if carried then fractionBits else mantissa
    let exponent := if carried then exponent + 1 else exponent
    if greatestExponent < exponent then none
    else if mantissa < fractionBits then some mantissa
    else some ((exponent + 1075).toNat * fractionBits + (mantissa - fractionBits))

/-- The double with a sign and a bit pattern for its size. -/
def ofSignedBits (negative : Bool) (bits : Nat) : Float :=
  Float.ofBits (UInt64.ofNat (if negative then bits + Nat.pow 2 63 else bits))

/-- The double nearest to a fraction with a sign, or nothing when it is too large. -/
def nearest? (negative : Bool) (numerator denominator : Nat) : Option Float :=
  (nearestBits numerator denominator).map (ofSignedBits negative)

/-- The infinity with a sign. -/
def infinity (negative : Bool) : Float :=
  ofSignedBits negative (2047 * fractionBits)

/-- The double that is not a number. -/
def notANumber : Float :=
  ofSignedBits false (2047 * fractionBits + fractionBits / 2)

/-- The double nearest to a whole number, or nothing when it is too large. -/
def ofWhole? (n : Int) : Option Float :=
  nearest? (n < 0) n.natAbs 1

/-- The double that is exactly `mantissa * 2 ^ exponent`, when there is one. -/
def ofParts (negative : Bool) (mantissa : Nat) (exponent : Int) : Float :=
  let (up, down) := powerOfTwo exponent
  (nearest? negative (mantissa * up) down).getD (infinity negative)

/-- A size with a sign, as a whole number. -/
def signed (negative : Bool) (size : Nat) : Int :=
  if negative then -(size : Int) else size

/-- The whole part of `mantissa * 2 ^ exponent`, the fraction being dropped. -/
def truncate (negative : Bool) (mantissa : Nat) (exponent : Int) : Int :=
  let (up, down) := powerOfTwo exponent
  signed negative (mantissa * up / down)

/-- Whether `mantissa * 2 ^ exponent` is a whole number. -/
def isWhole (mantissa : Nat) (exponent : Int) : Bool :=
  let (up, down) := powerOfTwo exponent
  mantissa * up % down = 0

end Number
end Pseudocode
