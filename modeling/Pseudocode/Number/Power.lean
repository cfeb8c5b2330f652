import Pseudocode.Number.Basic

/-!
# Powers

A whole number to a natural power is exact.  All other powers are doubles or, when the base is
negative and the exponent not whole, complex numbers in polar form.
-/

namespace Pseudocode
namespace Number

/-- Add the binary digits of a square root one by one, from the place `bits` downward. -/
def squareRootFrom (n : Nat) : Nat → Nat → Nat
  | 0, root => root
  | bits + 1, root =>
      let next := root + Nat.pow 2 bits
      squareRootFrom n bits (if next * next ≤ n then next else root)

/-- The whole part of a square root. -/
def squareRoot (n : Nat) : Nat :=
  squareRootFrom n (n.log2 / 2 + 1) 0

/-- The double nearest to the square root of `size * 4 ^ exponent`.  Sixty binary digits of the root
are computed; a further one says whether anything is left. -/
def nearestRoot (size : Nat) (exponent : Int) : Float :=
  let shift := 60 - size.log2 / 2
  let scaled := size * Nat.pow 4 shift
  let root := squareRoot scaled
  let sticky := if root * root = scaled then 0 else 1
  ofParts false (2 * root + sticky) (exponent - shift - 1)

/-- The distance of a point in the plane from the origin. -/
def hypotenuse (x y : Float) : Float :=
  match Binary.ofFloat x, Binary.ofFloat y with
  | .infinite _, _ | _, .infinite _ => infinity false
  | .nan, _ | _, .nan => notANumber
  | .finite _ a e, .finite _ b f =>
      if a = 0 then y.abs
      else if b = 0 then x.abs
      else
        let least := min e f
        let across := a * Nat.pow 2 (e - least).toNat
        let up := b * Nat.pow 2 (f - least).toNat
        nearestRoot (across * across + up * up) least

namespace ComplexFloat

/-- The number one. -/
def one : ComplexFloat := ⟨1, 0⟩

/-- A natural power by repeated squaring: `result * base ^ exponent`. -/
def powNat : Nat → ComplexFloat → ComplexFloat → Nat → ComplexFloat
  | 0, result, _, _ => result
  | bits + 1, result, base, exponent =>
      if exponent = 0 then result
      else
        powNat bits (if exponent % 2 = 1 then result.mul base else result) (base.mul base)
          (exponent / 2)

/-- Whether both parts are zero. -/
def isZero (z : ComplexFloat) : Bool := z.re == 0 && z.im == 0

/-- A whole power.  A negative power divides by the positive one, which may have become zero. -/
def powWhole (base : ComplexFloat) (exponent : Int) : Except Fault ComplexFloat :=
  let power := powNat 8 one base exponent.natAbs
  if 0 < exponent then .ok power
  else if power.isZero then .error .zeroToNegative
  else .ok (one.div power)

/-- A power in polar form; the base is not zero.  An infinite angle has no direction. -/
def powPolar (base exponent : ComplexFloat) : Except Fault ComplexFloat :=
  let size := hypotenuse base.re base.im
  let angle := Float.atan2 base.im base.re
  let length := Float.pow size exponent.re
  let phase := angle * exponent.re
  let twisted := exponent.im != 0
  let length := if twisted then length / Float.exp (angle * exponent.im) else length
  let phase := if twisted then phase + exponent.im * Float.log size else phase
  if phase.isInf then .error .zeroToNegative
  else .ok ⟨length * Float.cos phase, length * Float.sin phase⟩

/-- A small whole exponent, for which repeated squaring is used. -/
def smallWhole? (z : ComplexFloat) : Option Int :=
  if z.im == 0 && z.re.abs ≤ 100 then
    match Binary.ofFloat z.re with
    | .finite negative mantissa exponent =>
        if isWhole mantissa exponent then some (truncate negative mantissa exponent) else none
    | _ => none
  else none

/-- A power of complex numbers. -/
def pow (base exponent : ComplexFloat) : Except Fault ComplexFloat :=
  let finish (z : ComplexFloat) : Except Fault ComplexFloat :=
    if z.re.isInf || z.im.isInf then .error .powerTooLarge else .ok z
  match exponent.smallWhole? with
  | some n => do finish (← base.powWhole n)
  | none =>
      if exponent.isZero then .ok one
      else if base.isZero then
        if exponent.im != 0 || exponent.re < 0 then .error .zeroToNegative else .ok ⟨0, 0⟩
      else do finish (← base.powPolar exponent)

end ComplexFloat

/-- A power of doubles. -/
def floatPow (x y : Float) : Except Fault Number :=
  if x == 0 && y < 0 && y.isFinite then .error .zeroToNegative
  else if x < 0 && x.isFinite && y.isFinite && y.floor != y then do
    return ofComplex (← ComplexFloat.pow ⟨x, 0⟩ ⟨y, 0⟩)
  else
    let power := Float.pow x y
    if power.isInf && x.isFinite && y.isFinite then .error .powerTooLarge else .ok (real power)

/-- A power of numbers. -/
def pow : Number → Number → Except Fault Number
  | whole a, whole b =>
      if 0 ≤ b then .ok (whole (Int.pow a b.toNat))
      else do floatPow (← wholeToFloat a) (← wholeToFloat b)
  | a, b => combine floatPow (fun x y => do return ofComplex (← x.pow y)) a b

end Number
end Pseudocode
