import Pseudocode.Fault
import Pseudocode.Number.Layout

/-!
# Numbers

A number is whole and unbounded, a double, or a complex number of two doubles.  Whole numbers stay
exact under `+`, `-`, `*`, `mod` and under powers with natural exponents; a quotient is always a
double.  An operation on numbers of two kinds first brings both to the more general kind.
-/

namespace Pseudocode

/-- The numbers of the language. -/
inductive Number where
  /-- A whole number of any size. -/
  | whole (n : Int)
  /-- A double. -/
  | real (x : Float)
  /-- A complex number. -/
  | complex (re im : Float)

namespace Number

instance : Inhabited Number := ⟨.whole 0⟩

/-- A complex number as a pair of doubles. -/
structure ComplexFloat where
  /-- The real part. -/
  re : Float
  /-- The imaginary part. -/
  im : Float

/-- The double of a whole number. -/
def wholeToFloat (n : Int) : Except Fault Float :=
  match ofWhole? n with
  | some x => .ok x
  | none => .error .wholeTooLarge

/-- A number as a double; the imaginary part of a complex number is not looked at. -/
def toFloat : Number → Except Fault Float
  | whole n => wholeToFloat n
  | real x => .ok x
  | complex re _ => .ok re

/-- A number as a complex number. -/
def toComplex : Number → Except Fault ComplexFloat
  | complex re im => .ok ⟨re, im⟩
  | other => do return ⟨← other.toFloat, 0⟩

/-- Whether a number is complex. -/
def isComplex : Number → Bool
  | complex _ _ => true
  | _ => false

/-- Whether a number is zero. -/
def isZero : Number → Bool
  | whole n => n = 0
  | real x => x == 0
  | complex re im => re == 0 && im == 0

/-- The number of a pair of doubles. -/
def ofComplex (z : ComplexFloat) : Number :=
  complex z.re z.im

/-- Bring two numbers that are not both whole to a common kind and combine them there. -/
def combine (onFloat : Float → Float → Except Fault Number)
    (onComplex : ComplexFloat → ComplexFloat → Except Fault Number) (a b : Number) :
    Except Fault Number :=
  if a.isComplex || b.isComplex then do onComplex (← a.toComplex) (← b.toComplex)
  else do onFloat (← a.toFloat) (← b.toFloat)

namespace ComplexFloat

/-- The sum of two complex numbers. -/
def add (a b : ComplexFloat) : ComplexFloat := ⟨a.re + b.re, a.im + b.im⟩

/-- The difference of two complex numbers. -/
def sub (a b : ComplexFloat) : ComplexFloat := ⟨a.re - b.re, a.im - b.im⟩

/-- The product of two complex numbers. -/
def mul (a b : ComplexFloat) : ComplexFloat :=
  ⟨a.re * b.re - a.im * b.im, a.re * b.im + a.im * b.re⟩

/-- The quotient of two complex numbers.  The larger part of the divisor is divided out first, which
keeps the intermediate results in range. -/
def div (a b : ComplexFloat) : ComplexFloat :=
  if b.im.abs ≤ b.re.abs then
    let ratio := b.im / b.re
    let scale := b.re + b.im * ratio
    ⟨(a.re + a.im * ratio) / scale, (a.im - a.re * ratio) / scale⟩
  else if b.re.abs ≤ b.im.abs then
    let ratio := b.re / b.im
    let scale := b.re * ratio + b.im
    ⟨(a.re * ratio + a.im) / scale, (a.im * ratio - a.re) / scale⟩
  else ⟨notANumber, notANumber⟩

end ComplexFloat

/-- The sum of two numbers. -/
def add : Number → Number → Except Fault Number
  | whole a, whole b => .ok (whole (a + b))
  | a, b => combine (fun x y => .ok (real (x + y))) (fun x y => .ok (ofComplex (x.add y))) a b

/-- The difference of two numbers. -/
def sub : Number → Number → Except Fault Number
  | whole a, whole b => .ok (whole (a - b))
  | a, b => combine (fun x y => .ok (real (x - y))) (fun x y => .ok (ofComplex (x.sub y))) a b

/-- The product of two numbers. -/
def mul : Number → Number → Except Fault Number
  | whole a, whole b => .ok (whole (a * b))
  | a, b => combine (fun x y => .ok (real (x * y))) (fun x y => .ok (ofComplex (x.mul y))) a b

/-- The quotient of two numbers, the second not zero.  The quotient of whole numbers is the double
nearest to the exact fraction. -/
def div : Number → Number → Except Fault Number
  | whole a, whole b =>
      match nearest? (decide (a < 0) != decide (b < 0)) a.natAbs b.natAbs with
      | some x => .ok (real x)
      | none => .error .wholeTooLarge
  | a, b => combine (fun x y => .ok (real (x / y))) (fun x y => .ok (ofComplex (x.div y))) a b

/-- The remainder of two doubles that has the sign of the divisor.  It is exact except that a
remainder of the other sign is brought over by adding the divisor. -/
def floatMod (x y : Float) : Float :=
  match Binary.ofFloat x, Binary.ofFloat y with
  | .finite negative mantissa exponent, .finite negativeDivisor divisor divisorExponent =>
      let least := min exponent divisorExponent
      let size := mantissa * Nat.pow 2 (exponent - least).toNat
      let unit := divisor * Nat.pow 2 (divisorExponent - least).toNat
      let remainder := size % unit
      if remainder = 0 then ofSignedBits negativeDivisor 0
      else
        let exact := ofParts negative remainder least
        if negative = negativeDivisor then exact else exact + y
  | .finite negative mantissa _, .infinite negativeDivisor =>
      if mantissa = 0 then ofSignedBits negativeDivisor 0
      else if negative = negativeDivisor then x else y
  | _, _ => notANumber

/-- The remainder of two numbers, the second not zero, with the sign of the divisor. -/
def mod : Number → Number → Except Fault Number
  | whole a, whole b => .ok (whole (Int.fmod a b))
  | a, b =>
      if a.isComplex || b.isComplex then .error .complexRemainder
      else do return real (floatMod (← a.toFloat) (← b.toFloat))

/-- The exact order of a whole number and a double; nothing when the double is not a number. -/
def compareWhole (n : Int) (x : Float) : Option Ordering :=
  match Binary.ofFloat x with
  | .nan => none
  | .infinite negative => some (if negative then .gt else .lt)
  | .finite negative mantissa exponent =>
      let (up, down) := powerOfTwo exponent
      some (compare (n * down) (signed negative (mantissa * up)))

/-- The order of two doubles; nothing when one is not a number. -/
def compareFloat (x y : Float) : Option Ordering :=
  if x < y then some .lt else if x == y then some .eq else if y < x then some .gt else none

/-- The exact order of two numbers; nothing when one is not a number. -/
def order : Number → Number → Except Fault (Option Ordering)
  | whole a, whole b => .ok (some (compare a b))
  | whole a, real y => .ok (compareWhole a y)
  | real x, whole b => .ok ((compareWhole b x).map Ordering.swap)
  | real x, real y => .ok (compareFloat x y)
  | _, _ => .error .complexOrder

/-- Whether two numbers are equal, whatever their kinds. -/
def equal : Number → Number → Bool
  | whole a, whole b => a = b
  | whole a, real y => compareWhole a y = some .eq
  | real x, whole b => compareWhole b x = some .eq
  | real x, real y => x == y
  | complex re im, complex re' im' => re == re' && im == im'
  | complex re im, whole b => im == 0 && compareWhole b re = some .eq
  | whole a, complex re im => im == 0 && compareWhole a re = some .eq
  | complex re im, real y => re == y && im == 0
  | real x, complex re im => re == x && im == 0

/-- Whether a number counts as true. -/
def isTrue (n : Number) : Bool :=
  !n.isZero

/-- The whole part of a double. -/
def floatToWhole (x : Float) : Except Fault Int :=
  match Binary.ofFloat x with
  | .nan => .error .nanToWhole
  | .infinite _ => .error .infinityToWhole
  | .finite negative mantissa exponent => .ok (truncate negative mantissa exponent)

/-- The text of a number, unless it is whole and has too many digits. -/
def text? : Number → Option String
  | whole n => if exceedsDigitLimit n then none else some (toString n)
  | real x => some (realLayout.float x)
  | complex re im => some (complexText re im)

/-- The text of a number. -/
def text (n : Number) : Except Fault String :=
  match n.text? with
  | some s => .ok s
  | none => .error (.tooManyDigits 0)

end Number
end Pseudocode
