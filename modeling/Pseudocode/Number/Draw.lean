import Pseudocode.Number.Basic

/-!
# Random draws

A draw takes a whole number between two bounds, both included.  A double can be a bound if it is
whole.
-/

namespace Pseudocode
namespace Number

/-- The whole number that a bound stands for. -/
def bound : Number → Except Fault Int
  | whole n => .ok n
  | real x =>
      match Binary.ofFloat x with
      | .nan => .error .nanToWhole
      | .infinite _ => .error .infinityToWhole
      | .finite negative mantissa exponent =>
          if isWhole mantissa exponent then .ok (truncate negative mantissa exponent)
          else .error .fractionalBound
  | complex _ _ => .error .complexBound

/-- The least number of a draw and how many there are to draw from.  The end is one more than the
upper bound, in the arithmetic of that bound. -/
def drawRange (low high : Number) : Except Fault (Int × Nat) := do
  let stop ← high.add (whole 1)
  let start ← low.bound
  let stop ← stop.bound
  if start < stop then return (start, (stop - start).toNat) else throw .emptyRange

/-- Draw a number between two bounds. -/
def draw (generator : StdGen) (low high : Number) : Except Fault (Int × StdGen) := do
  let (start, count) ← drawRange low high
  let (offset, generator) := randNat generator 0 (count - 1)
  return (start + offset, generator)

end Number
end Pseudocode
