/-!
# Ranges of code points

A character class is a short rule for the ASCII characters together with a sorted list of closed
ranges of code points above them.  Keeping the two apart lets the ASCII part be computed without
walking through the list.
-/

namespace Pseudocode
namespace Text

/-- A closed range of code points, given by its first and its last member. -/
abbrev Range := Nat × Nat

/-- Whether a code point lies in one of the ranges. -/
def inRanges (ranges : List Range) (code : Nat) : Bool :=
  ranges.any fun range => range.1 ≤ code && code ≤ range.2

/-- The class of the ASCII characters that satisfy a rule and of the others that lie in the ranges.
-/
def classify (ascii : Char → Bool) (ranges : List Range) (c : Char) : Bool :=
  if c.toNat < 128 then ascii c else inRanges ranges c.toNat

theorem classify_of_lt {ascii : Char → Bool} {ranges : List Range} {c : Char}
    (isAscii : c.toNat < 128) : classify ascii ranges c = ascii c := by
  simp [classify, isAscii]

end Text
end Pseudocode
