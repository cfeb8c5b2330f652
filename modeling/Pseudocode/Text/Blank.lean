import Pseudocode.Text.Range

/-!
# Blanks

The characters that count as blank space at the ends of an input line.
-/

namespace Pseudocode
namespace Text

/-- The blank characters above the ASCII characters. -/
def blankRanges : List Range := [
  (0x85, 0x85), (0xA0, 0xA0), (0x1680, 0x1680), (0x2000, 0x200A), (0x2028, 0x2029),
  (0x202F, 0x202F), (0x205F, 0x205F), (0x3000, 0x3000)]

/-- Whether a character is blank: a space, a separator, or one of the controls used as separators.
-/
def isBlank (c : Char) : Bool :=
  classify (fun c => c = ' ' || (9 ≤ c.toNat && c.toNat ≤ 13) || (28 ≤ c.toNat && c.toNat ≤ 31))
    blankRanges c

/-- A line without the blanks at its two ends. -/
def strip (line : List Char) : List Char :=
  ((line.dropWhile isBlank).reverse.dropWhile isBlank).reverse

end Text
end Pseudocode
