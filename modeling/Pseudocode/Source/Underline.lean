import Pseudocode.Source

/-!
# Underlining a stretch of text

An error message shows the lines of a stretch, each followed by a row of carets under the part that
belongs to the stretch.  Every line but the first is cut out together with the line end before it.
The places are plain whole numbers here: they may be negative, and then count from the end of the
text, or lie beyond it.
-/

namespace Pseudocode

/-- A place given by bare coordinates. -/
structure Mark where
  /-- The offset in the text. -/
  index : Int
  /-- The line. -/
  line : Int
  /-- The column in the line. -/
  column : Int
  deriving DecidableEq, Repr

/-- The coordinates of a position. -/
def Position.mark (p : Position) : Mark :=
  ⟨p.index, p.line, p.column⟩

namespace Underline

/-- An offset brought into a text: a negative one counts from the end, one too large is the end. -/
def clip (length : Nat) (offset : Int) : Nat :=
  if offset < 0 then (offset + length).toNat else min offset.toNat length

/-- The offset of the last line end before `stop`, or zero. -/
def lineEndBefore (chars : List Char) (stop : Int) : Nat :=
  let before := chars.take (clip chars.length stop)
  match before.reverse.findIdx? (· = '\n') with
  | some back => before.length - 1 - back
  | none => 0

/-- The offset of the first line end at or after `first`, or the end of the text. -/
def lineEndFrom (chars : List Char) (first : Nat) : Nat :=
  match (chars.drop first).findIdx? (· = '\n') with
  | some ahead => first + ahead
  | none => chars.length

/-- A character repeated a number of times; not at all if that is negative. -/
def repeated (c : Char) (times : Int) : List Char :=
  List.replicate times.toNat c

/-- The lines from offset `first` on with their carets; the last of them ends at column `stop`. -/
def lines (chars : List Char) (stop : Int) : Nat → Int → Nat → Nat → List Char
  | 0, _, _, _ => []
  | count + 1, column, first, last =>
      let line := (chars.take last).drop first
      let lastColumn := if count = 0 then stop else (line.length : Int) - 1
      line ++ '\n' :: repeated ' ' column ++ repeated '^' (lastColumn - column) ++
        lines chars stop count 0 last (lineEndFrom chars (last + 1))

/-- The lines of a text from `start` to `stop` with carets under the stretch; tabs are left out. -/
def render (text : String) (start stop : Mark) : String :=
  let chars := text.toList
  let first := lineEndBefore chars start.index
  let count := (stop.line - start.line + 1).toNat
  let shown := lines chars stop.column count start.column first (lineEndFrom chars (first + 1))
  String.ofList (shown.filter (· ≠ '\t'))

end Underline

/-- The text of a span with carets under it. -/
def Span.underline (s : Span) : String :=
  Underline.render s.start.source.text s.start.mark s.stop.mark

end Pseudocode
