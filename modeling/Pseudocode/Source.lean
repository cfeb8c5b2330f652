/-!
# Sources and places in them

A source is a named text.  A position counts the characters before it, the line ends before it and
the characters since the last of these.  Positions may lie beyond the end of the text, because a
scanner also steps past the end.
-/

namespace Pseudocode

/-- A named program text. -/
structure Source where
  /-- The name shown in messages. -/
  name : String
  /-- The program. -/
  text : String
  deriving DecidableEq, Repr, Inhabited

/-- A place in a source. -/
structure Position where
  /-- The number of characters before this place. -/
  index : Nat
  /-- The number of lines before this one. -/
  line : Nat
  /-- The number of characters before this place in its line. -/
  column : Nat
  /-- The source this is a place of. -/
  source : Source
  deriving DecidableEq, Repr, Inhabited

namespace Position

/-- The first place of a source. -/
def start (source : Source) : Position := ⟨0, 0, 0, source⟩

/-- The next place in the same line. -/
def bump (p : Position) : Position :=
  { p with index := p.index + 1, column := p.column + 1 }

/-- The place after a character. -/
def advance (p : Position) (c : Char) : Position :=
  if c = '\n' then { p with index := p.index + 1, line := p.line + 1, column := 0 } else p.bump

/-- The place after some characters. -/
def advanceAll (p : Position) (chars : List Char) : Position :=
  chars.foldl advance p

@[simp]
theorem advanceAll_nil (p : Position) : p.advanceAll [] = p := rfl

@[simp]
theorem advanceAll_cons (p : Position) (c : Char) (chars : List Char) :
    p.advanceAll (c :: chars) = (p.advance c).advanceAll chars := rfl

end Position

/-- A stretch of a source, from its first place to the place after its last. -/
structure Span where
  /-- The first place. -/
  start : Position
  /-- The place after the last. -/
  stop : Position
  deriving DecidableEq, Repr, Inhabited

end Pseudocode
