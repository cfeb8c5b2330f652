import Pseudocode.Json.Basic
import Pseudocode.Number.Basic
import Pseudocode.Text.Blank

/-!
# Cells of a grid file

A grid file is an array of rows, and a row is an array of cells.  A number is a turtle with that
heading in degrees, counted counterclockwise from the right.  A pair of something and a number is a
turtle on top of that something.  Two texts stand for a wall and a goal, and everything else is
empty.
-/

namespace Pseudocode

namespace Json

/-- A number without its fraction. -/
def toWhole : Json → Except Fault Int
  | bool b => .ok (if b then 1 else 0)
  | int n => .ok n
  | real x => Number.floatToWhole x
  | other => .error (.notWhole other.kind)

/-- Whether a document counts as true: not null, not zero and not empty. -/
def isTrue : Json → Bool
  | null => false
  | bool b => b
  | int n => n ≠ 0
  | real x => x != 0.0
  | text points => !points.isEmpty
  | array items => !items.isEmpty
  | object properties => !properties.isEmpty

/-- The items of a document in the order of their indices.  An object that is not empty has none at
index zero. -/
def indexed : Json → Except Fault (List Json)
  | text points => .ok (points.map fun point => .text [point])
  | array items => .ok items
  | object [] => .ok []
  | object (_ :: _) => .error (.missingKey "0")
  | other => .error (.noLength other.kind)

/-- The length of the longest member of a document, zero if it has none. -/
def width (j : Json) : Except Fault Nat := do
  let lengths ← (← j.members).mapM length
  return lengths.foldl max 0

end Json

namespace Grid

/-- The number of degrees in a full turn. -/
def fullTurn : Int := 360

/-- The number of degrees in a quarter turn. -/
def quarterTurn : Int := 90

/-- The number in a cell that holds a turtle: the cell itself, or the second part of a pair. -/
def turtleNumber? : Json → Option Json
  | .bool b => some (.bool b)
  | .int n => some (.int n)
  | .real x => some (.real x)
  | .array (_ :: number :: _) => if number.isNumber then some number else none
  | _ => none

/-- The heading of the turtle in a cell, from zero up to a full turn. -/
def heading? (cell : Json) : Except Fault (Option Int) :=
  match turtleNumber? cell with
  | some number => do return some ((← number.toWhole) % fullTurn)
  | none => .ok none

/-- What is left of a cell once its turtle has gone. -/
def withoutTurtle (cell : Json) : Json :=
  match turtleNumber? cell, cell with
  | some _, .array (under :: _) => under
  | some _, _ => .null
  | none, _ => cell

/-- Whether a cell is a wall. -/
def isWall (cell : Json) : Bool :=
  cell.isText "Wall" || cell.isText "WALL"

/-- Whether a cell is a goal. -/
def isGoal (cell : Json) : Bool :=
  cell.isText "Goal" || cell.isText "GOAL"

/-! ## Directions -/

/-- A direction as the robot sees it. -/
inductive Direction where
  | forward
  | backward
  | left
  | right
  deriving DecidableEq, Repr

namespace Direction

/-- The angle from the heading to the direction. -/
def offset : Direction → Int
  | forward => 0
  | backward => 180
  | left => 90
  | right => 270

/-- The capital of a Latin letter; the dotless i has the same capital as the dotted one. -/
def capital (c : Char) : Char :=
  if c = 'ı' then 'I' else c.toUpper

/-- The direction with a name; blanks around it and the case of its letters do not matter. -/
def ofName? (name : String) : Option Direction :=
  match String.ofList ((Text.strip name.toList).map capital) with
  | "FORWARD" => some forward
  | "BACKWARD" => some backward
  | "LEFT" => some left
  | "RIGHT" => some right
  | _ => none

/-- The direction that a document names. -/
def ofDocument (j : Json) : Except Fault Direction :=
  match j with
  | .text points =>
      let name := String.ofList (points.map Char.ofNat)
      match ofName? name with
      | some direction => .ok direction
      | none => .error (.unknownDirection name)
  | other =>
      if other.isTrue then .error (.directionNotText other.kind) else .error (.unknownDirection "")

end Direction

/-- The step of one cell that belongs to a heading, as a change of row and of column.  Only the four
main headings have one. -/
def unitStep (heading : Int) : Int × Int :=
  if heading = 0 then (0, 1)
  else if heading = 90 then (-1, 0)
  else if heading = 180 then (0, -1)
  else if heading = 270 then (1, 0)
  else (0, 0)

/-- The main heading next to an angle; half way between two of them the even quarter wins. -/
def nearestMain (angle : Int) : Int :=
  let quarter := angle / quarterTurn
  let twice := 2 * (angle % quarterTurn)
  let up := quarterTurn < twice || (twice = quarterTurn && quarter % 2 = 1)
  ((if up then quarter + 1 else quarter) * quarterTurn) % fullTurn

end Grid
end Pseudocode
