import Pseudocode.Diagnostic
import Pseudocode.Grid.Cell

/-!
# The turtle on a grid

The turtle is moved, turned and asked for its way on the document of a grid.  Nothing here reads or
writes a file.  A move says whether the grid changed and where the turtle ended up; a wall does not
keep the turtle off, it only makes the move a failure.
-/

namespace Pseudocode
namespace Grid

/-- A turtle found on a grid. -/
structure Turtle where
  row : Nat
  column : Nat
  /-- The heading in degrees. -/
  heading : Int
  deriving DecidableEq, Repr

/-- The column and the heading of the first turtle in a row; `look` finds a heading in a cell. -/
def turtleInRow (look : Json → Except Fault (Option Int)) :
    List Json → Except Fault (Option (Nat × Int))
  | [] => .ok none
  | cell :: rest => do
      match ← look cell with
      | some heading => return some (0, heading)
      | none => return (← turtleInRow look rest).map fun (column, heading) => (column + 1, heading)

/-- The first turtle in rows that start at the given one; rows after it are not looked at. -/
def firstTurtle (look : Json → Except Fault (Option Int)) :
    Nat → List Json → Except Fault (Option Turtle)
  | _, [] => .ok none
  | row, cells :: rest => do
      match ← turtleInRow look (← cells.indexed) with
      | some (column, heading) => return some ⟨row, column, heading⟩
      | none => firstTurtle look (row + 1) rest

/-- The turtle of the last row that has one; all rows are looked at. -/
def lastTurtle (look : Json → Except Fault (Option Int)) :
    Nat → List Json → Except Fault (Option Turtle)
  | _, [] => .ok none
  | row, cells :: rest => do
      let found ← turtleInRow look (← cells.indexed)
      let later ← lastTurtle look (row + 1) rest
      return later.or (found.map fun (column, heading) => ⟨row, column, heading⟩)

/-- The first turtle of a grid. -/
def findTurtle (grid : Json) : Except Fault (Option Turtle) := do
  firstTurtle heading? 0 (← grid.indexed)

/-- Replace a cell. -/
def setCell (grid : Json) (row column : Nat) (cell : Json) : Except Fault Json := do
  let cells ← (← grid.item row).setItem column cell
  grid.setItem row cells

/-! ## Moving -/

/-- What is at the place where a move ends. -/
inductive Landing where
  | free
  | wall
  | goal
  deriving DecidableEq, Repr

/-- The result of a move. -/
inductive Move where
  /-- There is no turtle. -/
  | noTurtle
  /-- The move is not possible and the grid stays as it is. -/
  | refused (why : GridProblem)
  /-- The turtle has moved. -/
  | moved (grid : Json) (landing : Landing)

/-- A number of steps. -/
def stepCount : Json → Except Fault Int
  | .bool b => .ok (if b then 1 else 0)
  | .int n => .ok n
  | other => .error (.notWhole other.kind)

/-- Take all turtles out of a row. -/
def clearRow : Json → Except Fault Json
  | .array cells => .ok (.array (cells.map withoutTurtle))
  | other => do
      discard other.indexed
      return other

/-- Take all turtles out of a grid. -/
def clearTurtles (grid : Json) : Except Fault Json :=
  match grid with
  | .array rows => do return .array (← rows.mapM clearRow)
  | other => .ok other

/-- Put the turtle down with its heading.  On a wall or a goal it stands on top of it. -/
def land (grid : Json) (row column : Nat) (heading : Int) : Except Fault Move := do
  let target ← (← grid.item row).item column
  if (turtleNumber? target).isSome then return .refused .occupied
  else if isWall target then
    let on := .array [Json.ofString "Wall", .int heading]
    return .moved (← setCell grid row column on) .wall
  else if isGoal target then
    let on := .array [Json.ofString "Goal", .int heading]
    return .moved (← setCell grid row column on) .goal
  else return .moved (← setCell grid row column (.int heading)) .free

/-- Move the first turtle so many steps along its heading.  Cells on the way do not matter, and a
negative number of steps counts as zero. -/
def moveTurtle (grid : Json) (steps : Json) : Except Fault Move := do
  match ← findTurtle grid with
  | none => return .noTurtle
  | some turtle =>
      let count := max (← stepCount steps) 0
      let (down, right) := unitStep turtle.heading
      let row := turtle.row + count * down
      let column := turtle.column + count * right
      let rows ← grid.length
      let columns ← grid.width
      if row < 0 || rows ≤ row || column < 0 || columns ≤ column then return .refused .outOfBounds
      else land (← clearTurtles grid) row.toNat column.toNat turtle.heading

/-! ## Turning -/

/-- The number of quarter turns that an argument asks for: its whole part if it is positive, and
otherwise one. -/
def turnCount (times : Json) : Except Fault Int :=
  if !times.isTrue then .ok 1
  else
    match times with
    | .bool _ => .ok 1
    | .int n => .ok (if 0 < n then n else 1)
    | .real x => if 0.0 < x then Number.floatToWhole x else .ok 1
    | other => .error (.notComparable other.kind)

/-- Turn the first turtle by a number of quarter turns, counterclockwise if it is positive; `none`
if there is no turtle.  What is under the turtle stays there. -/
def turnTurtle (grid : Json) (sign : Int) (times : Json) : Except Fault (Option Json) := do
  match ← findTurtle grid with
  | none => return none
  | some turtle =>
      let heading := (turtle.heading + sign * quarterTurn * (← turnCount times)) % fullTurn
      let cell ← (← grid.item turtle.row).item turtle.column
      let turned := match cell with
        | .array (under :: _ :: _) => .array [under, .int heading]
        | _ => .int heading
      return some (← setCell grid turtle.row turtle.column turned)

/-! ## Looking around -/

/-- The angle of the turtle in a cell, as the look-out for free ways sees it: a double on its own is
no turtle, and a whole number counts as it is. -/
def angle? : Json → Except Fault (Option Int)
  | .real _ => .ok none
  | .int n => .ok (some n)
  | .bool b => .ok (some (if b then 1 else 0))
  | cell => heading? cell

/-- Whether a cell keeps the turtle off: a wall in any case of letters, or another turtle. -/
def isBlocked : Json → Bool
  | .text points => points.map (fun point => (Char.ofNat point).toUpper) = "WALL".toList
  | .bool _ => true
  | .int _ => true
  | .real _ => false
  | cell => (turtleNumber? cell).isSome

/-- Whether the turtle can move one cell in a direction. -/
def isFree (grid : Json) (direction : Json) : Except Fault Bool := do
  match ← lastTurtle angle? 0 (← grid.indexed) with
  | none => return false
  | some turtle =>
      let toward ← Direction.ofDocument direction
      let (down, right) := unitStep (nearestMain ((turtle.heading + toward.offset) % fullTurn))
      let row := turtle.row + down
      let column := turtle.column + right
      let rows ← grid.length
      let columns ← (← grid.item 0).length
      if row < 0 || rows ≤ row || column < 0 || columns ≤ column then return false
      else return !isBlocked (← (← grid.item row.toNat).item column.toNat)

end Grid
end Pseudocode
