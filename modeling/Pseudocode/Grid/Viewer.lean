import Pseudocode.Grid.Board
import Pseudocode.Grid.Command

/-!
# The grid viewer

The viewer follows a grid file while the robot moves on it.  A file that is just being written may
fail to load, so the viewer counts failures and shows nothing of them until there were too many.  A
load that fails half way leaves behind what it had taken over by then.
-/

namespace Pseudocode
namespace Grid

/-- Something under the turtle. -/
structure Covered where
  row : Nat
  column : Nat
  cell : Cell
  deriving DecidableEq, Repr

/-- The state of the viewer. -/
structure Viewer where
  rows : Int
  columns : Int
  /-- The board, once something has been loaded. -/
  board : Option Board
  turtle : Option Place
  goal : Option Place
  /-- The direction of the turtle: quarter turns clockwise from the right. -/
  facing : Int
  /-- What is under turtles. -/
  covered : List Covered
  /-- How many loads have failed since the last message. -/
  failures : Nat
  deriving Repr

namespace Viewer

/-- How many failures are tolerated. -/
def tolerance : Nat := 5

/-- The viewer with an empty board of its size. -/
def blank (v : Viewer) : Viewer :=
  { v with
    board := some (Board.blank v.rows v.columns), turtle := none, goal := none, facing := 0 }

/-- Show a cell of a kind. -/
def paint (v : Viewer) (row column : Nat) (cell : Cell) : Viewer :=
  { v with board := v.board.map fun board => board.setAt row column cell }

/-- Show a goal and remember it. -/
def showGoal (v : Viewer) (row column : Nat) : Viewer :=
  { v.paint row column .goal with goal := some ⟨row, column⟩ }

/-- Show a turtle and remember its place. -/
def showTurtle (v : Viewer) (row column : Nat) : Viewer :=
  { v.paint row column .turtle with turtle := some ⟨row, column⟩ }

/-- Remember what is under a turtle. -/
def cover (v : Viewer) (row column : Nat) (under : Json) : Viewer :=
  if isWall under then { v with covered := v.covered ++ [⟨row, column, .wall⟩] }
  else if isGoal under then
    { v with covered := v.covered ++ [⟨row, column, .goal⟩], goal := some ⟨row, column⟩ }
  else v

/-- Give the turtle the heading of a number; a fault comes with the viewer as it is by then. -/
def face (v : Viewer) (number : Json) : Except (Viewer × Fault) Viewer :=
  match number.toWhole with
  | .ok degrees => .ok { v with facing := quarters (degrees % fullTurn) }
  | .error fault => .error (v, fault)

/-- Take over a cell of a document.  The heading of a turtle on top of something is read before the
turtle is shown, that of any other turtle afterwards. -/
def loadCell (v : Viewer) (row column : Nat) (cell : Json) : Except (Viewer × Fault) Viewer :=
  if isWall cell then .ok (v.paint row column .wall)
  else if isGoal cell then .ok (v.showGoal row column)
  else
    match turtleNumber? cell, cell with
    | some number, .array (under :: _) =>
        match v.face number with
        | .error (_, fault) => .error (v, fault)
        | .ok faced => .ok ((faced.showTurtle row column).cover row column under)
    | some number, _ => (v.showTurtle row column).face number
    | none, _ => .ok (v.paint row column .empty)

/-- Take over the cells of a row from a column on. -/
def loadRow (row : Nat) : Nat → List Json → Viewer → Except (Viewer × Fault) Viewer
  | _, [], v => .ok v
  | column, cell :: rest, v => do
      let v ← v.loadCell row column cell
      loadRow row (column + 1) rest v

/-- Let a fault carry the viewer as it is. -/
def keeping {α : Type} (v : Viewer) (result : Except Fault α) : Except (Viewer × Fault) α :=
  result.mapError fun fault => (v, fault)

/-- Take over rows from a row on, as many columns as the viewer has. -/
def loadRows : Nat → List Json → Viewer → Except (Viewer × Fault) Viewer
  | _, [], v => .ok v
  | row, cells :: rest, v => do
      let cells ← v.keeping cells.indexed
      let v ← loadRow row 0 (cells.take v.columns.toNat) v
      loadRows (row + 1) rest v

/-- Take over the text of a grid file; the direction of the turtle stays until a turtle is met. -/
def fill (v : Viewer) (text : String) : Except (Viewer × Fault) Viewer := do
  let grid ← v.keeping (Json.read text)
  let (rows, columns) ← v.keeping (shownSize grid)
  let resized : Viewer := { v with
    rows := rows
    columns := columns
    board := some (Board.blank rows columns)
    turtle := none
    goal := none
    covered := [] }
  let lines ← resized.keeping grid.indexed
  loadRows 0 (lines.take rows) resized

/-- Count a failed load; one too many clears the board and prints a message. -/
def fail (v : Viewer) (fault : Fault) : Viewer × String :=
  if tolerance < v.failures then ({ v.blank with failures := 0 }, loadFailure fault)
  else ({ v with failures := v.failures + 1 }, "")

/-- Load a grid file. -/
def load (v : Viewer) (file : File) : Viewer × String :=
  match file with
  | none => (v.blank, "")
  | some text =>
      match v.fill text with
      | .ok loaded => (loaded, "")
      | .error (partway, fault) => partway.fail fault

/-- A viewer that has not loaded anything yet. -/
def unloaded : Viewer :=
  ⟨defaultSize, defaultSize, none, none, none, 0, [], 0⟩

/-- A new viewer, which loads its file at once. -/
def new (file : File) : Viewer × String :=
  unloaded.load file

end Viewer
end Grid
end Pseudocode
