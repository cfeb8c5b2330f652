import Pseudocode.Grid.Cell

/-!
# Boards

A board is what the grid windows show: rows of cells of four kinds.  Places on it are given by whole
numbers, and negative ones count from the end.
-/

namespace Pseudocode
namespace Grid

/-- The kinds of cells. -/
inductive Cell where
  | empty
  | wall
  | turtle
  | goal
  deriving DecidableEq, Repr, Inhabited

/-- A place on a board. -/
structure Place where
  row : Int
  column : Int
  deriving DecidableEq, Repr

/-- The rows of a board. -/
abbrev Board : Type := List (List Cell)

namespace Board

/-- A board of empty cells. -/
def blank (rows columns : Int) : Board :=
  List.replicate rows.toNat (List.replicate columns.toNat .empty)

@[simp]
theorem length_blank (rows columns : Int) : (blank rows columns).length = rows.toNat := by
  simp [blank]

theorem length_of_mem_blank {rows columns : Int} {cells : List Cell}
    (member : cells ∈ blank rows columns) : cells.length = columns.toNat := by
  rw [List.eq_of_mem_replicate member, List.length_replicate]

/-- The index that a number stands for in a list of a length. -/
def index? (length : Nat) (i : Int) : Option Nat :=
  let fromStart := if i < 0 then i + length else i
  if 0 ≤ fromStart && fromStart < length then some fromStart.toNat else none

/-- The row and the column, counted from zero, of a place on the board. -/
def locate? (board : Board) (place : Place) : Option (Nat × Nat) := do
  let row ← index? board.length place.row
  let cells ← board[row]?
  return (row, ← index? cells.length place.column)

/-- The cell in a row and a column; outside the board all is empty. -/
def cellAt (board : Board) (row column : Nat) : Cell :=
  ((board[row]?).bind (·[column]?)).getD .empty

/-- Replace the cell in a row and a column. -/
def setAt (board : Board) (row column : Nat) (cell : Cell) : Board :=
  board.modify row fun cells => cells.set column cell

@[simp]
theorem length_setAt (board : Board) (row column : Nat) (cell : Cell) :
    (board.setAt row column cell).length = board.length := by
  simp [setAt]

/-- The cell at a place. -/
def get (board : Board) (place : Place) : Except Fault Cell :=
  match board.locate? place with
  | some (row, column) => .ok (board.cellAt row column)
  | none => .error .listIndex

/-- Replace the cell at a place. -/
def put (board : Board) (place : Place) (cell : Cell) : Except Fault Board :=
  match board.locate? place with
  | some (row, column) => .ok (board.setAt row column cell)
  | none => .error .listIndex

/-- A board of another size with the cells that fit. -/
def resize (board : Board) (rows columns : Int) : Board :=
  (List.range rows.toNat).map fun row =>
    (List.range columns.toNat).map fun column => board.cellAt row column

end Board

/-- The smallest number of rows and of columns that a window shows. -/
def leastSize : Nat := 2

/-- The greatest number of rows and of columns that a window shows. -/
def greatestSize : Nat := 10

/-- The number of rows and of columns of a new window. -/
def defaultSize : Int := 6

/-- The size next to a length that a window can show. -/
def clampSize (length : Nat) : Nat :=
  max leastSize (min greatestSize length)

/-- The rows and columns that a window shows of a document. -/
def shownSize (grid : Json) : Except Fault (Nat × Nat) := do
  let rows ← grid.length
  let columns ← grid.width
  return (clampSize rows, clampSize columns)

/-- The number of quarter turns, clockwise from the right, that belongs to a heading in degrees. -/
def quarters (heading : Int) : Int :=
  ((fullTurn - heading) % fullTurn) / quarterTurn

/-- What a window prints when it cannot load a grid. -/
def loadFailure (fault : Fault) : String :=
  "Failed to load <grid> : " ++ fault.message ++ "\n"

end Grid
end Pseudocode
