import Pseudocode.Grid.Board
import Pseudocode.Grid.Command

/-!
# The grid editor

The editor holds a board, remembers where its turtle and its goal are, and puts items down with the
chosen tool.  A new turtle or goal replaces the remembered one; whatever is at the remembered place
by then is cleared.
-/

namespace Pseudocode
namespace Grid

/-- The state of the editor. -/
structure Editor where
  rows : Int
  columns : Int
  board : Board
  /-- The place where the turtle was put down. -/
  turtle : Option Place
  /-- The place where the goal was put down. -/
  goal : Option Place
  /-- The direction of the turtle: quarter turns clockwise from the right. -/
  facing : Int
  /-- The item that is put down next; the empty cell stands for none. -/
  tool : Cell
  deriving Repr

namespace Editor

/-- The editor with an empty board of its size. -/
def blank (e : Editor) : Editor :=
  { e with board := Board.blank e.rows e.columns, turtle := none, goal := none, facing := 0 }

/-! ## Loading -/

/-- Take over a cell of a document. -/
def loadCell (e : Editor) (row column : Nat) (cell : Json) : Except Fault Editor :=
  if cell.isText "WALL" then .ok { e with board := e.board.setAt row column .wall }
  else if cell.isText "GOAL" then
    .ok { e with board := e.board.setAt row column .goal, goal := some ⟨row, column⟩ }
  else if cell.isNumber then do
    let heading := (← cell.toWhole) % fullTurn
    return { e with
      board := e.board.setAt row column .turtle
      turtle := some ⟨row, column⟩
      facing := quarters heading }
  else .ok { e with board := e.board.setAt row column .empty }

/-- Take over the cells of a row from a column on. -/
def loadRow (row : Nat) : Nat → List Json → Editor → Except Fault Editor
  | _, [], e => .ok e
  | column, cell :: rest, e => do
      let e ← e.loadCell row column cell
      loadRow row (column + 1) rest e

/-- Take over rows from a row on, as many columns as the editor has. -/
def loadRows : Nat → List Json → Editor → Except Fault Editor
  | _, [], e => .ok e
  | row, cells :: rest, e => do
      let cells ← cells.indexed
      let e ← loadRow row 0 (cells.take e.columns.toNat) e
      loadRows (row + 1) rest e

/-- Take over a document as far as it fits. -/
def fill (e : Editor) (grid : Json) : Except Fault Editor := do
  let rows ← grid.indexed
  loadRows 0 (rows.take e.rows.toNat) e

/-- Load a grid file.  A file that cannot be loaded leaves an empty board and a message. -/
def load (e : Editor) (file : File) : Editor × String :=
  match file with
  | none => (e.blank, "")
  | some text =>
      let sized : Except Fault (Json × Nat × Nat) := do
        let grid ← Json.read text
        return (grid, ← shownSize grid)
      match sized with
      | .error fault => (e.blank, loadFailure fault)
      | .ok (grid, rows, columns) =>
          let resized := ({ e with rows := rows, columns := columns } : Editor).blank
          match resized.fill grid with
          | .ok loaded => (loaded, "")
          | .error fault => (resized, loadFailure fault)

/-- An editor of a size that has not loaded anything yet. -/
def unloaded (rows columns : Int) : Editor :=
  ⟨rows, columns, [], none, none, 0, .turtle⟩

/-- A new editor of a size, which loads its file at once. -/
def new (rows columns : Int) (file : File) : Editor × String :=
  (unloaded rows columns).load file

/-! ## Exporting -/

/-- The document of a cell. -/
def cellDocument (e : Editor) : Cell → Json
  | .empty => .null
  | .wall => Json.ofString "WALL"
  | .goal => Json.ofString "GOAL"
  | .turtle => .int ((fullTurn - e.facing * quarterTurn) % fullTurn)

/-- The document of the board. -/
def document (e : Editor) : Json :=
  .array (e.board.map fun cells => .array (cells.map e.cellDocument))

/-- The text of the grid file that the editor writes. -/
def toFile (e : Editor) : String :=
  e.document.write

/-! ## Editing -/

/-- A remembered place, unless it lies beyond the new size. -/
def keepWithin (rows columns : Int) (place : Option Place) : Option Place :=
  place.filter fun p => p.row < rows && p.column < columns

/-- Change the size of the board. -/
def resize (e : Editor) (rows columns : Int) : Editor :=
  { e with
    rows := rows
    columns := columns
    board := e.board.resize rows columns
    turtle := keepWithin rows columns e.turtle
    goal := keepWithin rows columns e.goal }

/-- Clear the remembered place of an item, then put the item down: the board, and what went wrong.
If putting it down fails the remembered place is cleared all the same. -/
def relocate (board : Board) (item : Cell) (old : Option Place) (place : Place) :
    Board × Option Fault :=
  let clear := match old with
    | some p => board.put p .empty
    | none => .ok board
  match clear with
  | .error fault => (board, some fault)
  | .ok cleared =>
      match cleared.put place item with
      | .error fault => (cleared, some fault)
      | .ok result => (result, none)

/-- Use the tool at a place.  The wall tool takes away a wall that is there already. -/
def place (e : Editor) (p : Place) : Editor × Option Fault :=
  match e.tool with
  | .empty => (e, none)
  | .wall =>
      match e.board.get p with
      | .error fault => (e, some fault)
      | .ok cell =>
          match e.board.put p (if cell = .wall then .empty else .wall) with
          | .error fault => (e, some fault)
          | .ok board => ({ e with board := board }, none)
  | .turtle =>
      let (board, fault) := relocate e.board .turtle e.turtle p
      ({ e with board := board, turtle := if fault.isNone then some p else e.turtle }, fault)
  | .goal =>
      let (board, fault) := relocate e.board .goal e.goal p
      ({ e with board := board, goal := if fault.isNone then some p else e.goal }, fault)

end Editor
end Grid
end Pseudocode
