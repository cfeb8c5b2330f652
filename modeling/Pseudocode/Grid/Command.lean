import Pseudocode.Grid.Turtle
import Pseudocode.Json.Reader
import Pseudocode.Json.Writer

/-!
# Commands on a grid file

A command reads the grid file, works on its document and writes it back.  Moving and turning print
what went wrong and go on; looking around does not.
-/

namespace Pseudocode
namespace Grid

/-- A grid file: its text, if there is one. -/
abbrev File : Type := Option String

/-- The document in a grid file. -/
def File.read : File → Except Fault Json
  | some text => Json.read text
  | none => .error .noGridFile

/-- What a command leaves behind. -/
structure Report (α : Type) where
  /-- What was printed. -/
  output : String
  /-- The grid file afterwards. -/
  file : File
  /-- The result of the command. -/
  result : α

/-- The result of moving forward. -/
inductive Progress where
  /-- The turtle moved, or something went wrong that was only printed. -/
  | done
  /-- The turtle reached a goal. -/
  | goal
  /-- There is no turtle. -/
  | noTurtle
  /-- The move failed. -/
  | failed (why : GridProblem)
  deriving DecidableEq, Repr

/-- The result that belongs to the place where a move ends. -/
def Landing.progress : Landing → Progress
  | .free => .done
  | .wall => .failed .wall
  | .goal => .goal

/-- Move the turtle forward. -/
def moveForward (file : File) (steps : Json) : Report Progress :=
  match file.read.bind (moveTurtle · steps) with
  | .ok .noTurtle => ⟨"", file, .noTurtle⟩
  | .ok (.refused why) => ⟨"", file, .failed why⟩
  | .ok (.moved grid landing) => ⟨"", some grid.write, landing.progress⟩
  | .error fault => ⟨"Error moving forward: " ++ fault.message ++ "\n", file, .done⟩

/-- Turn the turtle; `side` is named where something goes wrong. -/
def turn (file : File) (sign : Int) (side : String) (times : Json) : Report Unit :=
  match file.read.bind (turnTurtle · sign times) with
  | .ok none => ⟨"Error: Turtle not found in grid\n", file, ()⟩
  | .ok (some grid) => ⟨"", some grid.write, ()⟩
  | .error fault => ⟨"Error turning " ++ side ++ ": " ++ fault.message ++ "\n", file, ()⟩

/-- Turn the turtle left. -/
def rotateLeft (file : File) (times : Json) : Report Unit :=
  turn file 1 "left" times

/-- Turn the turtle right. -/
def rotateRight (file : File) (times : Json) : Report Unit :=
  turn file (-1) "right" times

/-- Whether the turtle can move one cell in a direction. -/
def canMove (file : File) (direction : Json) : Except Fault Bool := do
  isFree (← file.read) direction

end Grid
end Pseudocode
