import Pseudocode.Grid.Command

/-!
# The robot

The robot lives on a grid file.  It must first be given a grid: a maker window is opened, and when
it ends a result is read, which it or an earlier window has left behind.  A confirmed grid is copied
to the file that the robot moves on.  What the maker windows do is part of the state, as a list with
one entry per window; windows beyond its end leave nothing behind.
-/

namespace Pseudocode

/-- What happens in a maker window. -/
inductive MakerAction where
  /-- A grid with this text is confirmed. -/
  | confirm (grid : String)
  /-- The window is closed without a grid. -/
  | close
  /-- The window ends and leaves nothing behind. -/
  | nothing
  deriving DecidableEq, Repr

/-- What a maker window has left behind. -/
inductive MakerResult where
  | confirmed
  | closed
  deriving DecidableEq, Repr

/-- The robot with its files. -/
structure Robot where
  /-- Whether a maker window is open or did not end well. -/
  making : Bool := false
  /-- Whether a grid has been confirmed. -/
  gridCreated : Bool := false
  /-- Whether the robot moves on a grid. -/
  running : Bool := false
  /-- The grid file that the robot moves on. -/
  current : Grid.File := none
  /-- The grid file that the maker writes. -/
  initial : Grid.File := none
  /-- What the latest maker window has left behind. -/
  result : Option MakerResult := none
  /-- What the maker windows do, in the order in which they are opened. -/
  windows : List MakerAction := []
  /-- How many maker windows have been opened. -/
  opened : Nat := 0
  deriving Repr

namespace Robot

/-- Why the robot did not do as it was told. -/
inductive Trouble where
  /-- A problem that the program is told. -/
  | problem (what : GridProblem)
  /-- A fault. -/
  | fault (fault : Fault)
  deriving Repr

/-- What comes of a command. -/
structure Answer (α : Type) where
  /-- The result. -/
  result : Except Trouble α
  /-- What was printed. -/
  output : String
  /-- The robot afterwards. -/
  robot : Robot

/-- Open a maker window and wait for its end. -/
def openMaker (r : Robot) : Robot :=
  let opened := r.opened + 1
  match r.windows[r.opened]? with
  | some (.confirm grid) =>
      { r with making := true, initial := some grid, result := some .confirmed, opened := opened }
  | some .close => { r with making := true, result := some .closed, opened := opened }
  | _ => { r with making := true, opened := opened }

/-- Let a grid be made and start on it. -/
def createGrid (r : Robot) : Answer Unit :=
  let r := r.openMaker
  match r.result with
  | none => ⟨.error (.fault .noGridResult), "", r⟩
  | some .closed => ⟨.error (.problem .makerClosed), "", r⟩
  | some .confirmed =>
      ⟨.ok (), "",
        { r with
          making := false
          current := r.initial.or r.current
          gridCreated := true
          running := true }⟩

/-- Do something on the grid, if the robot moves on one. -/
def onGrid {α : Type} (r : Robot) (act : Grid.File → Answer α) : Answer α :=
  if r.running then act r.current
  else if r.gridCreated then ⟨.error (.problem .runnerClosed), "", r⟩
  else ⟨.error (.problem .notCreated), "", r⟩

/-- Move one cell forward.  A grid without a turtle counts as done. -/
def moveForward (r : Robot) : Answer Unit :=
  r.onGrid fun file =>
    let report := Grid.moveForward file (.int 1)
    let moved := { r with current := report.file }
    match report.result with
    | .done => ⟨.ok (), report.output, moved⟩
    | .noTurtle => ⟨.ok (), report.output, moved⟩
    | .goal => ⟨.ok (), report.output ++ "Robot has reached the goal!\n", moved⟩
    | .failed why => ⟨.error (.problem why), report.output, moved⟩

/-- Make a quarter turn to the left. -/
def rotateLeft (r : Robot) : Answer Unit :=
  r.onGrid fun file =>
    let report := Grid.rotateLeft file (.int 1)
    ⟨.ok (), report.output, { r with current := report.file }⟩

/-- Make a quarter turn to the right. -/
def rotateRight (r : Robot) : Answer Unit :=
  r.onGrid fun file =>
    let report := Grid.rotateRight file (.int 1)
    ⟨.ok (), report.output, { r with current := report.file }⟩

/-- Whether the way in a direction is free. -/
def canMove (r : Robot) (direction : String) : Answer Bool :=
  r.onGrid fun file =>
    ⟨(Grid.canMove file (Json.ofString direction)).mapError .fault, "", r⟩

end Robot
end Pseudocode
