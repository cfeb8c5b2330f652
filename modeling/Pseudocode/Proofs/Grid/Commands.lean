import Pseudocode.Proofs.Grid.Turtle

/-!
# Commands to the robot

On the file of a grid with one turtle every command does what it is for: nothing is printed, and the
file holds such a grid again, of the same size and with the same walls and goals.  Looking in a
direction tells what a move in that direction would come to.
-/

namespace Pseudocode
namespace Grid

/-! ## Commands -/

/-- The name of a direction. -/
def Direction.word : Direction → String
  | forward => "FORWARD"
  | backward => "BACKWARD"
  | left => "LEFT"
  | right => "RIGHT"

/-- The number of quarter turns to the left that make a direction the one ahead. -/
def Direction.leftTurns : Direction → Nat
  | forward => 0
  | left => 1
  | backward => 2
  | right => 3

/-- A command to the robot. -/
inductive Command where
  | move (steps : Int)
  | left (times : Int)
  | right (times : Int)
  | look (direction : Direction)

/-- What a command gives back. -/
inductive Reply where
  | moved (progress : Progress)
  | turned
  | seen (free : Bool)

/-- Carry out a command on a grid file. -/
def Command.run (file : File) : Command → Report (Except Fault Reply)
  | move steps =>
      let report := moveForward file (.int steps)
      ⟨report.output, report.file, .ok (.moved report.result)⟩
  | left times =>
      let report := rotateLeft file (.int times)
      ⟨report.output, report.file, .ok .turned⟩
  | right times =>
      let report := rotateRight file (.int times)
      ⟨report.output, report.file, .ok .turned⟩
  | look direction =>
      ⟨"", file, (canMove file (.ofString direction.word)).map .seen⟩

/-- The grid file after some commands. -/
def fileAfter (file : File) (commands : List Command) : File :=
  commands.foldl (fun file command => (command.run file).file) file

/-- The number of quarter turns that a command makes. -/
def quarterTurns (times : Int) : Int :=
  if 0 < times then times else 1

/-- Where a command takes the turtle on a grid of a size. -/
def Turtle.after (height width : Nat) (turtle : Turtle) : Command → Turtle
  | .move steps =>
      let row := turtle.row + max steps 0 * (unitStep turtle.heading).1
      let column := turtle.column + max steps 0 * (unitStep turtle.heading).2
      if 0 ≤ row ∧ row < height ∧ 0 ≤ column ∧ column < width then
        ⟨row.toNat, column.toNat, turtle.heading⟩
      else turtle
  | .left times => { turtle with heading := (turtle.heading + 90 * quarterTurns times) % 360 }
  | .right times => { turtle with heading := (turtle.heading - 90 * quarterTurns times) % 360 }
  | .look _ => turtle

/-! ## Files that hold a scene -/

section

variable {width : Nat} {s : Scene width} {file : File}

/-- A move out of the grid is refused. -/
theorem moveForward_outside (held : file.read = .ok (document s.rows)) {steps : Int}
    (outside : s.isOutside (s.ahead (max steps 0)) = true) :
    moveForward file (.int steps) = ⟨"", file, .failed .outOfBounds⟩ := by
  have moved := s.moveTurtle_document steps
  rw [outside, if_pos rfl] at moved
  simp only [moveForward, held, Except.bind, moved]

theorem moveForward_inside (held : file.read = .ok (document s.rows)) {steps : Int}
    (inside : s.isOutside (s.ahead (max steps 0)) = false) :
    ∃ after : Scene width, after.heading = s.heading ∧
      ((after.row : Int), (after.column : Int)) = s.ahead (max steps 0) ∧
      grounds after.floor = grounds s.floor ∧
      moveForward file (.int steps) =
        ⟨"", some (document after.rows).write, (ground after.under).landing.progress⟩ := by
  obtain ⟨after, heading, place, same, moved⟩ := s.moveTurtle_inside inside
  refine ⟨after, heading, place, same, ?_⟩
  simp only [moveForward, held, Except.bind, moved]

theorem turn_held (held : file.read = .ok (document s.rows)) (sign times : Int) (side : String) :
    ∃ after : Scene width, after.floor = s.floor ∧ after.row = s.row ∧ after.column = s.column ∧
      after.heading = (s.heading + sign * quarterTurn * quarterTurns times) % fullTurn ∧
      turn file sign side (.int times) = ⟨"", some (document after.rows).write, ()⟩ := by
  obtain ⟨after, same, row, column, heading, turned⟩ := s.turnTurtle_document sign times
  refine ⟨after, same, row, column, heading, ?_⟩
  simp only [turn, held, Except.bind, turned]

theorem ofDocument_word (direction : Direction) :
    Direction.ofDocument (.ofString direction.word) = .ok direction := by
  cases direction <;> rfl

theorem canMove_held (held : file.read = .ok (document s.rows)) (direction : Direction) :
    canMove file (.ofString direction.word) = .ok (s.isOpen (s.beside direction)) := by
  simp only [canMove, held, bind, Except.bind]
  exact s.isFree_document (ofDocument_word direction)

end

/-! ## Every command -/

/-- What a file holds after a command: the same grid but for its turtle. -/
structure Follows {width : Nat} (s : Scene width) (command : Command)
    (report : Report (Except Fault Reply)) (after : Scene width) : Prop where
  output : report.output = ""
  result : report.result.isOk = true
  held : report.file.read = .ok (document after.rows)
  grounds : grounds after.floor = grounds s.floor
  turtle : (⟨after.row, after.column, after.heading⟩ : Turtle) =
    Turtle.after s.floor.length width ⟨s.row, s.column, s.heading⟩ command

theorem exists_follows_turn {width : Nat} {s : Scene width} {file : File}
    (held : file.read = .ok (document s.rows)) {command : Command} (sign times : Int)
    (side : String)
    (runs : command.run file =
      ⟨(turn file sign side (.int times)).output, (turn file sign side (.int times)).file,
        .ok .turned⟩)
    (turns : Turtle.after s.floor.length width ⟨s.row, s.column, s.heading⟩ command =
      ⟨s.row, s.column, (s.heading + sign * quarterTurn * quarterTurns times) % fullTurn⟩) :
    ∃ after : Scene width, Follows s command (command.run file) after := by
  obtain ⟨after, same, row, column, heading, report⟩ := turn_held held sign times side
  rw [report] at runs
  rw [runs]
  refine ⟨after, rfl, rfl, after.plain_document.read_write, congrArg grounds same, ?_⟩
  rw [turns, row, column, heading]

/-- One step: a command takes a file with a scene to a file with a scene. -/
theorem exists_follows {width : Nat} {s : Scene width} {file : File}
    (held : file.read = .ok (document s.rows)) (command : Command) :
    ∃ after : Scene width, Follows s command (command.run file) after := by
  cases command with
  | move steps =>
      cases outside : s.isOutside (s.ahead (max steps 0)) with
      | true =>
          have stays : ¬ (0 ≤ (s.ahead (max steps 0)).1 ∧ _) := fun inside =>
            Bool.noConfusion (outside.symm.trans (s.isOutside_eq_false_iff.mpr inside))
          rw [Command.run, moveForward_outside held outside]
          exact ⟨s, rfl, rfl, held, rfl, (if_neg stays).symm⟩
      | false =>
          obtain ⟨after, heading, place, same, report⟩ := moveForward_inside held outside
          have row : (s.ahead (max steps 0)).1.toNat = after.row := by
            rw [← place]
            exact Int.toNat_natCast _
          have column : (s.ahead (max steps 0)).2.toNat = after.column := by
            rw [← place]
            exact Int.toNat_natCast _
          rw [Command.run, report]
          refine ⟨after, rfl, rfl, after.plain_document.read_write, same, ?_⟩
          rw [← row, ← column, heading]
          exact (if_pos (s.isOutside_eq_false_iff.mp outside)).symm
  | left times =>
      apply exists_follows_turn held 1 times "left" rfl
      rw [Turtle.after, quarterTurn, fullTurn, Int.one_mul]
  | right times =>
      apply exists_follows_turn held (-1) times "right" rfl
      have same :
          s.heading - 90 * quarterTurns times = s.heading + -1 * 90 * quarterTurns times := by
        omega
      rw [Turtle.after, quarterTurn, fullTurn, same]
  | look direction =>
      refine ⟨s, rfl, ?_, held, rfl, rfl⟩
      rw [Command.run, canMove_held held]
      rfl

theorem length_eq_of_grounds {rows others : List (List Json)}
    (same : grounds rows = grounds others) : rows.length = others.length := by
  have lengths := congrArg List.length same
  rwa [grounds, grounds, List.length_map, List.length_map] at lengths

/-- Every run: after any commands the file holds a scene. -/
theorem exists_fileAfter {width : Nat} {s : Scene width} {file : File}
    (held : file.read = .ok (document s.rows)) (commands : List Command) :
    ∃ after : Scene width, (fileAfter file commands).read = .ok (document after.rows) ∧
      grounds after.floor = grounds s.floor ∧
      (⟨after.row, after.column, after.heading⟩ : Turtle) =
        commands.foldl (Turtle.after s.floor.length width) ⟨s.row, s.column, s.heading⟩ := by
  induction commands generalizing s file with
  | nil => exact ⟨s, held, rfl, rfl⟩
  | cons command rest ih =>
      obtain ⟨next, follows⟩ := exists_follows held command
      obtain ⟨after, heldAfter, same, turtle⟩ := ih follows.held
      refine ⟨after, heldAfter, same.trans follows.grounds, ?_⟩
      rw [turtle, length_eq_of_grounds follows.grounds, follows.turtle, List.foldl_cons]

/-- On the file of a grid with one turtle, any command after any others prints nothing and replies,
and the file afterwards holds a grid with one turtle of the same size, with the same walls and goals
and with the turtle where the commands take it. -/
theorem isGrid_after_commands {file : File} {rows : List (List Json)} {height width : Nat}
    (opened : file.read = .ok (document rows)) (grid : IsGrid rows height width)
    (commands : List Command) (command : Command) :
    (command.run (fileAfter file commands)).output = "" ∧
    (command.run (fileAfter file commands)).result.isOk = true ∧
    ∃ after turtle, (command.run (fileAfter file commands)).file.read = .ok (document after) ∧
      IsGrid after height width ∧ grounds after = grounds rows ∧
      findTurtle (document rows) = .ok (some turtle) ∧
      findTurtle (document after) =
        .ok (some ((commands ++ [command]).foldl (Turtle.after height width) turtle)) := by
  obtain ⟨s, rfl⟩ := grid.exists_scene
  have height_eq : s.floor.length = height := s.length_rows.symm.trans grid.height_eq
  obtain ⟨before, heldBefore, _, _⟩ := exists_fileAfter opened commands
  obtain ⟨_, follows⟩ := exists_follows heldBefore command
  obtain ⟨after, held, same, turtle⟩ := exists_fileAfter opened (commands ++ [command])
  rw [fileAfter, List.foldl_append] at held
  refine ⟨follows.output, follows.result, after.rows, ⟨s.row, s.column, s.heading⟩, held, ?_, ?_,
    s.findTurtle_document, ?_⟩
  · rw [← height_eq, ← length_eq_of_grounds same]
    exact after.isGrid
  · rw [after.grounds_rows, same, s.grounds_rows]
  · rw [after.findTurtle_document, turtle, height_eq]

/-- A grid with the turtle on a wall, headed up. -/
def onWall : List (List Json) :=
  [[.null, .array [.ofString "WALL", .int 90]], [.ofString "Goal", .null]]

/-- The file of the grid. -/
def onWallFile : File := some (document onWall).write

theorem isGrid_onWall : IsGrid onWall 2 2 :=
  ⟨rfl, by decide, by decide, by decide, by decide, by decide⟩

theorem read_onWallFile : onWallFile.read = .ok (document onWall) :=
  isGrid_onWall.plain_document.read_write

theorem isGrid_after_commands_onWall : IsGrid onWall 2 2 ∧
    onWallFile.read = .ok (document onWall) ∧
    ∃ after, ((Command.move 1).run (fileAfter onWallFile [.left 1])).file.read =
        .ok (document after) ∧ IsGrid after 2 2 ∧ grounds after = grounds onWall := by
  obtain ⟨_, _, after, _, read, grid, same, _⟩ :=
    isGrid_after_commands read_onWallFile isGrid_onWall [.left 1] (.move 1)
  exact ⟨isGrid_onWall, read_onWallFile, after, read, grid, same⟩

/-! ## Predictions -/

/-- The place ahead is open exactly if a move there is no failure. -/
theorem isOpen_iff_progress {width : Nat} {s : Scene width} {file : File}
    (held : file.read = .ok (document s.rows)) :
    s.isOpen (s.ahead 1) = true ↔
      (moveForward file (.int 1)).result = .done ∨ (moveForward file (.int 1)).result = .goal := by
  change s.isOpen (s.ahead (max 1 0)) = true ↔ _
  cases outside : s.isOutside (s.ahead (max 1 0)) with
  | true =>
      rw [moveForward_outside held outside, Scene.isOpen, outside]
      simp
  | false =>
      obtain ⟨after, _, place, same, report⟩ := moveForward_inside held outside
      have lies : groundAt? s.floor (s.ahead (max 1 0)) = some (ground after.under) := by
        rw [← groundAt?_eq same, ← place]
        exact congrArg (Option.map ground) (cellAt?_around after.under)
      rw [report, Scene.isOpen, outside, lies]
      dsimp only
      cases ground after.under <;> decide

/-- Scenes with the same floor but for the spelling of walls and goals have the same open places. -/
theorem isOpen_eq {width : Nat} {s t : Scene width} (same : grounds s.floor = grounds t.floor)
    (place : Int × Int) : s.isOpen place = t.isOpen place := by
  rw [Scene.isOpen, Scene.isOpen, Scene.isOutside, Scene.isOutside, length_eq_of_grounds same,
    groundAt?_eq same]

/-- After the turns to a direction, the place in that direction is the one ahead. -/
theorem ahead_of_leftTurns {width : Nat} {s t : Scene width} {height : Nat} (direction : Direction)
    (turtle : (⟨t.row, t.column, t.heading⟩ : Turtle) =
      (List.replicate direction.leftTurns (.left 1)).foldl (Turtle.after height width)
        ⟨s.row, s.column, s.heading⟩) :
    t.ahead 1 = s.beside direction := by
  have place : t.row = s.row ∧ t.column = s.column ∧
      t.heading = (s.heading + direction.offset) % fullTurn := by
    have main := isMain_iff.mp s.isMain
    cases direction <;>
      simp only [Direction.leftTurns, Direction.offset, List.replicate, List.foldl_cons,
        List.foldl_nil, Turtle.after, quarterTurns, fullTurn, Turtle.mk.injEq] at turtle ⊢ <;>
      omega
  obtain ⟨row, column, heading⟩ := place
  rw [Scene.ahead, Scene.beside, row, column, heading, Int.one_mul, Int.one_mul]

/-- Looking in a direction leaves the file as it is and tells whether the move that follows on the
turns to that direction is no failure. -/
theorem look_iff_move {file : File} {rows : List (List Json)} {height width : Nat}
    (opened : file.read = .ok (document rows)) (grid : IsGrid rows height width)
    (direction : Direction) :
    ((Command.look direction).run file).file = file ∧
    ∃ free, ((Command.look direction).run file).result = .ok (.seen free) ∧
      (free = true ↔ ∃ progress, (progress = .done ∨ progress = .goal) ∧
        ((Command.move 1).run
          (fileAfter file (List.replicate direction.leftTurns (.left 1)))).result =
            .ok (.moved progress)) := by
  obtain ⟨s, rfl⟩ := grid.exists_scene
  obtain ⟨turned, held, same, turtle⟩ :=
    exists_fileAfter opened (List.replicate direction.leftTurns (.left 1))
  have place : turned.ahead 1 = s.beside direction := ahead_of_leftTurns direction turtle
  refine ⟨rfl, s.isOpen (s.beside direction), ?_, ?_⟩
  · rw [Command.run, canMove_held opened]
    rfl
  · rw [← isOpen_eq same, ← place, isOpen_iff_progress held, Command.run]
    simp

theorem look_iff_move_onWall : IsGrid onWall 2 2 ∧ onWallFile.read = .ok (document onWall) ∧
    ∃ free, ((Command.look .right).run onWallFile).result = .ok (.seen free) ∧
      (free = true ↔ ∃ progress, (progress = .done ∨ progress = .goal) ∧
        ((Command.move 1).run (fileAfter onWallFile [.left 1, .left 1, .left 1])).result =
          .ok (.moved progress)) :=
  ⟨isGrid_onWall, read_onWallFile, (look_iff_move read_onWallFile isGrid_onWall .right).2⟩

end Grid
end Pseudocode
