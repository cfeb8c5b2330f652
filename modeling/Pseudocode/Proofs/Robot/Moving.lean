import Pseudocode.Proofs.Grid.Commands
import Pseudocode.Robot

/-!
# Moves of the robot

A grid may hold several turtles.  A move takes them all away and puts the first one down a cell
further, so it is the move of a scene in which the first turtle is the only one.  Where there is a
turtle the robot moves or reports a problem.  Where there is none it does neither.
-/

namespace Pseudocode
namespace Grid

/-! ## Fields -/

/-- A rectangle of free cells, walls and goals with any number of turtles. -/
structure IsField (rows : List (List Json)) (width : Nat) : Prop where
  width_eq : ∀ cells ∈ rows, cells.length = width
  cells : ∀ cells ∈ rows, ∀ cell ∈ cells, (isFloor cell || isTurtle cell) = true

/-- There is a turtle on a grid. -/
def HasTurtle (rows : List (List Json)) : Prop :=
  ∃ cells ∈ rows, ∃ cell ∈ cells, isTurtle cell = true

/-- A cell of a field is bare or under a turtle. -/
theorem floor_or_onTop {cell : Json} (either : (isFloor cell || isTurtle cell) = true) :
    isFloor cell = true ∨ ∃ under heading, isFloor under = true ∧ isMain heading = true ∧
      cell = onTop under heading := by
  rw [Bool.or_eq_true] at either
  exact either.imp_right exists_of_isTurtle

theorem isFloor_withoutTurtle {cell : Json} (either : (isFloor cell || isTurtle cell) = true) :
    isFloor (withoutTurtle cell) = true := by
  obtain floor | ⟨under, heading, floor, _, rfl⟩ := floor_or_onTop either
  · rw [withoutTurtle_of_isFloor floor, floor]
  · rw [withoutTurtle_onTop floor, floor]

theorem ground_withoutTurtle {cell : Json} (either : (isFloor cell || isTurtle cell) = true) :
    ground (withoutTurtle cell) = ground cell := by
  obtain floor | ⟨under, heading, floor, _, rfl⟩ := floor_or_onTop either
  · rw [withoutTurtle_of_isFloor floor]
  · rw [withoutTurtle_onTop floor, ground_onTop floor]

theorem turtleNumber?_isSome_iff {cell : Json} (either : (isFloor cell || isTurtle cell) = true) :
    (turtleNumber? cell).isSome = true ↔ isTurtle cell = true := by
  obtain floor | ⟨under, heading, floor, main, rfl⟩ := floor_or_onTop either
  · simp [turtleNumber?_of_isFloor floor, isTurtle_of_isFloor floor]
  · simp [turtleNumber?_onTop floor, isTurtle_onTop floor main]

/-- A grid without its turtles. -/
def cleared (rows : List (List Json)) : List (List Json) :=
  rows.map (·.map withoutTurtle)

namespace IsField

variable {rows : List (List Json)} {width : Nat} (field : IsField rows width)

include field

theorem grounds_cleared : grounds (cleared rows) = grounds rows := by
  rw [grounds, grounds, cleared, List.map_map]
  apply List.map_congr_left
  intro cells member
  rw [Function.comp_apply, List.map_map]
  apply List.map_congr_left
  intro cell here
  exact ground_withoutTurtle (field.cells cells member cell here)

theorem isFloor_cleared : ∀ cells ∈ cleared rows, ∀ cell ∈ cells, isFloor cell = true := by
  intro cells member cell here
  obtain ⟨old, inside, rfl⟩ := List.mem_map.mp member
  obtain ⟨cell, within, rfl⟩ := List.mem_map.mp here
  exact isFloor_withoutTurtle (field.cells old inside cell within)

theorem width_cleared : ∀ cells ∈ cleared rows, cells.length = width := by
  intro cells member
  obtain ⟨old, inside, rfl⟩ := List.mem_map.mp member
  rw [List.length_map, field.width_eq old inside]

/-- Where there is a turtle, there is a first one. -/
theorem exists_sighting (occurs : HasTurtle rows) : ∃ s : Sighting, s.rows = rows := by
  apply Sighting.exists_of_turtle
  · intro cells member cell here number turtle
    obtain floor | ⟨under, heading, floor, _, rfl⟩ :=
      floor_or_onTop (field.cells cells member cell here)
    · cases (turtleNumber?_of_isFloor floor).symm.trans turtle
    · cases (turtleNumber?_onTop floor heading).symm.trans turtle
      exact ⟨heading, rfl⟩
  · obtain ⟨cells, member, cell, here, turtle⟩ := occurs
    exact ⟨cells, member, cell, here,
      (turtleNumber?_isSome_iff (field.cells cells member cell here)).mpr turtle⟩

theorem plain_document : (document rows).Plain := by
  apply Grid.plain_document
  intro cells member cell here
  obtain floor | ⟨under, heading, floor, main, rfl⟩ :=
    floor_or_onTop (field.cells cells member cell here)
  · exact plain_of_isFloor floor
  · exact plain_onTop floor main

theorem bare_of_not (deserted : ¬ HasTurtle rows) :
    ∀ cells ∈ rows, ∀ cell ∈ cells, turtleNumber? cell = none := by
  intro cells member cell here
  have either := field.cells cells member cell here
  rw [← Option.not_isSome_iff_eq_none, turtleNumber?_isSome_iff either]
  exact fun turtle => deserted ⟨cells, member, cell, here, turtle⟩

end IsField

/-! ## The first turtle alone -/

namespace Sighting

variable {s : Sighting} {width : Nat}

theorem hasTurtle (field : IsField s.rows width) : HasTurtle s.rows := by
  obtain ⟨number, turtle, _⟩ := s.turtle
  obtain ⟨_, _, here, _, _⟩ := forall_around.mp field.cells
  refine ⟨s.left ++ s.cell :: s.right, by simp [rows, holding, around], s.cell, by simp, ?_⟩
  rw [← turtleNumber?_isSome_iff here, turtle]
  rfl

/-- The first turtle of a field stands on something and has a main heading. -/
theorem cell_eq (field : IsField s.rows width) :
    isMain s.direction = true ∧ isFloor (withoutTurtle s.cell) = true ∧
      s.cell = onTop (withoutTurtle s.cell) s.direction := by
  obtain ⟨number, turtle, whole⟩ := s.turtle
  obtain ⟨_, _, here, _, _⟩ := forall_around.mp field.cells
  obtain floor | ⟨under, heading, floor, main, same⟩ := floor_or_onTop here
  · cases (turtleNumber?_of_isFloor floor).symm.trans turtle
  · rw [same] at turtle
    cases (turtleNumber?_onTop floor heading).symm.trans turtle
    cases whole
    rw [same, withoutTurtle_onTop floor]
    exact ⟨main, floor, rfl⟩

theorem cleared_rows (s : Sighting) : cleared s.rows = around (cleared s.above)
    (s.left.map withoutTurtle) (withoutTurtle s.cell) (s.right.map withoutTurtle)
    (cleared s.below) := by
  simp [cleared, rows, holding, around]

/-- The scene with the first turtle and no other one. -/
def alone (s : Sighting) (field : IsField s.rows width) : Scene width where
  above := cleared s.above
  left := s.left.map withoutTurtle
  under := withoutTurtle s.cell
  right := s.right.map withoutTurtle
  below := cleared s.below
  heading := s.direction
  isMain := (cell_eq field).1
  isFloor := s.cleared_rows ▸ field.isFloor_cleared
  width_eq := s.cleared_rows ▸ field.width_cleared

variable (field : IsField s.rows width)

include field

theorem floor_alone : (s.alone field).floor = cleared s.rows :=
  s.cleared_rows.symm

theorem row_alone : (s.alone field).row = s.above.length :=
  List.length_map _

theorem column_alone : (s.alone field).column = s.left.length :=
  List.length_map _

/-- The other turtles do not matter to a move. -/
theorem moveTurtle_alone (steps : Int) : moveTurtle (document s.rows) (.int steps) =
    moveTurtle (document (s.alone field).rows) (.int steps) := by
  have heading : s.direction % fullTurn = s.direction := (s.alone field).heading_mod
  have found : findTurtle (document (s.alone field).rows) =
      .ok (some ⟨s.above.length, s.left.length, s.direction⟩) := by
    rw [Scene.findTurtle_document, row_alone, column_alone]
    rfl
  have nonempty : s.rows ≠ [] := by simp [rows, holding, around]
  have lengths : (s.alone field).rows.length = s.rows.length := by
    rw [Scene.length_rows, floor_alone field, cleared, List.length_map]
  have cleared : clearTurtles (document s.rows) = .ok (document (s.alone field).floor) := by
    rw [clearTurtles_eq, floor_alone field]
    rfl
  unfold moveTurtle
  rw [s.findTurtle_document, heading, found]
  simp only [bind, Except.bind, length_document, lengths, cleared,
    width_document nonempty field.width_eq, (s.alone field).clearTurtles_document,
    width_document (s.alone field).rows_ne_nil (s.alone field).width_rows]

end Sighting

/-! ## One cell ahead -/

/-- The place one cell ahead of the first turtle. -/
def Sighting.ahead (s : Sighting) : Int × Int :=
  (s.above.length + (unitStep s.direction).1, s.left.length + (unitStep s.direction).2)

/-- A place that is on a grid and not a wall. -/
def IsOpen (rows : List (List Json)) (width : Nat) (place : Int × Int) : Prop :=
  (0 ≤ place.1 ∧ place.1 < rows.length ∧ 0 ≤ place.2 ∧ place.2 < width) ∧
    groundAt? rows place ≠ some .wall

section

variable {s : Sighting} {width : Nat} {file : File}

theorem ahead_alone (field : IsField s.rows width) : (s.alone field).ahead (max 1 0) = s.ahead := by
  rw [Scene.ahead, Sighting.row_alone field, Sighting.column_alone field]
  change ((s.above.length : Int) + 1 * _, (s.left.length : Int) + 1 * _) = _
  rw [Int.one_mul, Int.one_mul]
  rfl

theorem isOutside_alone (field : IsField s.rows width) (place : Int × Int) :
    (s.alone field).isOutside place = false ↔
      0 ≤ place.1 ∧ place.1 < s.rows.length ∧ 0 ≤ place.2 ∧ place.2 < width := by
  rw [Scene.isOutside_eq_false_iff, Sighting.floor_alone field, cleared, List.length_map]

/-- The first turtle goes one cell ahead if the place is open, and otherwise the move fails. -/
theorem moveForward_cases (field : IsField s.rows width)
    (held : file.read = .ok (document s.rows)) :
    (IsOpen s.rows width s.ahead ∧ (∀ why, (moveForward file (.int 1)).result ≠ .failed why) ∧
      ∃ after : Scene width, after.heading = s.direction ∧
        ((after.row : Int), (after.column : Int)) = s.ahead ∧
        (moveForward file (.int 1)).file = some (document after.rows).write) ∨
    ¬ IsOpen s.rows width s.ahead ∧ ∃ why, (moveForward file (.int 1)).result = .failed why := by
  have ahead := ahead_alone field
  cases outside : (s.alone field).isOutside s.ahead with
  | true =>
      have moved := (s.alone field).moveTurtle_document 1
      rw [ahead, outside, if_pos rfl, ← Sighting.moveTurtle_alone field] at moved
      refine .inr ⟨?_, .outOfBounds, ?_⟩
      · rintro ⟨inside, _⟩
        rw [(isOutside_alone field s.ahead).mpr inside] at outside
        cases outside
      · simp only [moveForward, held, Except.bind, moved]
  | false =>
      have within : (s.alone field).isOutside ((s.alone field).ahead (max 1 0)) = false := by
        rw [ahead, outside]
      obtain ⟨after, heading, place, same, moved⟩ := (s.alone field).moveTurtle_inside within
      rw [ahead] at place
      rw [← Sighting.moveTurtle_alone field] at moved
      have report : moveForward file (.int 1) =
          ⟨"", some (document after.rows).write, (ground after.under).landing.progress⟩ := by
        simp only [moveForward, held, Except.bind, moved]
      have lies : groundAt? s.rows s.ahead = some (ground after.under) := by
        rw [Sighting.floor_alone field, field.grounds_cleared] at same
        rw [← groundAt?_eq same, ← place]
        exact congrArg (Option.map ground) (cellAt?_around after.under)
      have inside := (isOutside_alone field s.ahead).mp outside
      rw [report, IsOpen, lies]
      cases under : ground after.under with
      | wall => exact .inr ⟨fun isOpen => isOpen.2 rfl, .wall, rfl⟩
      | free | goal =>
          refine .inl ⟨⟨inside, by decide⟩, fun why failed => ?_, after, heading, place, rfl⟩
          cases failed

theorem moveForward_bare {rows : List (List Json)} (held : file.read = .ok (document rows))
    (bare : ∀ cells ∈ rows, ∀ cell ∈ cells, turtleNumber? cell = none) :
    moveForward file (.int 1) = ⟨"", file, .noTurtle⟩ := by
  have moved : moveTurtle (document rows) (.int 1) = .ok .noTurtle := by
    rw [moveTurtle, findTurtle_none bare]
    rfl
  simp only [moveForward, held, Except.bind, moved]

end

end Grid

/-! ## The robot -/

namespace Robot

open Grid (IsField HasTurtle IsOpen Sighting Scene document)

variable {r : Robot}

theorem robot_moveForward (running : r.running = true) :
    r.moveForward.robot = { r with current := (Grid.moveForward r.current (.int 1)).file } := by
  rw [moveForward, onGrid, if_pos running]
  dsimp only
  split <;> rfl

theorem result_of_failed (running : r.running = true) {why : GridProblem}
    (failed : (Grid.moveForward r.current (.int 1)).result = .failed why) :
    r.moveForward.result = .error (.problem why) := by
  rw [moveForward, onGrid, if_pos running]
  simp only [failed]

theorem result_of_not_failed (running : r.running = true)
    (done : ∀ why, (Grid.moveForward r.current (.int 1)).result ≠ .failed why) :
    r.moveForward.result = .ok () := by
  rw [moveForward, onGrid, if_pos running]
  dsimp only
  split
  · rfl
  · rfl
  · rfl
  · rename_i why failed
    exact absurd failed (done why)

/-- Without a turtle nothing happens, and nothing is reported. -/
theorem moveForward_deserted {rows : List (List Json)} (running : r.running = true)
    (held : r.current.read = .ok (document rows))
    (bare : ∀ cells ∈ rows, ∀ cell ∈ cells, Grid.turtleNumber? cell = none) :
    r.moveForward = ⟨.ok (), "", r⟩ := by
  rw [moveForward, onGrid, if_pos running, Grid.moveForward_bare held bare]

/-- If a move reports no problem, there was a turtle, and afterwards the only turtle has the heading
of the first one and is one cell further. -/
def Advances (r : Robot) (rows : List (List Json)) (width : Nat) : Prop :=
  r.moveForward.result = .ok () → ∃ s : Sighting, s.rows = rows ∧ ∃ after : Scene width,
    r.moveForward.robot.current.read = .ok (document after.rows) ∧ after.heading = s.direction ∧
    ((after.row : Int), (after.column : Int)) = s.ahead

theorem advances_of_hasTurtle {rows : List (List Json)} {width : Nat} (running : r.running = true)
    (held : r.current.read = .ok (document rows)) (field : IsField rows width)
    (occurs : HasTurtle rows) : r.Advances rows width := by
  intro done
  obtain ⟨s, rfl⟩ := field.exists_sighting occurs
  obtain ⟨_, _, after, heading, place, file⟩ | ⟨_, why, failed⟩ :=
    Grid.moveForward_cases field held
  · refine ⟨s, rfl, after, ?_, heading, place⟩
    rw [robot_moveForward running, file]
    exact after.plain_document.read_write
  · cases (result_of_failed running failed).symm.trans done

theorem not_advances_of_deserted {rows : List (List Json)} {width : Nat}
    (running : r.running = true) (held : r.current.read = .ok (document rows))
    (field : IsField rows width) (deserted : ¬ HasTurtle rows) : ¬ r.Advances rows width := by
  intro advances
  have done : r.moveForward.result = .ok () := by
    rw [moveForward_deserted running held (field.bare_of_not deserted)]
  obtain ⟨s, rfl, _⟩ := advances done
  exact deserted (Sighting.hasTurtle field)

/-- On a field with a turtle a move is a step of the first turtle or reports a problem, and it is a
step exactly if the place ahead is on the grid and not a wall.  On a field without one nothing
happens, and no problem is reported. -/
theorem moveForward_advances_iff {rows : List (List Json)} {width : Nat}
    (running : r.running = true) (held : r.current.read = .ok (document rows))
    (field : IsField rows width) :
    (r.Advances rows width ↔ HasTurtle rows) ∧
    (∀ s : Sighting, s.rows = rows →
      (r.moveForward.result = .ok () ↔ IsOpen rows width s.ahead)) ∧
    (¬ HasTurtle rows → r.moveForward = ⟨.ok (), "", r⟩) := by
  refine ⟨⟨fun advances => ?_, advances_of_hasTurtle running held field⟩, ?_, fun deserted =>
    moveForward_deserted running held (field.bare_of_not deserted)⟩
  · exact Classical.byContradiction fun deserted =>
      not_advances_of_deserted running held field deserted advances
  · rintro s rfl
    obtain ⟨isOpen, done, _⟩ | ⟨shut, why, failed⟩ := Grid.moveForward_cases field held
    · exact iff_of_true (result_of_not_failed running done) isOpen
    · refine iff_of_false (fun done => ?_) shut
      cases (result_of_failed running failed).symm.trans done

/-- A grid on which the first turtle heads for the second one. -/
def facingPair : List (List Json) :=
  [[.int 0, .int 90], [.ofString "WALL", .null]]

/-- A robot on the grid. -/
def onFacingPair : Robot :=
  { running := true, gridCreated := true, current := some (document facingPair).write }

theorem isField_facingPair : IsField facingPair 2 :=
  ⟨by decide, by decide⟩

theorem moveForward_advances_iff_facingPair :
    onFacingPair.running = true ∧ onFacingPair.current.read = .ok (document facingPair) ∧
    IsField facingPair 2 ∧ HasTurtle facingPair ∧ onFacingPair.Advances facingPair 2 ∧
    ∀ s : Sighting, s.rows = facingPair →
      (onFacingPair.moveForward.result = .ok () ↔ IsOpen facingPair 2 s.ahead) := by
  have held : onFacingPair.current.read = .ok (document facingPair) :=
    isField_facingPair.plain_document.read_write
  have occurs : HasTurtle facingPair :=
    ⟨[.int 0, .int 90], List.mem_cons_self, .int 0, List.mem_cons_self, rfl⟩
  obtain ⟨advances, succeeds, _⟩ := moveForward_advances_iff rfl held isField_facingPair
  exact ⟨rfl, held, isField_facingPair, occurs, advances.mpr occurs, succeeds⟩

/-- A robot on a grid without a turtle. -/
def stranded : Robot :=
  { running := true, gridCreated := true, current := some (document [[.null, .null]]).write }

theorem stranded_not_advances :
    stranded.running = true ∧ stranded.current.read = .ok (document [[.null, .null]]) ∧
    IsField [[.null, .null]] 2 ∧ stranded.moveForward.result = .ok () ∧
    ¬ stranded.Advances [[.null, .null]] 2 := by
  have field : IsField [[.null, .null]] 2 := ⟨by decide, by decide⟩
  have held : stranded.current.read = .ok (document [[.null, .null]]) :=
    field.plain_document.read_write
  have deserted : ¬ HasTurtle [[.null, .null]] := by
    rintro ⟨cells, member, cell, here, turtle⟩
    cases List.mem_singleton.mp member
    simp only [List.mem_cons, List.not_mem_nil, or_false, or_self] at here
    subst here
    cases turtle
  refine ⟨rfl, held, field, ?_, not_advances_of_deserted rfl held field deserted⟩
  rw [moveForward_deserted rfl held (field.bare_of_not deserted)]

end Robot
end Pseudocode
