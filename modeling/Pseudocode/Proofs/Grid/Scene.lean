import Pseudocode.Grid.Command
import Pseudocode.Proofs.Json.Rereading

/-!
# Grids with one turtle

The grids that robots are made for are rectangles of free cells, walls and goals with one turtle on
one of the cells, headed in one of the four main directions.  Such a grid is taken apart at its
turtle: into what lies above and below its row, left and right of it and under it.
-/

namespace Pseudocode
namespace Grid

/-! ## Cells -/

/-- Whether a heading is one of the four main ones. -/
def isMain (heading : Int) : Bool :=
  heading = 0 || heading = 90 || heading = 180 || heading = 270

/-- Whether a cell is empty, a wall or a goal. -/
def isFloor : Json → Bool
  | .null => true
  | cell => isWall cell || isGoal cell

/-- Whether a cell is a turtle with a main heading, alone or on top of a wall or a goal. -/
def isTurtle : Json → Bool
  | .int heading => isMain heading
  | .array [under, .int heading] => (isWall under || isGoal under) && isMain heading
  | _ => false

/-- What lies on a cell. -/
inductive Ground where
  | free
  | wall
  | goal
  deriving DecidableEq, Repr

/-- What a cell without a turtle is. -/
def bareGround (cell : Json) : Ground :=
  if isWall cell then .wall else if isGoal cell then .goal else .free

/-- What lies on a cell, bare or under a turtle. -/
def ground : Json → Ground
  | .array (under :: _) => bareGround under
  | cell => bareGround cell

/-- What lies on the cells of a grid. -/
def grounds (rows : List (List Json)) : List (List Ground) :=
  rows.map (·.map ground)

/-- The document of a grid. -/
def document (rows : List (List Json)) : Json :=
  .array (rows.map .array)

/-- A rectangle of free cells, walls and goals with exactly one turtle. -/
structure IsGrid (rows : List (List Json)) (height width : Nat) : Prop where
  height_eq : rows.length = height
  height_pos : 0 < height
  width_eq : ∀ cells ∈ rows, cells.length = width
  width_pos : 0 < width
  cells : ∀ cells ∈ rows, ∀ cell ∈ cells, (isFloor cell || isTurtle cell) = true
  turtle : rows.flatten.countP isTurtle = 1

theorem isMain_iff {heading : Int} :
    isMain heading = true ↔ heading = 0 ∨ heading = 90 ∨ heading = 180 ∨ heading = 270 := by
  simp [isMain, or_assoc]

theorem eq_of_isText {cell : Json} {word : String} (same : cell.isText word = true) :
    cell = Json.ofString word := by
  cases cell with
  | text points => exact congrArg Json.text (of_decide_eq_true same)
  | null | bool | int | real | array | object => cases same

theorem isFloor_cases {cell : Json} (floor : isFloor cell = true) :
    cell = .null ∨ cell = .ofString "Wall" ∨ cell = .ofString "WALL" ∨ cell = .ofString "Goal" ∨
      cell = .ofString "GOAL" := by
  cases cell with
  | null => exact .inl rfl
  | text points =>
      rw [isFloor, isWall, isGoal, Bool.or_eq_true, Bool.or_eq_true, Bool.or_eq_true] at floor
      · obtain (h | h) | h | h := floor
        · exact .inr (.inl (eq_of_isText h))
        · exact .inr (.inr (.inl (eq_of_isText h)))
        · exact .inr (.inr (.inr (.inl (eq_of_isText h))))
        · exact .inr (.inr (.inr (.inr (eq_of_isText h))))
      · intro isNull
        cases isNull
  | bool | int | real | array | object => cases floor

/-- The cell of a turtle on top of something. -/
def onTop (under : Json) (heading : Int) : Json :=
  match under with
  | .null => .int heading
  | under => .array [under, .int heading]

section

variable {cell under : Json} {heading : Int}

theorem turtleNumber?_of_isFloor (floor : isFloor cell = true) : turtleNumber? cell = none := by
  obtain rfl | rfl | rfl | rfl | rfl := isFloor_cases floor <;> rfl

theorem angle?_of_isFloor (floor : isFloor cell = true) : angle? cell = .ok none := by
  obtain rfl | rfl | rfl | rfl | rfl := isFloor_cases floor <;> rfl

theorem withoutTurtle_of_isFloor (floor : isFloor cell = true) : withoutTurtle cell = cell := by
  obtain rfl | rfl | rfl | rfl | rfl := isFloor_cases floor <;> rfl

theorem isTurtle_of_isFloor (floor : isFloor cell = true) : isTurtle cell = false := by
  obtain rfl | rfl | rfl | rfl | rfl := isFloor_cases floor <;> rfl

theorem onTop_cases (floor : isFloor under = true) (heading : Int) :
    under = .null ∧ onTop under heading = .int heading ∨
      (isWall under || isGoal under) = true ∧
        onTop under heading = .array [under, .int heading] := by
  obtain rfl | rfl | rfl | rfl | rfl := isFloor_cases floor
  · exact .inl ⟨rfl, rfl⟩
  all_goals exact .inr ⟨rfl, rfl⟩

theorem turtleNumber?_onTop (floor : isFloor under = true) (heading : Int) :
    turtleNumber? (onTop under heading) = some (.int heading) := by
  obtain ⟨_, same⟩ | ⟨_, same⟩ := onTop_cases floor heading <;> rw [same] <;> rfl

theorem heading?_onTop (floor : isFloor under = true) (main : isMain heading = true) :
    heading? (onTop under heading) = .ok (some heading) := by
  rw [heading?, turtleNumber?_onTop floor]
  obtain rfl | rfl | rfl | rfl := isMain_iff.mp main <;> rfl

theorem angle?_onTop (floor : isFloor under = true) (main : isMain heading = true) :
    angle? (onTop under heading) = .ok (some heading) := by
  obtain ⟨_, same⟩ | ⟨_, same⟩ := onTop_cases floor heading
  · rw [same]
    rfl
  · rw [same, angle?, ← same, heading?_onTop floor main]
    all_goals
      intro _ absurd
      cases absurd

theorem withoutTurtle_onTop (floor : isFloor under = true) (heading : Int) :
    withoutTurtle (onTop under heading) = under := by
  obtain ⟨rfl, same⟩ | ⟨_, same⟩ := onTop_cases floor heading <;> rw [same] <;> rfl

theorem isTurtle_onTop (floor : isFloor under = true) (main : isMain heading = true) :
    isTurtle (onTop under heading) = true := by
  obtain ⟨rfl, same⟩ | ⟨item, same⟩ := onTop_cases floor heading
  · rw [same, isTurtle, main]
  · rw [same, isTurtle, item, main]
    rfl

theorem ground_onTop (floor : isFloor under = true) (heading : Int) :
    ground (onTop under heading) = ground under := by
  obtain rfl | rfl | rfl | rfl | rfl := isFloor_cases floor <;> rfl

theorem isFloor_of_item (item : (isWall under || isGoal under) = true) (heading : Int) :
    isFloor under = true ∧ onTop under heading = .array [under, .int heading] := by
  cases under with
  | null => cases item
  | bool | int | real | text | array | object => exact ⟨item, rfl⟩

/-- A turtle stands on top of something. -/
theorem exists_of_isTurtle (turtle : isTurtle cell = true) :
    ∃ under heading, isFloor under = true ∧ isMain heading = true ∧ cell = onTop under heading := by
  unfold isTurtle at turtle
  split at turtle
  · rename_i heading
    exact ⟨.null, heading, rfl, turtle, rfl⟩
  · rename_i under heading
    rw [Bool.and_eq_true] at turtle
    obtain ⟨item, main⟩ := turtle
    obtain ⟨floor, same⟩ := isFloor_of_item item heading
    exact ⟨under, heading, floor, main, same.symm⟩
  · cases turtle

theorem plain_of_isFloor (floor : isFloor cell = true) : cell.Plain := by
  obtain rfl | rfl | rfl | rfl | rfl := isFloor_cases floor
  · exact .null
  all_goals exact .text (by decide)

theorem plain_onTop (floor : isFloor under = true) (main : isMain heading = true) :
    (onTop under heading).Plain := by
  have number : (Json.int heading).Plain := by
    obtain rfl | rfl | rfl | rfl := isMain_iff.mp main <;> exact .int (by decide)
  obtain ⟨_, same⟩ | ⟨_, same⟩ := onTop_cases floor heading
  · rw [same]
    exact number
  · rw [same]
    apply Json.Plain.array
    simp only [List.forall_mem_cons]
    exact ⟨plain_of_isFloor floor, number, fun _ absent => by cases absent⟩

end

theorem plain_document {rows : List (List Json)}
    (plain : ∀ cells ∈ rows, ∀ cell ∈ cells, cell.Plain) : (document rows).Plain := by
  apply Json.Plain.array
  intro row member
  obtain ⟨cells, inside, rfl⟩ := List.mem_map.mp member
  exact .array (plain cells inside)

/-! ## Scenes -/

/-- Rows taken apart at a cell. -/
def around (above : List (List Json)) (left : List Json) (cell : Json) (right : List Json)
    (below : List (List Json)) : List (List Json) :=
  above ++ (left ++ cell :: right) :: below

section

variable {above below : List (List Json)} {left right : List Json} {old new : Json}

/-- What holds of all cells holds of the cell in the middle and of the cells on its four sides. -/
theorem forall_around {P : Json → Prop} :
    (∀ cells ∈ around above left new right below, ∀ cell ∈ cells, P cell) ↔
      (∀ cells ∈ above, ∀ cell ∈ cells, P cell) ∧ (∀ cell ∈ left, P cell) ∧ P new ∧
        (∀ cell ∈ right, P cell) ∧ ∀ cells ∈ below, ∀ cell ∈ cells, P cell := by
  simp only [around, List.mem_append, List.mem_cons, or_imp, forall_and, forall_eq, and_assoc]

theorem width_around {width : Nat}
    (widths : ∀ cells ∈ around above left old right below, cells.length = width) :
    ∀ cells ∈ around above left new right below, cells.length = width := by
  simpa [around, or_imp, forall_and] using widths

theorem length_around :
    (around above left new right below).length = (around above left old right below).length := by
  simp [around]

theorem grounds_around (same : ground new = ground old) :
    grounds (around above left new right below) = grounds (around above left old right below) := by
  simp [grounds, around, same]

end

/-- A grid taken apart at its turtle. -/
structure Scene (width : Nat) where
  /-- The rows above the turtle. -/
  above : List (List Json)
  /-- The cells left of the turtle. -/
  left : List Json
  /-- What lies under the turtle. -/
  under : Json
  /-- The cells right of the turtle. -/
  right : List Json
  /-- The rows below the turtle. -/
  below : List (List Json)
  heading : Int
  isMain : Grid.isMain heading = true
  isFloor : ∀ cells ∈ around above left under right below, ∀ cell ∈ cells,
    Grid.isFloor cell = true
  width_eq : ∀ cells ∈ around above left under right below, cells.length = width

namespace Scene

variable {width : Nat} (s : Scene width)

/-- The rows with a cell in the place of the turtle. -/
def holding (cell : Json) : List (List Json) :=
  around s.above s.left cell s.right s.below

/-- The rows without the turtle. -/
def floor : List (List Json) :=
  s.holding s.under

/-- The rows of the grid. -/
def rows : List (List Json) :=
  s.holding (onTop s.under s.heading)

theorem isFloor_sides : (∀ cells ∈ s.above, ∀ cell ∈ cells, Grid.isFloor cell = true) ∧
    (∀ cell ∈ s.left, Grid.isFloor cell = true) ∧ Grid.isFloor s.under = true ∧
    (∀ cell ∈ s.right, Grid.isFloor cell = true) ∧
    ∀ cells ∈ s.below, ∀ cell ∈ cells, Grid.isFloor cell = true :=
  forall_around.mp s.isFloor

theorem isFloor_under : Grid.isFloor s.under = true :=
  s.isFloor_sides.2.2.1

theorem length_rows : s.rows.length = s.floor.length :=
  length_around

theorem width_rows : ∀ cells ∈ s.rows, cells.length = width :=
  width_around s.width_eq

theorem grounds_rows : grounds s.rows = grounds s.floor :=
  grounds_around (ground_onTop s.isFloor_under s.heading)

/-- What holds of all free cells, walls and goals and of the turtle holds of all cells. -/
theorem forall_rows {P : Json → Prop} (floors : ∀ cell, Grid.isFloor cell = true → P cell)
    (turtle : P (onTop s.under s.heading)) : ∀ cells ∈ s.rows, ∀ cell ∈ cells, P cell := by
  obtain ⟨above, left, _, right, below⟩ := s.isFloor_sides
  exact forall_around.mpr ⟨fun cells inside cell here => floors cell (above cells inside cell here),
    fun cell here => floors cell (left cell here), turtle,
    fun cell here => floors cell (right cell here),
    fun cells inside cell here => floors cell (below cells inside cell here)⟩

theorem plain_document : (document s.rows).Plain :=
  Grid.plain_document
    (s.forall_rows (fun _ => plain_of_isFloor) (plain_onTop s.isFloor_under s.isMain))

theorem countP_floor {cells : List Json} (floors : ∀ cell ∈ cells, Grid.isFloor cell = true) :
    cells.countP isTurtle = 0 := by
  rw [List.countP_eq_zero]
  intro cell member
  rw [isTurtle_of_isFloor (floors cell member)]
  decide

theorem isGrid : IsGrid s.rows s.floor.length width where
  height_eq := s.length_rows
  height_pos := by
    rw [floor, holding, around, List.length_append, List.length_cons]
    omega
  width_eq := s.width_rows
  width_pos := by
    have row := s.width_eq (s.left ++ s.under :: s.right) (by simp [around])
    rw [← row, List.length_append, List.length_cons]
    omega
  cells := by
    refine s.forall_rows (P := fun cell => (Grid.isFloor cell || isTurtle cell) = true) ?_ ?_
    · intro cell floor
      rw [floor, Bool.true_or]
    · rw [isTurtle_onTop s.isFloor_under s.isMain, Bool.or_true]
  turtle := by
    obtain ⟨above, left, _, right, below⟩ := s.isFloor_sides
    have flat {rows : List (List Json)} (floors : ∀ cells ∈ rows, ∀ cell ∈ cells,
        Grid.isFloor cell = true) : rows.flatten.countP isTurtle = 0 := by
      apply countP_floor
      intro cell member
      obtain ⟨cells, inside, here⟩ := List.mem_flatten.mp member
      exact floors cells inside cell here
    simp [rows, holding, around, List.countP_append, flat above, flat below, countP_floor left,
      countP_floor right, isTurtle_onTop s.isFloor_under s.isMain]

end Scene

theorem IsGrid.exists_scene {rows : List (List Json)} {height width : Nat}
    (grid : IsGrid rows height width) : ∃ s : Scene width, s.rows = rows := by
  have occurs : 0 < rows.flatten.countP isTurtle := by
    rw [grid.turtle]
    exact Nat.zero_lt_one
  obtain ⟨cell, member, turtle⟩ := List.countP_pos_iff.mp occurs
  obtain ⟨cells, inside, here⟩ := List.mem_flatten.mp member
  obtain ⟨above, below, rfl⟩ := List.append_of_mem inside
  obtain ⟨left, right, rfl⟩ := List.append_of_mem here
  obtain ⟨under, heading, floor, main, rfl⟩ := exists_of_isTurtle turtle
  have only := grid.turtle
  simp only [List.flatten_append, List.flatten_cons, List.countP_append, List.countP_cons,
    isTurtle_onTop floor main, if_true] at only
  obtain ⟨aboveCells, leftCells, _, rightCells, belowCells⟩ := forall_around.mp grid.cells
  have floors {cells : List Json} (free : cells.countP isTurtle = 0)
      (either : ∀ cell ∈ cells, (isFloor cell || isTurtle cell) = true) :
      ∀ cell ∈ cells, isFloor cell = true := by
    intro cell member
    have noTurtle := Bool.eq_false_iff.mpr (List.countP_eq_zero.mp free cell member)
    have one := either cell member
    rwa [noTurtle, Bool.or_false] at one
  have flat {rows : List (List Json)} (free : rows.flatten.countP isTurtle = 0)
      (either : ∀ cells ∈ rows, ∀ cell ∈ cells, (isFloor cell || isTurtle cell) = true) :
      ∀ cells ∈ rows, ∀ cell ∈ cells, isFloor cell = true := by
    intro cells member
    apply floors _ (either cells member)
    rw [List.countP_eq_zero] at free ⊢
    exact fun cell here => free cell (List.mem_flatten.mpr ⟨cells, member, here⟩)
  refine ⟨⟨above, left, under, right, below, heading, main, forall_around.mpr ?_, ?_⟩, rfl⟩
  · exact ⟨flat (by omega) aboveCells, floors (by omega) leftCells, floor,
      floors (by omega) rightCells, flat (by omega) belowCells⟩
  · exact width_around grid.width_eq

theorem IsGrid.plain_document {rows : List (List Json)} {height width : Nat}
    (grid : IsGrid rows height width) : (document rows).Plain := by
  obtain ⟨s, rfl⟩ := grid.exists_scene
  exact s.plain_document

end Grid
end Pseudocode
