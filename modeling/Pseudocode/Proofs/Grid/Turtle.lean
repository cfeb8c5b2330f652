import Pseudocode.Proofs.Grid.Sighting

/-!
# The turtle of a scene

The only turtle of a scene is the one that is found, whichever way the grid is searched.  Moving,
turning and looking around are described on scenes.
-/

namespace Pseudocode
namespace Grid

/-! ## Finding the turtle -/

section

variable {look : Json → Except Fault (Option Int)} {above : List (List Json)} {row : List Json}
  {column : Nat} {heading : Int}

theorem lastTurtle_none {below : List (List Json)}
    (empty : ∀ cells ∈ below, turtleInRow look cells = .ok none) (start : Nat) :
    lastTurtle look start (below.map .array) = .ok none := by
  induction below generalizing start with
  | nil => rfl
  | cons first rest ih =>
      obtain ⟨here, others⟩ := List.forall_mem_cons.mp empty
      rw [List.map_cons, lastTurtle]
      change (turtleInRow look first >>= _) = _
      rw [here, ih others]
      rfl

theorem lastTurtle_some {below : List (List Json)}
    (before : ∀ cells ∈ above, turtleInRow look cells = .ok none)
    (found : turtleInRow look row = .ok (some (column, heading)))
    (after : ∀ cells ∈ below, turtleInRow look cells = .ok none) (start : Nat) :
    lastTurtle look start ((above ++ row :: below).map .array) =
      .ok (some ⟨start + above.length, column, heading⟩) := by
  induction above generalizing start with
  | nil =>
      rw [List.nil_append, List.map_cons, lastTurtle]
      change (turtleInRow look row >>= _) = _
      rw [found, lastTurtle_none after]
      rfl
  | cons first rest ih =>
      obtain ⟨here, others⟩ := List.forall_mem_cons.mp before
      have later := ih others (start + 1)
      rw [List.cons_append, List.map_cons, lastTurtle]
      change (turtleInRow look first >>= _) = _
      rw [here, List.length_cons, ← Nat.add_assoc, Nat.add_right_comm]
      rw [later]
      rfl

end

namespace Scene

variable {width : Nat} (s : Scene width)

/-- The row of the turtle. -/
def row : Nat :=
  s.above.length

/-- The column of the turtle. -/
def column : Nat :=
  s.left.length

/-- The turtle is the first one, since it is the only one. -/
def sighting : Sighting where
  above := s.above
  left := s.left
  cell := onTop s.under s.heading
  right := s.right
  below := s.below
  direction := s.heading
  turtle := ⟨.int s.heading, turtleNumber?_onTop s.isFloor_under s.heading, rfl⟩
  bareAbove cells member cell here :=
    turtleNumber?_of_isFloor (s.isFloor_sides.1 cells member cell here)
  bareLeft cell here := turtleNumber?_of_isFloor (s.isFloor_sides.2.1 cell here)

theorem heading_mod : s.heading % fullTurn = s.heading := by
  obtain h | h | h | h := isMain_iff.mp s.isMain <;> rw [h] <;> rfl

theorem findTurtle_document :
    findTurtle (document s.rows) = .ok (some ⟨s.row, s.column, s.heading⟩) := by
  have found := s.sighting.findTurtle_document
  have heading : s.sighting.direction % fullTurn = s.heading := s.heading_mod
  rw [heading] at found
  exact found

theorem lastTurtle_document :
    lastTurtle angle? 0 (s.rows.map .array) = .ok (some ⟨s.row, s.column, s.heading⟩) := by
  obtain ⟨above, left, under, _, below⟩ := s.isFloor_sides
  have found := turtleInRow_some s.right (fun cell here => angle?_of_isFloor (left cell here))
    (angle?_onTop under s.isMain)
  have empty {rows : List (List Json)} (floors : ∀ cells ∈ rows, ∀ cell ∈ cells,
      Grid.isFloor cell = true) : ∀ cells ∈ rows, turtleInRow angle? cells = .ok none :=
    fun cells member => turtleInRow_none fun cell here =>
      angle?_of_isFloor (floors cells member cell here)
  have last := lastTurtle_some (empty above) found (empty below) 0
  rw [Nat.zero_add] at last
  exact last

end Scene

/-! ## Cells and sizes -/

theorem length_document (rows : List (List Json)) :
    (document rows).length = .ok rows.length := by
  rw [document, Json.length, List.length_map]

theorem mapM_length (rows : List (List Json)) :
    (rows.map Json.array).mapM Json.length = .ok (rows.map List.length) := by
  induction rows with
  | nil => rfl
  | cons cells rest ih =>
      rw [List.map_cons, List.mapM_cons, ih]
      rfl

/-- The width of a grid is the length of its longest row. -/
theorem width_document_eq (rows : List (List Json)) :
    (document rows).width = .ok ((rows.map List.length).foldl max 0) := by
  change ((rows.map Json.array).mapM Json.length >>= _) = _
  rw [mapM_length]
  rfl

theorem foldl_max {lengths : List Nat} {width start : Nat} (nonempty : lengths ≠ [])
    (same : ∀ n ∈ lengths, n = width) (less : start ≤ width) : lengths.foldl max start = width := by
  induction lengths generalizing start with
  | nil => exact absurd rfl nonempty
  | cons first rest ih =>
      obtain ⟨rfl, others⟩ := List.forall_mem_cons.mp same
      rw [List.foldl_cons, Nat.max_eq_right less]
      cases rest with
      | nil => rfl
      | cons second rest => exact ih (List.cons_ne_nil _ _) others (Nat.le_refl first)

theorem width_document {rows : List (List Json)} {width : Nat} (nonempty : rows ≠ [])
    (widths : ∀ cells ∈ rows, cells.length = width) : (document rows).width = .ok width := by
  have lengths : (rows.map List.length).foldl max 0 = width := by
    apply foldl_max
    · rwa [ne_eq, List.map_eq_nil_iff]
    · intro n member
      obtain ⟨cells, inside, rfl⟩ := List.mem_map.mp member
      exact widths cells inside
    · exact Nat.zero_le width
  rw [width_document_eq, lengths]

theorem exists_around {rows : List (List Json)} {width row column : Nat}
    (widths : ∀ cells ∈ rows, cells.length = width) (inside : row < rows.length)
    (within : column < width) :
    ∃ above left cell right below, rows = around above left cell right below ∧
      above.length = row ∧ left.length = column := by
  obtain ⟨above, cells, below, rfl, rowEq, _⟩ := List.exists_of_modify id inside
  have long : column < cells.length := by
    rw [widths cells (by simp)]
    exact within
  obtain ⟨left, cell, right, rfl, columnEq, _⟩ := List.exists_of_modify id long
  exact ⟨above, left, cell, right, below, rfl, rowEq, columnEq⟩

/-! ## Moving -/

/-- The cell that is left where the turtle has stood on something. -/
def Ground.cell : Ground → Json
  | .free => .null
  | .wall => .ofString "Wall"
  | .goal => .ofString "Goal"

/-- What a move that ends on something comes to. -/
def Ground.landing : Ground → Landing
  | .free => .free
  | .wall => .wall
  | .goal => .goal

theorem Ground.isFloor_cell (g : Ground) : isFloor g.cell = true := by
  cases g <;> rfl

theorem Ground.ground_cell (g : Ground) : ground g.cell = g := by
  cases g <;> rfl

theorem land_around {above below : List (List Json)} {left right : List Json} {cell : Json}
    (floor : isFloor cell = true) (heading : Int) :
    land (document (around above left cell right below)) above.length left.length heading =
      .ok (.moved (document (around above left (onTop (ground cell).cell heading) right below))
        (ground cell).landing) := by
  have here : (Json.array (left ++ cell :: right)).item left.length = .ok cell := by
    simp [Json.item]
  unfold land
  rw [item_around]
  change ((Json.array (left ++ cell :: right)).item left.length >>= _) = _
  rw [here]
  obtain rfl | rfl | rfl | rfl | rfl := isFloor_cases floor
  · change (setCell _ _ _ (.int heading) >>= _) = _
    rw [setCell_around]
    rfl
  iterate 2
    · change (setCell _ _ _ (.array [.ofString "Wall", .int heading]) >>= _) = _
      rw [setCell_around]
      rfl
  iterate 2
    · change (setCell _ _ _ (.array [.ofString "Goal", .int heading]) >>= _) = _
      rw [setCell_around]
      rfl

theorem clearTurtles_eq (rows : List (List Json)) :
    clearTurtles (document rows) = .ok (document (rows.map (·.map withoutTurtle))) := by
  have cleared : (rows.map Json.array).mapM clearRow =
      .ok ((rows.map (·.map withoutTurtle)).map .array) := by
    induction rows with
    | nil => rfl
    | cons cells rest ih =>
        rw [List.map_cons, List.mapM_cons, ih]
        rfl
  change ((rows.map Json.array).mapM clearRow >>= _) = _
  rw [cleared]
  rfl

theorem map_withoutTurtle {cells : List Json} (floors : ∀ cell ∈ cells, isFloor cell = true) :
    cells.map withoutTurtle = cells := by
  have same := List.map_congr_left fun cell member => withoutTurtle_of_isFloor (floors cell member)
  exact same.trans (List.map_id cells)

namespace Scene

variable {width : Nat} (s : Scene width)

theorem clearTurtles_document : clearTurtles (document s.rows) = .ok (document s.floor) := by
  obtain ⟨above, left, under, right, below⟩ := s.isFloor_sides
  have rows {rows : List (List Json)} (floors : ∀ cells ∈ rows, ∀ cell ∈ cells,
      Grid.isFloor cell = true) : rows.map (·.map withoutTurtle) = rows := by
    have same := List.map_congr_left fun cells member => map_withoutTurtle (floors cells member)
    exact same.trans (List.map_id rows)
  rw [clearTurtles_eq, Scene.rows, floor, holding, holding, around, around, List.map_append,
    List.map_cons, List.map_append, List.map_cons, rows above, rows below, map_withoutTurtle left,
    map_withoutTurtle right, withoutTurtle_onTop under]

/-- The place that is some cells ahead of the turtle. -/
def ahead (steps : Int) : Int × Int :=
  (s.row + steps * (unitStep s.heading).1, s.column + steps * (unitStep s.heading).2)

/-- Whether a place is not on the grid. -/
def isOutside (place : Int × Int) : Bool :=
  place.1 < 0 || s.floor.length ≤ place.1 || place.2 < 0 || width ≤ place.2

theorem isOutside_eq_false_iff {place : Int × Int} : s.isOutside place = false ↔
    0 ≤ place.1 ∧ place.1 < s.floor.length ∧ 0 ≤ place.2 ∧ place.2 < width := by
  simp only [isOutside, Bool.or_eq_false_iff, decide_eq_false_iff_not, Int.not_lt, Int.not_le,
    and_assoc]

theorem rows_ne_nil : s.rows ≠ [] := by
  simp [rows, holding, around]

theorem moveTurtle_document (steps : Int) :
    moveTurtle (document s.rows) (.int steps) =
      if s.isOutside (s.ahead (max steps 0)) then .ok (.refused .outOfBounds)
      else land (document s.floor) (s.ahead (max steps 0)).1.toNat
        (s.ahead (max steps 0)).2.toNat s.heading := by
  unfold moveTurtle
  rw [s.findTurtle_document]
  simp only [bind, Except.bind, stepCount, length_document,
    width_document s.rows_ne_nil s.width_rows, s.clearTurtles_document, s.length_rows]
  rfl

/-- The floor around a place on the grid. -/
theorem exists_floor {place : Int × Int} (inside : s.isOutside place = false) :
    ∃ above left cell right below, s.floor = around above left cell right below ∧
      ((above.length : Int), (left.length : Int)) = place := by
  obtain ⟨row, column⟩ := place
  rw [isOutside_eq_false_iff] at inside
  have widths : ∀ cells ∈ s.floor, cells.length = width := s.width_eq
  have within : row.toNat < s.floor.length ∧ column.toNat < width := by omega
  obtain ⟨above, left, cell, right, below, same, rowEq, columnEq⟩ :=
    exists_around widths within.1 within.2
  refine ⟨above, left, cell, right, below, same, ?_⟩
  rw [rowEq, columnEq, Int.toNat_of_nonneg (by omega), Int.toNat_of_nonneg (by omega)]

theorem moveTurtle_inside {steps : Int} (inside : s.isOutside (s.ahead (max steps 0)) = false) :
    ∃ after : Scene width, after.heading = s.heading ∧
      ((after.row : Int), (after.column : Int)) = s.ahead (max steps 0) ∧
      grounds after.floor = grounds s.floor ∧
      moveTurtle (document s.rows) (.int steps) =
        .ok (.moved (document after.rows) (ground after.under).landing) := by
  obtain ⟨above, left, cell, right, below, same, place⟩ := s.exists_floor inside
  have floors : ∀ cells ∈ around above left cell right below, ∀ cell ∈ cells,
      Grid.isFloor cell = true := same ▸ s.isFloor
  have widths : ∀ cells ∈ around above left cell right below, cells.length = width :=
    same ▸ s.width_eq
  obtain ⟨aboveFloor, leftFloor, here, rightFloor, belowFloor⟩ := forall_around.mp floors
  let after : Scene width :=
    ⟨above, left, (ground cell).cell, right, below, s.heading, s.isMain,
      forall_around.mpr ⟨aboveFloor, leftFloor, (ground cell).isFloor_cell, rightFloor, belowFloor⟩,
      width_around widths⟩
  refine ⟨after, rfl, place, ?_, ?_⟩
  · rw [same]
    exact grounds_around (ground cell).ground_cell
  · rw [s.moveTurtle_document, inside, ← place, same]
    have under : ground after.under = ground cell := (ground cell).ground_cell
    rw [under]
    exact land_around here s.heading

/-! ## Turning -/

/-- The scene with the turtle turned to a main heading. -/
def facing (heading : Int) (main : Grid.isMain heading = true) : Scene width :=
  { s with heading := heading, isMain := main }

end Scene

theorem isMain_turn {heading : Int} (main : isMain heading = true) (quarters : Int) :
    isMain ((heading + quarterTurn * quarters) % fullTurn) = true := by
  rw [isMain_iff] at main ⊢
  unfold quarterTurn fullTurn
  omega

theorem facing_onTop {under : Json} (floor : isFloor under = true) (heading turned : Int) :
    facing (onTop under heading) turned = onTop under turned := by
  obtain ⟨rfl, same⟩ | ⟨item, same⟩ := onTop_cases floor heading
  · rfl
  · rw [same, (isFloor_of_item item turned).2]
    rfl

namespace Scene

variable {width : Nat} (s : Scene width)

theorem turnTurtle_document (sign times : Int) :
    ∃ after : Scene width, after.floor = s.floor ∧ after.row = s.row ∧ after.column = s.column ∧
      after.heading =
        (s.heading + sign * quarterTurn * (if 0 < times then times else 1)) % fullTurn ∧
      turnTurtle (document s.rows) sign (.int times) = .ok (some (document after.rows)) := by
  generalize count : (if 0 < times then times else 1) = quarters
  have turned : sign * quarterTurn * quarters = quarterTurn * (sign * quarters) := by
    rw [Int.mul_comm sign, Int.mul_assoc]
  have main := isMain_turn s.isMain (sign * quarters)
  rw [← turned] at main
  refine ⟨s.facing _ main, rfl, rfl, rfl, rfl, ?_⟩
  have report := s.sighting.turnTurtle_document sign times
  have heading : s.sighting.direction % fullTurn = s.heading := s.heading_mod
  have cell (turned : Int) : Grid.facing s.sighting.cell turned = onTop s.under turned :=
    facing_onTop s.isFloor_under s.heading turned
  rw [heading, count, cell] at report
  exact report

end Scene

/-! ## Looking around -/

/-- The cell at a place. -/
def cellAt? (rows : List (List Json)) (place : Int × Int) : Option Json :=
  rows[place.1.toNat]?.bind (·[place.2.toNat]?)

/-- What lies at a place. -/
def groundAt? (rows : List (List Json)) (place : Int × Int) : Option Ground :=
  (cellAt? rows place).map ground

theorem groundAt?_eq {rows others : List (List Json)} (same : grounds rows = grounds others)
    (place : Int × Int) : groundAt? rows place = groundAt? others place := by
  have byGrounds (rows : List (List Json)) : groundAt? rows place =
      (grounds rows)[place.1.toNat]?.bind (·[place.2.toNat]?) := by
    rw [groundAt?, cellAt?, grounds, List.getElem?_map]
    cases rows[place.1.toNat]? with
    | none => rfl
    | some cells => exact List.getElem?_map.symm
  rw [byGrounds, byGrounds, same]

theorem getElem?_append_cons {α : Type} {before after : List α} {a b : α} {index : Nat}
    (other : index ≠ before.length) :
    (before ++ a :: after)[index]? = (before ++ b :: after)[index]? := by
  obtain less | more := Nat.lt_or_gt_of_ne other
  · rw [List.getElem?_append_left less, List.getElem?_append_left less]
  · obtain ⟨further, rfl⟩ := Nat.exists_eq_add_of_lt more
    rw [List.getElem?_append_right (by omega), List.getElem?_append_right (by omega),
      Nat.add_assoc, Nat.add_sub_cancel_left, List.getElem?_cons_succ, List.getElem?_cons_succ]

section

variable {above below : List (List Json)} {left right : List Json}

theorem cellAt?_around (cell : Json) :
    cellAt? (around above left cell right below) (above.length, left.length) = some cell := by
  simp [cellAt?, around]

theorem cellAt?_around_other {old new : Json} {place : Int × Int}
    (nonneg : 0 ≤ place.1 ∧ 0 ≤ place.2)
    (other : place ≠ ((above.length : Int), (left.length : Int))) :
    cellAt? (around above left new right below) place =
      cellAt? (around above left old right below) place := by
  obtain ⟨row, column⟩ := place
  dsimp only at nonneg
  unfold cellAt? around
  by_cases here : row.toNat = above.length
  · have apart : column.toNat ≠ left.length := by
      intro same
      apply other
      rw [← here, ← same, Int.toNat_of_nonneg nonneg.1, Int.toNat_of_nonneg nonneg.2]
    simp only [here, List.getElem?_append_right (Nat.le_refl _), Nat.sub_self,
      List.getElem?_cons_zero, Option.bind_some]
    exact getElem?_append_cons apart
  · rw [getElem?_append_cons here]

end

theorem exists_item {rows : List (List Json)} {place : Int × Int} {cell : Json}
    (found : cellAt? rows place = some cell) :
    ∃ row, (document rows).item place.1.toNat = .ok row ∧ row.item place.2.toNat = .ok cell := by
  obtain ⟨cells, row, column⟩ := Option.bind_eq_some_iff.mp found
  refine ⟨.array cells, ?_, ?_⟩
  · simp only [document, Json.item, List.getElem?_map, row, Option.map_some]
  · simp only [Json.item, column]

theorem isBlocked_of_isFloor {cell : Json} (floor : isFloor cell = true) :
    isBlocked cell = decide (ground cell = .wall) := by
  obtain rfl | rfl | rfl | rfl | rfl := isFloor_cases floor <;> rfl

theorem nearestMain_of_isMain {heading : Int} (main : isMain heading = true) :
    nearestMain heading = heading := by
  obtain rfl | rfl | rfl | rfl := isMain_iff.mp main <;> rfl

namespace Scene

variable {width : Nat} (s : Scene width)

/-- Whether a place is on the grid and not a wall. -/
def isOpen (place : Int × Int) : Bool :=
  !s.isOutside place && groundAt? s.floor place ≠ some .wall

/-- The place next to the turtle in a direction. -/
def beside (direction : Direction) : Int × Int :=
  (s.row + (unitStep ((s.heading + direction.offset) % fullTurn)).1,
    s.column + (unitStep ((s.heading + direction.offset) % fullTurn)).2)

theorem isMain_offset (direction : Direction) :
    Grid.isMain ((s.heading + direction.offset) % fullTurn) = true := by
  cases direction with
  | forward => exact isMain_turn s.isMain 0
  | left => exact isMain_turn s.isMain 1
  | backward => exact isMain_turn s.isMain 2
  | right => exact isMain_turn s.isMain 3

theorem exists_first_row :
    ∃ cells, (document s.rows).item 0 = .ok (.array cells) ∧ cells.length = width := by
  obtain ⟨cells, rest, same⟩ := List.exists_cons_of_ne_nil s.rows_ne_nil
  refine ⟨cells, ?_, s.width_rows cells ?_⟩
  · rw [same]
    rfl
  · rw [same]
    exact List.mem_cons_self

theorem beside_ne (direction : Direction) :
    s.beside direction ≠ ((s.row : Int), (s.column : Int)) := by
  have moves : ∀ heading, Grid.isMain heading = true →
      (unitStep heading).1 ≠ 0 ∨ (unitStep heading).2 ≠ 0 := by
    intro heading main
    obtain rfl | rfl | rfl | rfl := isMain_iff.mp main <;> decide
  have step := moves _ (s.isMain_offset direction)
  intro same
  simp only [beside, Prod.mk.injEq] at same
  omega

/-- What the turtle sees on the grid is what lies on the floor there. -/
theorem exists_beside {direction : Direction}
    (inside : s.isOutside (s.beside direction) = false) :
    ∃ cell, Grid.isFloor cell = true ∧ cellAt? s.rows (s.beside direction) = some cell ∧
      groundAt? s.floor (s.beside direction) = some (ground cell) := by
  obtain ⟨above, left, cell, right, below, same, place⟩ := s.exists_floor inside
  have floors : ∀ cells ∈ around above left cell right below, ∀ cell ∈ cells,
      Grid.isFloor cell = true := same ▸ s.isFloor
  have found : cellAt? s.floor (s.beside direction) = some cell := by
    rw [same, ← place]
    exact cellAt?_around cell
  refine ⟨cell, (forall_around.mp floors).2.2.1, ?_, congrArg (Option.map ground) found⟩
  rw [← found]
  refine cellAt?_around_other ?_ (s.beside_ne direction)
  rw [← place]
  exact ⟨Int.natCast_nonneg _, Int.natCast_nonneg _⟩

theorem isFree_document {direction : Json} {toward : Direction}
    (named : Direction.ofDocument direction = .ok toward) :
    isFree (document s.rows) direction = .ok (s.isOpen (s.beside toward)) := by
  have main := s.isMain_offset toward
  obtain ⟨cells, first, wide⟩ := s.exists_first_row
  have size : (Json.array cells).length = .ok width := congrArg Except.ok wide
  unfold isFree
  change (lastTurtle angle? 0 (s.rows.map .array) >>= _) = _
  rw [s.lastTurtle_document]
  simp only [bind, Except.bind, named, nearestMain_of_isMain main, length_document, s.length_rows,
    first, size]
  change (if s.isOutside (s.beside toward) = true then _ else _) = _
  cases outside : s.isOutside (s.beside toward) with
  | true =>
      rw [isOpen, outside]
      rfl
  | false =>
      obtain ⟨cell, floor, seen, lies⟩ := s.exists_beside outside
      obtain ⟨row, inRow, here⟩ := exists_item seen
      unfold beside at inRow here
      rw [if_neg Bool.false_ne_true, inRow]
      dsimp only
      rw [here, isOpen, outside, lies]
      dsimp only
      rw [isBlocked_of_isFloor floor]
      cases ground cell <;> rfl

end Scene

end Grid
end Pseudocode
