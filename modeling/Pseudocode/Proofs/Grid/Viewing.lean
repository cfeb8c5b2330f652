import Pseudocode.Grid.Viewer
import Pseudocode.Proofs.Grid.Commands
import Pseudocode.Proofs.Grid.Loading

/-!
# What the viewer shows

The viewer counts quarter turns clockwise and keeps what is under the turtle apart, while the file
counts degrees counterclockwise and has the turtle and what is under it in one cell.  Yet on the
screen the robot does what it is told.
-/

namespace Pseudocode
namespace Grid
namespace Viewer

/-- What a cell of a grid with one turtle looks like. -/
def kindOf (cell : Json) : Cell :=
  if isTurtle cell then .turtle
  else match bareGround cell with
    | .free => .empty
    | .wall => .wall
    | .goal => .goal

/-- What is remembered of the ground under a turtle. -/
def coveredBy (row column : Nat) : Ground → List Covered
  | .free => []
  | .wall => [⟨row, column, .wall⟩]
  | .goal => [⟨row, column, .goal⟩]

/-! ## One cell -/

/-- What taking over a cell does to a viewer. -/
structure Takes (v : Viewer) (row column : Nat) (cell : Json) (next : Viewer) : Prop where
  rows : next.rows = v.rows
  columns : next.columns = v.columns
  board : next.board = v.board.map fun board => board.setAt row column (kindOf cell)

theorem exists_loadCell_floor (v : Viewer) (row column : Nat) {cell : Json}
    (floor : isFloor cell = true) :
    ∃ next, v.loadCell row column cell = .ok next ∧ v.Takes row column cell next ∧
      next.turtle = v.turtle ∧ next.facing = v.facing ∧ next.covered = v.covered := by
  obtain rfl | rfl | rfl | rfl | rfl := isFloor_cases floor
  all_goals exact ⟨_, rfl, ⟨rfl, rfl, rfl⟩, rfl, rfl, rfl⟩

theorem exists_loadCell_onTop (v : Viewer) (row column : Nat) {under : Json} {heading : Int}
    (floor : isFloor under = true) (main : isMain heading = true) :
    ∃ next, v.loadCell row column (onTop under heading) = .ok next ∧
      v.Takes row column (onTop under heading) next ∧ next.turtle = some ⟨row, column⟩ ∧
      next.facing = quarters heading ∧
      next.covered = v.covered ++ coveredBy row column (ground under) := by
  have turtle : kindOf (onTop under heading) = .turtle := by
    rw [kindOf, isTurtle_onTop floor main, if_pos rfl]
  have faces : quarters (heading % fullTurn) = quarters heading := by
    obtain rfl | rfl | rfl | rfl := isMain_iff.mp main <;> rfl
  have takes {next : Viewer} (rows : next.rows = v.rows) (columns : next.columns = v.columns)
      (board : next.board = v.board.map fun board => board.setAt row column .turtle) :
      v.Takes row column (onTop under heading) next :=
    ⟨rows, columns, by rw [turtle, board]⟩
  obtain rfl | rfl | rfl | rfl | rfl := isFloor_cases floor
  · exact ⟨_, rfl, takes rfl rfl rfl, rfl, faces, (List.append_nil _).symm⟩
  all_goals exact ⟨_, rfl, takes rfl rfl rfl, rfl, faces, rfl⟩

end Viewer

/-! ## The cells of a scene -/

namespace Scene

variable {width : Nat} (s : Scene width)

theorem getAt?_turtle : getAt? s.rows s.row s.column = some (onTop s.under s.heading) :=
  cellAt?_around _

theorem isFloor_of_getAt? {row column : Nat} {cell : Json}
    (elsewhere : ¬ (row = s.row ∧ column = s.column))
    (here : getAt? s.rows row column = some cell) : Grid.isFloor cell = true := by
  have apart : ((row : Int), (column : Int)) ≠ ((s.row : Int), (s.column : Int)) := by
    intro same
    have parts := Prod.mk.inj same
    omega
  have bare : getAt? s.floor row column = some cell := by
    rw [← here]
    exact (cellAt?_around_other ⟨Int.natCast_nonneg row, Int.natCast_nonneg column⟩ apart).symm
  obtain ⟨cells, found, member⟩ := Option.bind_eq_some_iff.mp bare
  exact s.isFloor cells (List.mem_of_getElem? found) cell (List.mem_of_getElem? member)

theorem place_inside : s.row < s.rows.length ∧ s.column < width := by
  obtain ⟨cells, found, member⟩ := Option.bind_eq_some_iff.mp s.getAt?_turtle
  have wide := s.width_rows cells (List.mem_of_getElem? found)
  have narrow := (List.getElem?_eq_some_iff.mp member).1
  exact ⟨(List.getElem?_eq_some_iff.mp found).1, Nat.lt_of_lt_of_eq narrow wide⟩

end Scene

namespace Viewer

/-! ## The place that loading has reached -/

/-- The viewer shows a scene before a place.  A turtle that was not met yet leaves the direction as
it was. -/
structure Shows {width : Nat} (s : Scene width) (facing : Int) (row column : Nat) (v : Viewer) :
    Prop where
  rows : v.rows = s.rows.length
  columns : v.columns = width
  board : ∃ board, v.board = some board ∧
    board.Paints kindOf s.rows s.rows.length width row column
  turtle : v.turtle =
    if Earlier s.row s.column row column then some ⟨s.row, s.column⟩ else none
  facing : v.facing = if Earlier s.row s.column row column then quarters s.heading else facing
  covered : v.covered =
    if Earlier s.row s.column row column then coveredBy s.row s.column (ground s.under) else []

variable {width : Nat} {s : Scene width} {facing : Int} {row column : Nat} {v next : Viewer}

/-- The end of a row is the start of the next one. -/
theorem Shows.nextRow (shows : v.Shows s facing row width) : v.Shows s facing (row + 1) 0 := by
  have later (r c : Nat) (within : c < width) :
      Earlier r c (row + 1) 0 ↔ Earlier r c row width := by
    unfold Earlier
    omega
  have turtle := later s.row s.column s.place_inside.2
  obtain ⟨board, same, paints⟩ := shows.board
  refine ⟨shows.rows, shows.columns, ⟨board, same, paints.advance ?_ ?_⟩, ?_, ?_, ?_⟩
  · exact fun r c _ within early => (later r c (by omega)).mpr early
  · exact fun r c _ within early late => absurd ((later r c (by omega)).mp early) late
  · simp only [turtle, shows.turtle]
  · simp only [turtle, shows.facing]
  · simp only [turtle, shows.covered]

/-- One step: taking over the next cell of the scene. -/
theorem Shows.exists_loadCell (shows : v.Shows s facing row column) {cell : Json}
    (inside : row < s.rows.length) (within : column < width)
    (here : getAt? s.rows row column = some cell) :
    ∃ next, v.loadCell row column cell = .ok next ∧ next.Shows s facing row (column + 1) := by
  obtain ⟨board, same, paints⟩ := shows.board
  have painted {next : Viewer} (takes : v.Takes row column cell next) :
      ∃ board, next.board = some board ∧
        board.Paints kindOf s.rows s.rows.length width row (column + 1) := by
    rw [takes.board, same]
    exact ⟨_, rfl, paints.paint (by omega) (by omega) here⟩
  by_cases met : row = s.row ∧ column = s.column
  · obtain ⟨rfl, rfl⟩ := met
    cases here.symm.trans s.getAt?_turtle
    obtain ⟨next, loaded, takes, turtle, faces, covered⟩ :=
      exists_loadCell_onTop v s.row s.column s.isFloor_under s.isMain
    have now : Earlier s.row s.column s.row (s.column + 1) := .inr ⟨rfl, Nat.lt_succ_self _⟩
    have notYet : ¬ Earlier s.row s.column s.row s.column := by
      unfold Earlier
      omega
    refine ⟨next, loaded, takes.rows.trans shows.rows, takes.columns.trans shows.columns,
      painted takes, ?_, ?_, ?_⟩
    · rw [turtle, if_pos now]
    · rw [faces, if_pos now]
    · rw [covered, if_pos now, shows.covered, if_neg notYet, List.nil_append]
  · obtain ⟨next, loaded, takes, turtle, faces, covered⟩ :=
      exists_loadCell_floor v row column (s.isFloor_of_getAt? met here)
    have still : Earlier s.row s.column row (column + 1) ↔ Earlier s.row s.column row column := by
      unfold Earlier
      omega
    refine ⟨next, loaded, takes.rows.trans shows.rows, takes.columns.trans shows.columns,
      painted takes, ?_, ?_, ?_⟩
    · simp only [turtle, still, shows.turtle]
    · simp only [faces, still, shows.facing]
    · simp only [covered, still, shows.covered]

theorem Shows.exists_loadRow {cells : List Json} (shows : v.Shows s facing row column)
    (inside : row < s.rows.length) (fits : column + cells.length = width)
    (here : ∀ i < cells.length, cells[i]? = getAt? s.rows row (column + i)) :
    ∃ next, loadRow row column cells v = .ok next ∧ next.Shows s facing (row + 1) 0 := by
  induction cells generalizing column v with
  | nil =>
      subst fits
      exact ⟨v, rfl, shows.nextRow⟩
  | cons cell rest ih =>
      rw [List.length_cons] at fits here
      obtain ⟨middle, one, shows⟩ :=
        shows.exists_loadCell inside (by omega) (here 0 (by omega)).symm
      have later : ∀ i < rest.length, rest[i]? = getAt? s.rows row (column + 1 + i) := by
        intro i less
        rw [Nat.add_assoc, Nat.add_comm 1 i, ← here (i + 1) (by omega)]
        rfl
      obtain ⟨next, more, shows⟩ := ih shows (by omega) later
      refine ⟨next, ?_, shows⟩
      rw [loadRow, one]
      exact more

theorem Shows.exists_loadRows {lines : List (List Json)} (shows : v.Shows s facing row 0)
    (fits : row + lines.length = s.rows.length)
    (here : ∀ i < lines.length, lines[i]? = s.rows[row + i]?) :
    ∃ next, loadRows row (lines.map .array) v = .ok next ∧
      next.Shows s facing s.rows.length 0 := by
  induction lines generalizing row v with
  | nil =>
      rw [← fits]
      exact ⟨v, rfl, shows⟩
  | cons cells rest ih =>
      rw [List.length_cons] at fits here
      have first : s.rows[row]? = some cells := (here 0 (by omega)).symm
      have wide : cells.length = width := s.width_rows cells (List.mem_of_getElem? first)
      have whole : cells.take v.columns.toNat = cells := by
        rw [shows.columns, Int.toNat_natCast, ← wide, List.take_length]
      have inRow : ∀ i < cells.length, cells[i]? = getAt? s.rows row (0 + i) := by
        intro i _
        rw [getAt?, first, Nat.zero_add]
        rfl
      obtain ⟨middle, one, shows⟩ := shows.exists_loadRow (by omega) (by omega) inRow
      have later : ∀ i < rest.length, rest[i]? = s.rows[row + 1 + i]? := by
        intro i less
        rw [Nat.add_assoc, Nat.add_comm 1 i, ← here (i + 1) (by omega)]
        rfl
      obtain ⟨next, more, shows⟩ := ih shows (by omega) later
      refine ⟨next, ?_, shows⟩
      rw [List.map_cons, loadRows]
      change (loadRow row 0 (cells.take v.columns.toNat) v >>= _) = _
      rw [whole, one]
      exact more

/-- Taking over a text that holds a scene. -/
theorem exists_fill {text : String} (read : Json.read text = .ok (document s.rows))
    (tall : 2 ≤ s.rows.length ∧ s.rows.length ≤ 10) (wide : 2 ≤ width ∧ width ≤ 10) (v : Viewer) :
    ∃ next, v.fill text = .ok next ∧ next.Shows s v.facing s.rows.length 0 := by
  have size := shownSize_document tall wide rfl s.width_rows
  let resized : Viewer := { v with
    rows := s.rows.length
    columns := width
    board := some (Board.blank s.rows.length width)
    turtle := none
    goal := none
    covered := [] }
  have notYet : ¬ Earlier s.row s.column 0 0 := by
    unfold Earlier
    omega
  have shows : resized.Shows s v.facing 0 0 := by
    refine ⟨rfl, rfl, ⟨_, rfl, Board.paints_blank (Int.natCast_nonneg _) (Int.natCast_nonneg _)⟩,
      ?_, ?_, ?_⟩
    · rw [if_neg notYet]
    · rw [if_neg notYet]
    · rw [if_neg notYet]
  obtain ⟨next, loaded, shows⟩ := shows.exists_loadRows (Nat.zero_add s.rows.length)
    fun i _ => by rw [Nat.zero_add]
  refine ⟨next, ?_, shows⟩
  rw [fill, read]
  change (v.keeping (shownSize (document s.rows)) >>= _) = _
  rw [size]
  change loadRows 0 ((s.rows.map Json.array).take s.rows.length) resized = _
  rw [← List.map_take, List.take_length, loaded]

/-- Loading a file that holds a scene. -/
theorem exists_load {file : File} (held : file.read = .ok (document s.rows))
    (tall : 2 ≤ s.rows.length ∧ s.rows.length ≤ 10) (wide : 2 ≤ width ∧ width ≤ 10) (v : Viewer) :
    ∃ next, v.load file = (next, "") ∧ next.Shows s v.facing s.rows.length 0 := by
  cases file with
  | none => cases held
  | some text =>
      obtain ⟨next, filled, shows⟩ := exists_fill held tall wide v
      exact ⟨next, by simp only [load, filled], shows⟩

/-! ## The whole scene -/

/-- The viewer shows a grid with one turtle: all its cells, and apart from them what is under the
turtle. -/
structure Mirrors (rows : List (List Json)) (height width : Nat) (v : Viewer) : Prop where
  height : v.rows = height
  width : v.columns = width
  board : v.board = some (rows.map (·.map kindOf))
  turtle : ∃ row column cell, getAt? rows row column = some cell ∧ isTurtle cell = true ∧
    v.turtle = some ⟨row, column⟩ ∧ v.covered = coveredBy row column (ground cell)

theorem Shows.turtle_eq (shows : v.Shows s facing s.rows.length 0) :
    v.turtle = some ⟨s.row, s.column⟩ ∧ v.facing = quarters s.heading ∧
      v.covered = coveredBy s.row s.column (ground s.under) := by
  have met : Earlier s.row s.column s.rows.length 0 := .inl s.place_inside.1
  exact ⟨shows.turtle.trans (if_pos met), shows.facing.trans (if_pos met),
    shows.covered.trans (if_pos met)⟩

theorem Shows.mirrors (shows : v.Shows s facing s.rows.length 0) :
    v.Mirrors s.rows s.rows.length width := by
  obtain ⟨turtle, _, covered⟩ := shows.turtle_eq
  obtain ⟨board, same, paints⟩ := shows.board
  refine ⟨shows.rows, shows.columns, ?_, s.row, s.column, _, s.getAt?_turtle,
    isTurtle_onTop s.isFloor_under s.isMain, turtle, ?_⟩
  · rw [same, paints.eq_map rfl s.width_rows]
  · rw [covered, ground_onTop s.isFloor_under]

/-! ## Commands on the screen -/

/-- The step ahead, as it is drawn: to the right, down, to the left, up. -/
def drawnStep (facing : Int) : Int × Int :=
  if facing = 0 then (0, 1)
  else if facing = 1 then (1, 0)
  else if facing = 2 then (0, -1)
  else (-1, 0)

/-- The place ahead of a place, or the place itself at the edge. -/
def ahead (v : Viewer) (p : Place) : Place :=
  let next : Place := ⟨p.row + (drawnStep v.facing).1, p.column + (drawnStep v.facing).2⟩
  if Board.Inside v.rows v.columns next then next else p

theorem drawnStep_quarters {heading : Int} (main : isMain heading = true) :
    drawnStep (quarters heading) = unitStep heading := by
  obtain rfl | rfl | rfl | rfl := isMain_iff.mp main <;> rfl

theorem quarters_left {heading : Int} (main : isMain heading = true) :
    quarters ((heading + 90 * quarterTurns 1) % 360) = (quarters heading - 1) % 4 := by
  obtain rfl | rfl | rfl | rfl := isMain_iff.mp main <;> rfl

theorem quarters_right {heading : Int} (main : isMain heading = true) :
    quarters ((heading - 90 * quarterTurns 1) % 360) = (quarters heading + 1) % 4 := by
  obtain rfl | rfl | rfl | rfl := isMain_iff.mp main <;> rfl

/-- What the viewer shows after a command. -/
theorem exists_reload {file : File} (held : file.read = .ok (document s.rows))
    (tall : 2 ≤ s.rows.length ∧ s.rows.length ≤ 10) (wide : 2 ≤ width ∧ width ≤ 10)
    (command : Command) (v : Viewer) :
    ∃ next turtle, v.load (command.run file).file = (next, "") ∧
      turtle = Turtle.after s.rows.length width ⟨s.row, s.column, s.heading⟩ command ∧
      next.turtle = some ⟨turtle.row, turtle.column⟩ ∧ next.facing = quarters turtle.heading := by
  obtain ⟨after, follows⟩ := exists_follows held command
  have height : after.rows.length = s.rows.length := by
    rw [after.length_rows, s.length_rows, length_eq_of_grounds follows.grounds]
  obtain ⟨next, loaded, shows⟩ := exists_load follows.held (by omega) wide v
  obtain ⟨place, faces, _⟩ := shows.turtle_eq
  refine ⟨next, ⟨after.row, after.column, after.heading⟩, loaded, ?_, place, faces⟩
  rw [follows.turtle, s.length_rows]

/-- On the screen a move goes ahead. -/
theorem ahead_eq {height width : Nat} (turtle : Turtle) (rows : v.rows = height)
    (columns : v.columns = width) (main : isMain turtle.heading = true)
    (faces : v.facing = quarters turtle.heading) :
    v.ahead ⟨turtle.row, turtle.column⟩ =
      ⟨(turtle.after height width (.move 1)).row, (turtle.after height width (.move 1)).column⟩ ∧
      (turtle.after height width (.move 1)).heading = turtle.heading := by
  have once : max (1 : Int) 0 = 1 := rfl
  simp only [ahead, faces, drawnStep_quarters main, rows, columns, Board.Inside, Turtle.after, once,
    Int.one_mul]
  split
  · rename_i inside
    rw [Int.toNat_of_nonneg inside.1, Int.toNat_of_nonneg inside.2.2.1]
    exact ⟨rfl, rfl⟩
  · exact ⟨rfl, rfl⟩

/-- The viewer shows a grid with one turtle as it is.  When it loads the file again, a turn to the
left or to the right has turned the turtle that is drawn the same way, and a move has taken it where
it is drawn to look, unless that is outside. -/
theorem load_after_command {file : File} {rows : List (List Json)} {height width : Nat}
    (opened : file.read = .ok (document rows)) (grid : IsGrid rows height width)
    (tall : 2 ≤ height ∧ height ≤ 10) (wide : 2 ≤ width ∧ width ≤ 10) (v : Viewer) :
    ∃ shown, v.load file = (shown, "") ∧ shown.Mirrors rows height width ∧
      (∃ turned, shown.load ((Command.left 1).run file).file = (turned, "") ∧
        turned.facing = (shown.facing - 1) % 4 ∧ turned.turtle = shown.turtle) ∧
      (∃ turned, shown.load ((Command.right 1).run file).file = (turned, "") ∧
        turned.facing = (shown.facing + 1) % 4 ∧ turned.turtle = shown.turtle) ∧
      ∃ moved, shown.load ((Command.move 1).run file).file = (moved, "") ∧
        moved.facing = shown.facing ∧ moved.turtle = shown.turtle.map shown.ahead := by
  obtain ⟨s, rfl⟩ := grid.exists_scene
  obtain rfl := grid.height_eq
  obtain ⟨shown, loaded, shows⟩ := exists_load opened tall wide v
  obtain ⟨place, faces, _⟩ := shows.turtle_eq
  refine ⟨shown, loaded, shows.mirrors, ?_, ?_, ?_⟩
  · obtain ⟨turned, _, reloaded, rfl, stays, facing⟩ :=
      exists_reload opened tall wide (.left 1) shown
    refine ⟨turned, reloaded, ?_, stays.trans place.symm⟩
    rw [faces, ← quarters_left s.isMain]
    exact facing
  · obtain ⟨turned, _, reloaded, rfl, stays, facing⟩ :=
      exists_reload opened tall wide (.right 1) shown
    refine ⟨turned, reloaded, ?_, stays.trans place.symm⟩
    rw [faces, ← quarters_right s.isMain]
    exact facing
  · obtain ⟨moved, turtle, reloaded, goes, arrives, facing⟩ :=
      exists_reload opened tall wide (.move 1) shown
    obtain ⟨ahead, heading⟩ :=
      ahead_eq ⟨s.row, s.column, s.heading⟩ shows.rows shows.columns s.isMain faces
    rw [← goes] at ahead heading
    refine ⟨moved, reloaded, ?_, ?_⟩
    · rw [facing, heading, faces]
    · rw [arrives, place, ← ahead]
      rfl

theorem load_after_command_onWall :
    IsGrid onWall 2 2 ∧ onWallFile.read = .ok (document onWall) ∧
    ∃ shown, (new onWallFile).1.load onWallFile = (shown, "") ∧ shown.Mirrors onWall 2 2 ∧
      (∃ turned, shown.load ((Command.left 1).run onWallFile).file = (turned, "") ∧
        turned.facing = (shown.facing - 1) % 4 ∧ turned.turtle = shown.turtle) ∧
      (∃ turned, shown.load ((Command.right 1).run onWallFile).file = (turned, "") ∧
        turned.facing = (shown.facing + 1) % 4 ∧ turned.turtle = shown.turtle) ∧
      ∃ moved, shown.load ((Command.move 1).run onWallFile).file = (moved, "") ∧
        moved.facing = shown.facing ∧ moved.turtle = shown.turtle.map shown.ahead :=
  ⟨isGrid_onWall, read_onWallFile,
    load_after_command read_onWallFile isGrid_onWall (by decide) (by decide) (new onWallFile).1⟩

end Viewer
end Grid
end Pseudocode
