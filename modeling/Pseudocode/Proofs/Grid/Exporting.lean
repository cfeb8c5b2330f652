import Pseudocode.Proofs.Grid.Loading

/-!
# Exported grids

An exported grid is a document of free cells, walls, goals and turtles with one of the four main
headings.  Loading it gives the board back, and exporting once more writes the same text.
-/

namespace Pseudocode
namespace Grid
namespace Editor

variable (e : Editor)

/-- The cells of the exported document. -/
def exported : List (List Json) :=
  e.board.map (·.map e.cellDocument)

theorem document_exported : e.document = Grid.document e.exported := by
  rw [document, Grid.document, exported, List.map_map]
  rfl

theorem cellDocument_cases (cell : Cell) :
    isFloor (e.cellDocument cell) = true ∧ cell ≠ .turtle ∨
      cell = .turtle ∧ ∃ heading, e.cellDocument cell = .int heading ∧ isMain heading = true := by
  cases cell with
  | empty | wall | goal => exact .inl ⟨rfl, by decide⟩
  | turtle =>
      refine .inr ⟨rfl, _, rfl, ?_⟩
      rw [isMain_iff]
      unfold fullTurn quarterTurn
      omega

theorem kindOf_cellDocument (cell : Cell) : kindOf (e.cellDocument cell) = cell := by
  cases cell <;> rfl

theorem loadable_cellDocument (cell : Cell) : Loadable (e.cellDocument cell) := by
  intro number
  cases cell with
  | empty | wall | goal => cases number
  | turtle => exact ⟨_, rfl⟩

theorem plain_cellDocument (cell : Cell) : (e.cellDocument cell).Plain := by
  obtain ⟨floor, _⟩ | ⟨_, heading, same, main⟩ := e.cellDocument_cases cell
  · exact plain_of_isFloor floor
  · rw [same]
    exact plain_onTop (rfl : isFloor .null = true) main

theorem plain_document : e.document.Plain := by
  rw [document_exported]
  apply Grid.plain_document
  intro cells member cell here
  obtain ⟨kinds, _, rfl⟩ := List.mem_map.mp member
  obtain ⟨kind, _, rfl⟩ := List.mem_map.mp here
  exact e.plain_cellDocument kind

theorem read_toFile : Json.read e.toFile = .ok (Grid.document e.exported) := by
  rw [← document_exported]
  exact e.plain_document.read_write

theorem getAt?_exported (row column : Nat) :
    getAt? e.exported row column = (getAt? e.board row column).map e.cellDocument :=
  getAt?_map e.cellDocument e.board row column

/-- The heading of an exported turtle comes back. -/
theorem quarters_heading {facing : Int} (least : 0 ≤ facing) (greatest : facing ≤ 3) :
    quarters ((fullTurn - facing * quarterTurn) % fullTurn % fullTurn) = facing := by
  unfold quarters fullTurn quarterTurn
  omega

/-- Boards with equal cells and, if there is a turtle, with equal directions are exported alike. -/
theorem toFile_eq {other : Editor} (same : other.board = e.board)
    (faces : Cell.turtle ∈ e.board.flatten → other.facing = e.facing) :
    other.toFile = e.toFile := by
  have cells : other.exported = e.exported := by
    rw [exported, exported, same]
    apply List.map_congr_left
    intro cells member
    apply List.map_congr_left
    intro cell here
    cases cell with
    | empty | wall | goal => rfl
    | turtle =>
        have facing := faces (List.mem_flatten.mpr ⟨cells, member, here⟩)
        rw [cellDocument, cellDocument, facing]
  rw [toFile, toFile, document_exported, document_exported, cells]

theorem loadable_exported : ∀ cells ∈ e.exported, ∀ cell ∈ cells, Loadable cell := by
  intro cells member cell here
  obtain ⟨kinds, _, rfl⟩ := List.mem_map.mp member
  obtain ⟨kind, _, rfl⟩ := List.mem_map.mp here
  exact e.loadable_cellDocument kind

variable {e} {loaded : Editor}

/-- The board of an editor that shows the exported cells. -/
theorem board_of_shown (size : e.board.HasSize e.rows e.columns) (shown : loaded.Shown e.exported)
    (height : loaded.rows = e.rows) (width : loaded.columns = e.columns) :
    loaded.board = e.board := by
  rw [Shown, height, width] at shown
  refine shown.board.size.ext size fun row column inside within => ?_
  have early : Earlier row column e.rows.toNat 0 := .inl (by omega)
  rw [shown.board.cellAt, if_pos ⟨⟨inside, within⟩, early⟩, getAt?_exported,
    size.getAt?_eq inside within,
    Option.map_some, Option.map_some, kindOf_cellDocument]
  rfl

/-- The direction of an editor that shows the exported cells. -/
theorem facing_of_shown (faces : 0 ≤ e.facing ∧ e.facing ≤ 3) (shown : loaded.Shown e.exported)
    (same : loaded.board = e.board) :
    loaded.facing = if Cell.turtle ∈ e.board.flatten then e.facing else 0 := by
  have last := shown.turtle
  rw [same] at last
  obtain ⟨empty, facing⟩ | ⟨row, column, cell, heading, found, here, whole, facing⟩ := shown.facing
  · rw [empty] at last
    rw [if_neg, facing]
    rw [Board.mem_flatten_iff (by decide)]
    rintro ⟨row, column, turtle⟩
    exact last row column turtle
  · rw [found] at last
    obtain ⟨row', column', place, turtle, _⟩ := last
    obtain ⟨rfl, rfl⟩ : row = row' ∧ column = column' := by
      have parts := Place.mk.inj place
      omega
    rw [if_pos ((Board.mem_flatten_iff (by decide)).mpr ⟨row, column, turtle⟩), facing]
    rw [getAt?_exported, (Board.cellAt_eq_iff (by decide)).mp turtle] at here
    cases here
    cases whole
    exact quarters_heading faces.1 faces.2

/-- An exported grid of a size that editors show is loaded by every editor. -/
theorem load_toFile (e other : Editor) (size : e.board.HasSize e.rows e.columns)
    (tall : 2 ≤ e.rows ∧ e.rows ≤ 10) (wide : 2 ≤ e.columns ∧ e.columns ≤ 10)
    (faces : 0 ≤ e.facing ∧ e.facing ≤ 3) :
    ∃ loaded, other.load (some e.toFile) = (loaded, "") ∧
      loaded.rows = e.rows ∧ loaded.columns = e.columns ∧ loaded.board = e.board ∧
      loaded.facing = (if Cell.turtle ∈ e.board.flatten then e.facing else 0) ∧
      e.board.IsLast .turtle loaded.turtle ∧ e.board.IsLast .goal loaded.goal ∧
      loaded.toFile = e.toFile := by
  have height : e.exported.length = e.rows.toNat := by
    have rows := size.rows
    rw [exported, List.length_map]
    omega
  have width : ∀ cells ∈ e.exported, cells.length = e.columns.toNat := by
    intro cells member
    obtain ⟨kinds, inside, rfl⟩ := List.mem_map.mp member
    have columns := size.columns kinds inside
    rw [List.length_map]
    omega
  have sized := shownSize_document (by omega) (by omega) height width
  obtain ⟨loaded, filled⟩ :=
    (other.resized e.rows.toNat e.columns.toNat).exists_fill e.loadable_exported
  obtain ⟨shown, rows, columns⟩ :=
    shown_of_fill (Int.natCast_nonneg e.rows.toNat) (Int.natCast_nonneg e.columns.toNat) filled
  rw [cellRows_document] at shown
  have sameRows : loaded.rows = e.rows := rows.trans (Int.toNat_of_nonneg (by omega))
  have sameColumns : loaded.columns = e.columns := columns.trans (Int.toNat_of_nonneg (by omega))
  have same := board_of_shown size shown sameRows sameColumns
  have facing := facing_of_shown faces shown same
  refine ⟨loaded, load_of_fill e.read_toFile sized filled, sameRows, sameColumns, same, facing,
    same ▸ shown.turtle, same ▸ shown.goal, e.toFile_eq same fun turtle => ?_⟩
  rw [facing, if_pos turtle]

/-- An editor with two turtles, the second of them in the last column. -/
def twoTurtles : Editor :=
  ⟨2, 3, [[.turtle, .wall, .empty], [.goal, .empty, .turtle]], none, none, 3, .wall⟩

theorem load_toFile_twoTurtles :
    ∃ loaded, (unloaded 6 6).load (some twoTurtles.toFile) = (loaded, "") ∧ loaded.rows = 2 ∧
      loaded.columns = 3 ∧ loaded.board = twoTurtles.board ∧ loaded.facing = 3 ∧
      twoTurtles.board.IsLast .turtle loaded.turtle ∧ twoTurtles.board.IsLast .goal loaded.goal ∧
      loaded.toFile = twoTurtles.toFile :=
  load_toFile twoTurtles (unloaded 6 6) ⟨rfl, by decide⟩ (by decide) (by decide) (by decide)

end Editor
end Grid
end Pseudocode
