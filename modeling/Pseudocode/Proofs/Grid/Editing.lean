import Pseudocode.Proofs.Grid.Exporting

/-!
# Sessions with the editor

The places that an editor remembers may be out of date: another tool may have been used there, and a
smaller board may have lost them.  What stays true is one direction only: a turtle or a goal on the
board is at the remembered place.  So there is at most one of either.
-/

namespace Pseudocode
namespace Grid

/-! ## Remembered places -/

namespace Board

/-- An item is nowhere but at the remembered place, which is inside. -/
structure Tracks (board : Board) (rows columns : Int) (item : Cell) (place : Option Place) :
    Prop where
  only : ∀ row column, board.cellAt row column = item → place = some ⟨row, column⟩
  inside : ∀ p ∈ place, Inside rows columns p

variable {board : Board} {rows columns : Int} {item : Cell} {place : Option Place} {p : Place}

/-- The board with the cell at a remembered place cleared. -/
def cleared (board : Board) : Option Place → Board
  | some p => board.setAt p.row.toNat p.column.toNat .empty
  | none => board

theorem HasSize.cleared (size : board.HasSize rows columns) (place : Option Place) :
    (board.cleared place).HasSize rows columns := by
  cases place with
  | none => exact size
  | some p => exact size.setAt _ _ .empty

theorem HasSize.cellAt_setAt_place (size : board.HasSize rows columns)
    (inside : Inside rows columns p) (cell : Cell) (row column : Nat) :
    (board.setAt p.row.toNat p.column.toNat cell).cellAt row column =
      if p = ⟨row, column⟩ then cell else board.cellAt row column := by
  obtain ⟨rowNonneg, rowLess, columnNonneg, columnLess⟩ := inside
  have here : row = p.row.toNat ∧ column = p.column.toNat ↔ p = ⟨row, column⟩ := by
    rw [Place.mk.injEq]
    omega
  rw [size.cellAt_setAt (by omega) (by omega)]
  simp only [here]

/-- Putting something else down anywhere keeps track of an item. -/
theorem Tracks.setAt (tracks : board.Tracks rows columns item place)
    (size : board.HasSize rows columns) (inside : Inside rows columns p) {cell : Cell}
    (other : cell ≠ item) :
    (board.setAt p.row.toNat p.column.toNat cell).Tracks rows columns item place where
  only row column here := by
    rw [size.cellAt_setAt_place inside] at here
    split at here
    · exact absurd here other
    · exact tracks.only row column here
  inside := tracks.inside

theorem Tracks.cleared (tracks : board.Tracks rows columns item place)
    (size : board.HasSize rows columns) (something : item ≠ .empty) {other : Option Place}
    (inside : ∀ p ∈ other, Inside rows columns p) :
    (board.cleared other).Tracks rows columns item place := by
  cases other with
  | none => exact tracks
  | some p => exact tracks.setAt size (inside p rfl) something.symm

/-- Once the remembered place is cleared the item is nowhere. -/
theorem Tracks.cellAt_cleared (tracks : board.Tracks rows columns item place)
    (size : board.HasSize rows columns) (something : item ≠ .empty) (row column : Nat) :
    (board.cleared place).cellAt row column ≠ item := by
  intro here
  cases place with
  | none => cases tracks.only row column here
  | some p =>
      rw [Board.cleared, size.cellAt_setAt_place (tracks.inside p rfl)] at here
      split at here
      · exact something here.symm
      · rename_i elsewhere
        exact elsewhere (Option.some_inj.mp (tracks.only row column here))

/-- An item that was moved is tracked at its new place. -/
theorem Tracks.moved (tracks : board.Tracks rows columns item place)
    (size : board.HasSize rows columns) (something : item ≠ .empty)
    (inside : Inside rows columns p) :
    ((board.cleared place).setAt p.row.toNat p.column.toNat item).Tracks rows columns item
      (some p) where
  only row column here := by
    rw [(size.cleared place).cellAt_setAt_place inside] at here
    split at here
    · rename_i same
      rw [same]
    · exact absurd here (tracks.cellAt_cleared size something row column)
  inside q found := by
    cases found
    exact inside

theorem Tracks.resize (tracks : board.Tracks rows columns item place) (something : item ≠ .empty)
    (rows' columns' : Int) :
    (board.resize rows' columns').Tracks rows' columns' item
      (Editor.keepWithin rows' columns' place) where
  only row column here := by
    rw [cellAt_resize] at here
    split at here
    · rename_i inside
      rw [tracks.only row column here, Editor.keepWithin, Option.filter_some, if_pos]
      simpa using inside
    · exact absurd here.symm something
  inside p kept := by
    obtain ⟨found, less⟩ := Option.filter_eq_some_iff.mp kept
    obtain ⟨rowNonneg, _, columnNonneg, _⟩ := tracks.inside p found
    have bounds : p.row < rows' ∧ p.column < columns' := by simpa using less
    exact ⟨rowNonneg, bounds.1, columnNonneg, bounds.2⟩

/-- Where an item is at most once, its last place is the only one. -/
theorem IsLast.tracks (last : board.IsLast item place) (size : board.HasSize rows columns)
    (something : item ≠ .empty) (once : ∀ r c r' c', board.cellAt r c = item →
      board.cellAt r' c' = item → r = r' ∧ c = c') :
    board.Tracks rows columns item place := by
  cases place with
  | none =>
      refine ⟨fun row column here => absurd here (last row column), fun p found => ?_⟩
      cases found
  | some p =>
      obtain ⟨row, column, rfl, here, _⟩ := last
      constructor
      · intro row' column' there
        obtain ⟨rfl, rfl⟩ := once row column row' column' here there
        rfl
      · intro q found
        cases found
        have inside := size.inside_of_cellAt (here ▸ something)
        exact ⟨Int.natCast_nonneg row, inside.1, Int.natCast_nonneg column, inside.2⟩

end Board

/-! ## Edits -/

/-- A step of a session with the editor. -/
inductive Edit where
  /-- Choose a tool. -/
  | choose (tool : Cell)
  /-- Give the turtle another direction. -/
  | face (facing : Int)
  /-- Use the tool at a place. -/
  | place (place : Place)
  /-- Change the size of the board. -/
  | resize (rows columns : Int)
  deriving Repr

namespace Edit

/-- The editor after a step, and what went wrong. -/
def run (e : Editor) : Edit → Editor × Option Fault
  | choose tool => ({ e with tool := tool }, none)
  | face facing => ({ e with facing := facing }, none)
  | place p => e.place p
  | resize rows columns => (e.resize rows columns, none)

/-- The tool is used inside the board, and no board is empty. -/
def Fits (e : Editor) : Edit → Prop
  | choose _ | face _ => True
  | place p => Board.Inside e.rows e.columns p
  | resize rows columns => 0 < rows ∧ 0 < columns

end Edit

namespace Editor

/-- The editors that a session comes to. -/
inductive Edited (start : Editor) : Editor → Prop
  | start : Edited start start
  | edit {e : Editor} (edited : Edited start e) (edit : Edit) (fits : edit.Fits e) :
      Edited start (edit.run e).1

/-- The board has its size, and no turtle and no goal is anywhere but at its remembered place. -/
structure Sound (e : Editor) : Prop where
  size : e.board.HasSize e.rows e.columns
  turtle : e.board.Tracks e.rows e.columns .turtle e.turtle
  goal : e.board.Tracks e.rows e.columns .goal e.goal

variable {e : Editor} {p : Place}

theorem relocate_eq {board : Board} {rows columns : Int} {old : Option Place}
    (size : board.HasSize rows columns) (remembered : ∀ q ∈ old, Board.Inside rows columns q)
    (inside : Board.Inside rows columns p) (item : Cell) :
    relocate board item old p =
      ((board.cleared old).setAt p.row.toNat p.column.toNat item, none) := by
  cases old with
  | none => simp only [relocate, size.put_eq inside, Board.cleared]
  | some q =>
      simp only [relocate, size.put_eq (remembered q rfl), (size.setAt _ _ _).put_eq inside,
        Board.cleared]

/-- What the tool does at a place inside. -/
theorem Sound.place (sound : e.Sound) (inside : Board.Inside e.rows e.columns p) :
    (e.place p).2 = none ∧ (e.place p).1.Sound := by
  have size := sound.size
  cases tool : e.tool with
  | empty =>
      rw [Editor.place, tool]
      exact ⟨rfl, sound⟩
  | wall =>
      have toggled : ∀ cell : Cell, (if cell = .wall then Cell.empty else .wall) ≠ .turtle ∧
          (if cell = .wall then Cell.empty else .wall) ≠ .goal := by
        intro cell
        split <;> decide
      rw [Editor.place, tool]
      simp only [size.get_eq inside, size.put_eq inside]
      exact ⟨trivial, size.setAt _ _ _, sound.turtle.setAt size inside (toggled _).1,
        sound.goal.setAt size inside (toggled _).2⟩
  | turtle =>
      rw [Editor.place, tool]
      simp only [relocate_eq size sound.turtle.inside inside]
      exact ⟨trivial, (size.cleared _).setAt _ _ _, sound.turtle.moved size (by decide) inside,
        (sound.goal.cleared size (by decide) sound.turtle.inside).setAt (size.cleared _) inside
          (by decide)⟩
  | goal =>
      rw [Editor.place, tool]
      simp only [relocate_eq size sound.goal.inside inside]
      exact ⟨trivial, (size.cleared _).setAt _ _ _,
        (sound.turtle.cleared size (by decide) sound.goal.inside).setAt (size.cleared _) inside
          (by decide), sound.goal.moved size (by decide) inside⟩

/-- A step that fits does not fail and keeps the editor sound. -/
theorem Sound.run (sound : e.Sound) {edit : Edit} (fits : edit.Fits e) :
    (edit.run e).2 = none ∧ (edit.run e).1.Sound := by
  cases edit with
  | choose tool => exact ⟨rfl, sound.size, sound.turtle, sound.goal⟩
  | face facing => exact ⟨rfl, sound.size, sound.turtle, sound.goal⟩
  | place p => exact sound.place fits
  | resize rows columns =>
      obtain ⟨tall, wide⟩ := fits
      exact ⟨rfl, Board.hasSize_resize e.board (Int.le_of_lt tall) (Int.le_of_lt wide),
        sound.turtle.resize (by decide) rows columns, sound.goal.resize (by decide) rows columns⟩

theorem Edited.sound {start : Editor} (sound : start.Sound) (edited : Edited start e) :
    e.Sound := by
  induction edited with
  | start => exact sound
  | edit _ edit fits ih => exact (ih.run fits).2

/-! ## Documents with one turtle and one goal -/

/-- At most one cell of a document is a number and at most one is a goal. -/
def Single (grid : Json) : Prop :=
  (cellRows grid).flatten.countP Json.isNumber ≤ 1 ∧
    (cellRows grid).flatten.countP (Json.isText "GOAL") ≤ 1

theorem sound_of_shown {source : List (List Json)} (shown : e.Shown source)
    (numbers : source.flatten.countP Json.isNumber ≤ 1)
    (goals : source.flatten.countP (Json.isText "GOAL") ≤ 1) : e.Sound := by
  -- Every cell on the board comes from a cell of the source.
  have origin {item : Cell} (something : item ≠ .empty) {row column : Nat}
      (here : e.board.cellAt row column = item) :
      ∃ cell, getAt? source row column = some cell ∧ kindOf cell = item := by
    rw [shown.board.cellAt] at here
    split at here
    · cases found : getAt? source row column with
      | none =>
          rw [found] at here
          exact absurd here.symm something
      | some cell =>
          rw [found] at here
          exact ⟨cell, rfl, here⟩
    · exact absurd here.symm something
  have size := shown.board.size
  refine ⟨size, shown.turtle.tracks size (by decide) ?_, shown.goal.tracks size (by decide) ?_⟩
  · intro r c r' c' here there
    obtain ⟨cell, found, kind⟩ := origin (by decide) here
    obtain ⟨cell', found', kind'⟩ := origin (by decide) there
    exact countP_flatten_le_one_iff.mp numbers r c r' c' cell cell' found
      (kindOf_eq_turtle.mp kind) found' (kindOf_eq_turtle.mp kind')
  · intro r c r' c' here there
    obtain ⟨cell, found, kind⟩ := origin (by decide) here
    obtain ⟨cell', found', kind'⟩ := origin (by decide) there
    exact countP_flatten_le_one_iff.mp goals r c r' c' cell cell' found
      (kindOf_eq_goal.mp kind) found' (kindOf_eq_goal.mp kind')

/-- Only a kind of cell that is tracked is exported at most once. -/
theorem countP_exported {item : Cell} {place : Option Place} {test : Json → Bool}
    (tracks : e.board.Tracks e.rows e.columns item place) (something : item ≠ .empty)
    (only : ∀ cell, test (e.cellDocument cell) = true → cell = item) :
    e.exported.flatten.countP test ≤ 1 := by
  rw [countP_flatten_le_one_iff]
  have at_place {row column : Nat} {document : Json}
      (found : getAt? e.exported row column = some document) (holds : test document = true) :
      place = some ⟨row, column⟩ := by
    rw [getAt?_exported] at found
    obtain ⟨cell, here, rfl⟩ := Option.map_eq_some_iff.mp found
    have same := only cell holds
    rw [same] at here
    exact tracks.only row column ((Board.cellAt_eq_iff something).mpr here)
  intro r c r' c' a b found holds found' holds'
  have same := Option.some_inj.mp ((at_place found holds).symm.trans (at_place found' holds'))
  have parts := Place.mk.inj same
  omega

theorem Sound.single (sound : e.Sound) : Single (Grid.document e.exported) := by
  rw [Single, cellRows_document]
  constructor
  · apply countP_exported sound.turtle (by decide)
    intro cell number
    exact (e.kindOf_cellDocument cell).symm.trans (kindOf_eq_turtle.mpr number)
  · apply countP_exported sound.goal (by decide)
    intro cell goal
    exact (e.kindOf_cellDocument cell).symm.trans (kindOf_eq_goal.mpr goal)

theorem sound_load {file : File} (sized : 0 < e.rows ∧ 0 < e.columns ∨ HasGrid file)
    (single : ∀ text ∈ file, ∀ grid, Json.read text = .ok grid → Single grid) :
    (e.load file).1.Sound := by
  obtain ⟨source, shown, _, empty | ⟨text, held, grid, read, same⟩⟩ := e.exists_shown file sized
  · subst empty
    exact sound_of_shown shown (Nat.zero_le 1) (Nat.zero_le 1)
  · subst same
    obtain ⟨numbers, goals⟩ := single text held grid read
    exact sound_of_shown shown numbers goals

/-- In a session with a new editor that starts with at most one turtle and one goal no step fails,
the board keeps its size, turtle and goal are where the editor remembers them, and the exported
grid has at most one of either. -/
theorem edited_sound {rows columns : Int} {file : File}
    (sized : 0 < rows ∧ 0 < columns ∨ HasGrid file)
    (single : ∀ text ∈ file, ∀ grid, Json.read text = .ok grid → Single grid)
    (edited : Edited (new rows columns file).1 e) :
    e.Sound ∧ (∀ edit : Edit, edit.Fits e → (edit.run e).2 = none) ∧
      ∃ grid, Json.read e.toFile = .ok grid ∧ Single grid := by
  have sound := edited.sound (sound_load (e := unloaded rows columns) sized single)
  exact ⟨sound, fun edit fits => (sound.run fits).1, _, e.read_toFile, sound.single⟩

/-- A session in which a goal is put on the turtle before the board becomes wider and less high. -/
def overwritten : Editor :=
  [Edit.place ⟨0, 1⟩, .choose .goal, .place ⟨0, 1⟩, .resize 2 5].foldl
    (fun e edit => (edit.run e).1) (new 3 3 none).1

theorem edited_sound_overwritten :
    Edited (new 3 3 none).1 overwritten ∧ overwritten.turtle = overwritten.goal ∧
      overwritten.Sound ∧ (∀ edit : Edit, edit.Fits overwritten → (edit.run overwritten).2 = none) ∧
      ∃ grid, Json.read overwritten.toFile = .ok grid ∧ Single grid := by
  have inside : Board.Inside 3 3 ⟨0, 1⟩ := ⟨by decide, by decide, by decide, by decide⟩
  have started : Edited (new 3 3 none).1 (new 3 3 none).1 := .start
  have edited : Edited (new 3 3 none).1 overwritten :=
    (((started.edit (.place ⟨0, 1⟩) inside).edit (.choose .goal) trivial).edit
      (.place ⟨0, 1⟩) inside).edit (.resize 2 5) ⟨by decide, by decide⟩
  exact ⟨edited, by decide,
    edited_sound (.inl ⟨by decide, by decide⟩) (fun text held => by cases held)
    edited⟩

end Editor
end Grid
end Pseudocode
