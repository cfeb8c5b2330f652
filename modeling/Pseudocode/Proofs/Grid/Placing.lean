import Pseudocode.Proofs.Grid.Editing

/-!
# What a tool spares

A new turtle or goal replaces the remembered one, and whatever is at the remembered place by then is
cleared.  So the tool spares all other items unless one of them stands at the remembered place.  It
can get there only if another tool was used on the turtle or the goal.
-/

namespace Pseudocode
namespace Grid

namespace Board

variable {board : Board} {rows columns : Int} {p q : Place}

theorem Inside.eq_natCast (inside : Inside rows columns q) :
    (⟨q.row.toNat, q.column.toNat⟩ : Place) = q := by
  obtain ⟨rowNonneg, _, columnNonneg, _⟩ := inside
  rw [Int.toNat_of_nonneg rowNonneg, Int.toNat_of_nonneg columnNonneg]

/-- Only the remembered place is cleared. -/
theorem HasSize.cellAt_cleared (size : board.HasSize rows columns) {place : Option Place}
    (remembered : ∀ p ∈ place, Inside rows columns p) (row column : Nat) :
    (board.cleared place).cellAt row column =
      if place = some ⟨row, column⟩ then .empty else board.cellAt row column := by
  cases place with
  | none => rfl
  | some p =>
      rw [Board.cleared, size.cellAt_setAt_place (remembered p rfl)]
      simp only [Option.some.injEq]

end Board

namespace Editor

/-! ## One use of a tool -/

/-- The cell at a place. -/
def cell (e : Editor) (p : Place) : Cell :=
  e.board.cellAt p.row.toNat p.column.toNat

/-- The remembered place of the item that the tool puts down. -/
def remembered (e : Editor) : Option Place :=
  match e.tool with
  | .turtle => e.turtle
  | .goal => e.goal
  | .empty => none
  | .wall => none

/-- Using the tool at a place changes no other cell with an item of another kind. -/
def Spares (e : Editor) (p : Place) : Prop :=
  ∀ q, Board.Inside e.rows e.columns q → q ≠ p → e.cell q ≠ .empty → e.cell q ≠ e.tool →
    (e.place p).1.cell q = e.cell q

variable {e : Editor} {p q : Place}

theorem Sound.inside_remembered (sound : e.Sound) :
    ∀ q ∈ e.remembered, Board.Inside e.rows e.columns q := by
  unfold remembered
  cases e.tool with
  | turtle => exact sound.turtle.inside
  | goal => exact sound.goal.inside
  | empty | wall =>
      intro q found
      cases found

/-- The board after an item was put down. -/
theorem Sound.board_place (sound : e.Sound) (inside : Board.Inside e.rows e.columns p)
    (item : e.tool = .turtle ∨ e.tool = .goal) : (e.place p).1.board =
      (e.board.cleared e.remembered).setAt p.row.toNat p.column.toNat e.tool := by
  unfold remembered
  rw [Editor.place]
  obtain tool | tool := item
  · rw [tool]
    simp only [relocate_eq sound.size sound.turtle.inside inside]
  · rw [tool]
    simp only [relocate_eq sound.size sound.goal.inside inside]

/-- The tool changes the cell where it is used and the cell at the remembered place. -/
theorem Sound.cell_place_of_ne (sound : e.Sound) (inside : Board.Inside e.rows e.columns p)
    (within : Board.Inside e.rows e.columns q) (other : q ≠ p) :
    (e.place p).1.cell q = if e.remembered = some q then .empty else e.cell q := by
  have apart : ¬ p = ⟨q.row.toNat, q.column.toNat⟩ := by
    rw [within.eq_natCast]
    exact other.symm
  have replaced (item : e.tool = .turtle ∨ e.tool = .goal) :
      (e.place p).1.cell q = if e.remembered = some q then .empty else e.cell q := by
    rw [cell, sound.board_place inside item,
      (sound.size.cleared e.remembered).cellAt_setAt_place inside, if_neg apart,
      sound.size.cellAt_cleared sound.inside_remembered, within.eq_natCast]
    rfl
  cases tool : e.tool with
  | turtle => exact replaced (.inl tool)
  | goal => exact replaced (.inr tool)
  | empty => simp only [Editor.place, remembered, tool, reduceCtorEq, if_false]
  | wall =>
      simp only [Editor.place, remembered, tool, sound.size.get_eq inside, sound.size.put_eq inside,
        reduceCtorEq, if_false]
      rw [cell, sound.size.cellAt_setAt_place inside, if_neg apart]
      rfl

theorem Sound.cell_place_self (sound : e.Sound) (inside : Board.Inside e.rows e.columns p)
    (item : e.tool = .turtle ∨ e.tool = .goal) : (e.place p).1.cell p = e.tool := by
  rw [cell, sound.board_place inside item,
    (sound.size.cleared e.remembered).cellAt_setAt_place inside, inside.eq_natCast, if_pos rfl]

/-- The editor remembers the place of the item that it puts down. -/
theorem Sound.places_place (sound : e.Sound) (inside : Board.Inside e.rows e.columns p) :
    (e.place p).1.turtle = (if e.tool = .turtle then some p else e.turtle) ∧
      (e.place p).1.goal = if e.tool = .goal then some p else e.goal := by
  rw [Editor.place]
  cases e.tool with
  | empty => exact ⟨rfl, rfl⟩
  | wall =>
      simp only [sound.size.get_eq inside, sound.size.put_eq inside]
      exact ⟨rfl, rfl⟩
  | turtle =>
      simp only [relocate_eq sound.size sound.turtle.inside inside]
      exact ⟨rfl, rfl⟩
  | goal =>
      simp only [relocate_eq sound.size sound.goal.inside inside]
      exact ⟨rfl, rfl⟩

/-- The tool spares the other items exactly if none of them is at the remembered place. -/
theorem Sound.spares_iff (sound : e.Sound) (inside : Board.Inside e.rows e.columns p) :
    e.Spares p ↔ ∀ q ∈ e.remembered, q ≠ p → e.cell q = .empty ∨ e.cell q = e.tool := by
  constructor
  · intro spares q found other
    have within := sound.inside_remembered q found
    rw [Decidable.or_iff_not_imp_left]
    intro something
    refine Decidable.byContradiction fun different => something ?_
    rw [← spares q within other something different, sound.cell_place_of_ne inside within other,
      if_pos (Option.mem_def.mp found)]
  · intro fresh q within other something different
    rw [sound.cell_place_of_ne inside within other, if_neg]
    intro found
    exact (fresh q found other).elim something different

end Editor

/-! ## Careful sessions -/

/-- No tool is used on a turtle or a goal but its own. -/
def Edit.Careful (e : Editor) : Edit → Prop
  | place p => e.cell p = .turtle ∨ e.cell p = .goal → e.tool = e.cell p ∨ e.tool = .empty
  | choose _ | face _ | resize _ _ => True

namespace Editor

/-- The editors that a careful session comes to. -/
inductive CarefullyEdited (start : Editor) : Editor → Prop
  | start : CarefullyEdited start start
  | edit {e : Editor} (edited : CarefullyEdited start e) (edit : Edit) (fits : edit.Fits e)
      (careful : edit.Careful e) : CarefullyEdited start (edit.run e).1

/-- The turtle and the goal are where the editor remembers them. -/
structure Exact (e : Editor) : Prop extends e.Sound where
  turtleThere : ∀ q ∈ e.turtle, e.cell q = .turtle
  goalThere : ∀ q ∈ e.goal, e.cell q = .goal

variable {e : Editor} {p q : Place}

theorem Exact.cell_remembered (held : e.Exact) : ∀ q ∈ e.remembered, e.cell q = e.tool := by
  unfold remembered
  cases e.tool with
  | turtle => exact held.turtleThere
  | goal => exact held.goalThere
  | empty | wall =>
      intro q found
      cases found

/-- A careful use of a tool leaves the items of other kinds that are remembered where they are. -/
theorem Exact.cell_kept (held : e.Exact) (inside : Board.Inside e.rows e.columns p)
    (careful : (Edit.place p).Careful e) (something : e.tool ≠ .empty)
    (within : Board.Inside e.rows e.columns q) (item : e.cell q = .turtle ∨ e.cell q = .goal)
    (different : e.tool ≠ e.cell q) : (e.place p).1.cell q = e.cell q := by
  have other : q ≠ p := by
    rintro rfl
    exact (careful item).elim different something
  rw [held.toSound.cell_place_of_ne inside within other, if_neg]
  intro found
  exact different (held.cell_remembered q found).symm

/-- A careful use of a tool leaves the turtle or the goal where it is then remembered. -/
theorem Exact.cell_replaced (held : e.Exact) (inside : Board.Inside e.rows e.columns p)
    (careful : (Edit.place p).Careful e) (something : e.tool ≠ .empty) {item : Cell}
    (either : item = .turtle ∨ item = .goal) {place : Option Place}
    (within : ∀ q ∈ place, Board.Inside e.rows e.columns q) (there : ∀ q ∈ place, e.cell q = item) :
    ∀ q ∈ if e.tool = item then some p else place, (e.place p).1.cell q = item := by
  intro q found
  split at found
  · rename_i tool
    cases found
    rw [held.toSound.cell_place_self inside (tool ▸ either), tool]
  · rename_i different
    have here := there q found
    rw [held.cell_kept inside careful something (within q found) (here ▸ either)
      (here ▸ different), here]

theorem Exact.place (held : e.Exact) (inside : Board.Inside e.rows e.columns p)
    (careful : (Edit.place p).Careful e) (something : e.tool ≠ .empty) :
    (e.place p).1.Exact := by
  obtain ⟨turtle, goal⟩ := held.toSound.places_place inside
  refine ⟨(held.toSound.place inside).2, ?_, ?_⟩
  · rw [turtle]
    exact held.cell_replaced inside careful something (.inl rfl) held.turtle.inside
      held.turtleThere
  · rw [goal]
    exact held.cell_replaced inside careful something (.inr rfl) held.goal.inside held.goalThere

/-- A kept place holds what it held before. -/
theorem cell_resize {rows columns : Int} {place : Option Place}
    (inside : ∀ q ∈ place, Board.Inside e.rows e.columns q)
    (kept : q ∈ keepWithin rows columns place) :
    q ∈ place ∧ (e.resize rows columns).cell q = e.cell q := by
  obtain ⟨found, less⟩ := Option.filter_eq_some_iff.mp kept
  obtain ⟨rowNonneg, _, columnNonneg, _⟩ := inside q found
  have bounds : q.row < rows ∧ q.column < columns := by simpa using less
  refine ⟨found, (Board.cellAt_resize e.board rows columns _ _).trans (if_pos ?_)⟩
  omega

theorem Exact.resize (held : e.Exact) {rows columns : Int} (tall : 0 < rows) (wide : 0 < columns) :
    (e.resize rows columns).Exact := by
  have fits : (Edit.resize rows columns).Fits e := ⟨tall, wide⟩
  refine ⟨(held.toSound.run fits).2, fun q kept => ?_, fun q kept => ?_⟩
  · obtain ⟨found, same⟩ := cell_resize held.turtle.inside kept
    rw [same, held.turtleThere q found]
  · obtain ⟨found, same⟩ := cell_resize held.goal.inside kept
    rw [same, held.goalThere q found]

/-- One step of a careful session. -/
theorem Exact.run (held : e.Exact) {edit : Edit} (fits : edit.Fits e) (careful : edit.Careful e) :
    (edit.run e).1.Exact := by
  cases edit with
  | choose tool => exact ⟨(held.toSound.run fits).2, held.turtleThere, held.goalThere⟩
  | face facing => exact ⟨(held.toSound.run fits).2, held.turtleThere, held.goalThere⟩
  | place p =>
      by_cases tool : e.tool = .empty
      · rw [Edit.run, Editor.place, tool]
        exact held
      · exact held.place fits careful tool
  | resize rows columns => exact held.resize fits.1 fits.2

/-- Every careful session. -/
theorem CarefullyEdited.exact {start : Editor} (held : start.Exact)
    (edited : CarefullyEdited start e) : e.Exact := by
  induction edited with
  | start => exact held
  | edit _ edit fits careful ih => exact ih.run fits careful

/-! ## Sessions from an empty board -/

theorem exact_new {rows columns : Int} (tall : 0 < rows) (wide : 0 < columns) :
    (new rows columns none).1.Exact := by
  have sound : (new rows columns none).1.Sound :=
    sound_load (e := unloaded rows columns) (.inl ⟨tall, wide⟩) fun text held => by cases held
  refine ⟨sound, fun q found => ?_, fun q found => ?_⟩
  · cases found
  · cases found

/-- In a session from an empty board the tool spares all other items exactly if none of them is at
the place where the editor remembers the item of the tool.  So it does in every session in which no
tool is used on a turtle or a goal but its own. -/
theorem place_spares_iff {rows columns : Int} (tall : 0 < rows) (wide : 0 < columns)
    (edited : Edited (new rows columns none).1 e) (inside : Board.Inside e.rows e.columns p) :
    (e.Spares p ↔ ∀ q ∈ e.remembered, q ≠ p → e.cell q = .empty ∨ e.cell q = e.tool) ∧
      (CarefullyEdited (new rows columns none).1 e → e.Spares p) := by
  have held := exact_new tall wide
  have spares := (edited.sound held.toSound).spares_iff inside
  refine ⟨spares, fun careful => spares.mpr fun q found _ => .inr ?_⟩
  exact (careful.exact held).cell_remembered q found

/-- A session in which turtle and goal are put down and the board becomes wider and less high. -/
def tidy : Editor :=
  [Edit.place ⟨0, 1⟩, .choose .goal, .place ⟨1, 2⟩, .resize 2 5, .choose .turtle].foldl
    (fun e edit => (edit.run e).1) (new 3 3 none).1

theorem place_spares_iff_tidy :
    Edited (new 3 3 none).1 tidy ∧ CarefullyEdited (new 3 3 none).1 tidy ∧
      Board.Inside tidy.rows tidy.columns ⟨1, 4⟩ ∧
      (tidy.Spares ⟨1, 4⟩ ↔
        ∀ q ∈ tidy.remembered, q ≠ ⟨1, 4⟩ → tidy.cell q = .empty ∨ tidy.cell q = tidy.tool) ∧
      tidy.Spares ⟨1, 4⟩ := by
  have first : Board.Inside 3 3 ⟨0, 1⟩ := by decide
  have second : Board.Inside 3 3 ⟨1, 2⟩ := by decide
  have free (e : Editor) (p : Place) (empty : e.cell p = .empty) : (Edit.place p).Careful e :=
    fun item => by simp [empty] at item
  have started : Edited (new 3 3 none).1 (new 3 3 none).1 := .start
  have edited : Edited (new 3 3 none).1 tidy :=
    ((((started.edit (.place ⟨0, 1⟩) first).edit (.choose .goal) trivial).edit (.place ⟨1, 2⟩)
      second).edit (.resize 2 5) ⟨by decide, by decide⟩).edit (.choose .turtle) trivial
  have begun : CarefullyEdited (new 3 3 none).1 (new 3 3 none).1 := .start
  have careful : CarefullyEdited (new 3 3 none).1 tidy :=
    ((((begun.edit (.place ⟨0, 1⟩) first (free _ _ rfl)).edit (.choose .goal) trivial trivial).edit
      (.place ⟨1, 2⟩) second (free _ _ (by decide))).edit (.resize 2 5) ⟨by decide, by decide⟩
        trivial).edit (.choose .turtle) trivial trivial
  have inside : Board.Inside tidy.rows tidy.columns ⟨1, 4⟩ := by decide
  obtain ⟨spares, always⟩ := place_spares_iff (by decide) (by decide) edited inside
  exact ⟨edited, careful, inside, spares, always careful⟩

/-- A session in which a wall is put on the turtle before the turtle is moved. -/
def walledIn : Editor :=
  [Edit.place ⟨0, 0⟩, .choose .wall, .place ⟨0, 0⟩, .choose .turtle].foldl
    (fun e edit => (edit.run e).1) (new 3 3 none).1

theorem walledIn_not_spared :
    Edited (new 3 3 none).1 walledIn ∧ Board.Inside walledIn.rows walledIn.columns ⟨1, 1⟩ ∧
      walledIn.tool = .turtle ∧ walledIn.cell ⟨0, 0⟩ = .wall ∧
      (walledIn.place ⟨1, 1⟩).1.cell ⟨0, 0⟩ = .empty ∧ ¬ walledIn.Spares ⟨1, 1⟩ := by
  have inside : Board.Inside 3 3 ⟨0, 0⟩ := by decide
  have started : Edited (new 3 3 none).1 (new 3 3 none).1 := .start
  have edited : Edited (new 3 3 none).1 walledIn :=
    (((started.edit (.place ⟨0, 0⟩) inside).edit (.choose .wall) trivial).edit (.place ⟨0, 0⟩)
      inside).edit (.choose .turtle) trivial
  refine ⟨edited, by decide, by decide, by decide, by decide, fun spares => ?_⟩
  have kept := spares ⟨0, 0⟩ (by decide) (by decide) (by decide) (by decide)
  exact absurd kept (by decide)

end Editor
end Grid
end Pseudocode
