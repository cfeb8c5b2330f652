import Pseudocode.Grid.Board

/-!
# Boards of a size

A board of a size is known by its cells: two boards of one size with the same cell in every row and
column are equal, and every operation is described by the cells that it leaves behind.  Places come
one after another row by row, which is the order in which a window loads them.
-/

namespace Pseudocode
namespace Grid

/-! ## Rows of entries -/

/-- What stands in a row and a column. -/
def getAt? {α : Type} (rows : List (List α)) (row column : Nat) : Option α :=
  rows[row]?.bind (·[column]?)

/-- A place comes before another one, row by row. -/
def Earlier (row column row' column' : Nat) : Prop :=
  row < row' ∨ row = row' ∧ column < column'

instance (row column row' column' : Nat) : Decidable (Earlier row column row' column') :=
  inferInstanceAs (Decidable (_ ∨ _))

section

variable {α : Type} {p : α → Bool}

theorem getAt?_map {β : Type} (f : α → β) (rows : List (List α)) (row column : Nat) :
    getAt? (rows.map (·.map f)) row column = (getAt? rows row column).map f := by
  rw [getAt?, getAt?, List.getElem?_map]
  cases rows[row]? with
  | none => rfl
  | some cells => exact List.getElem?_map

theorem countP_le_one_iff {list : List α} :
    list.countP p ≤ 1 ↔ list.Pairwise fun a b => ¬ (p a = true ∧ p b = true) := by
  induction list with
  | nil => simp
  | cons first rest ih =>
      rw [List.pairwise_cons, ← ih]
      cases holds : p first with
      | false =>
          rw [List.countP_cons_of_neg (by simp [holds])]
          simp
      | true =>
          rw [List.countP_cons_of_pos holds]
          have absent : rest.countP p = 0 ↔ ∀ b ∈ rest, ¬ (true = true ∧ p b = true) := by
            simp [List.countP_eq_zero]
          rw [← absent]
          omega

/-- At most one entry satisfies a condition if no two places have such entries. -/
theorem countP_flatten_le_one_iff {rows : List (List α)} :
    rows.flatten.countP p ≤ 1 ↔ ∀ (r c r' c' : Nat) (a b : α), getAt? rows r c = some a →
      p a = true → getAt? rows r' c' = some b → p b = true → r = r' ∧ c = c' := by
  rw [countP_le_one_iff, List.pairwise_flatten]
  constructor
  · rintro ⟨inRow, apart⟩ r c r' c' a b here holds there holds'
    obtain ⟨cells, row, column⟩ := Option.bind_eq_some_iff.mp here
    obtain ⟨cells', row', column'⟩ := Option.bind_eq_some_iff.mp there
    rw [List.pairwise_iff_getElem] at apart
    obtain ⟨inside, rfl⟩ := List.getElem?_eq_some_iff.mp row
    obtain ⟨inside', rfl⟩ := List.getElem?_eq_some_iff.mp row'
    have member := List.mem_of_getElem? column
    have member' := List.mem_of_getElem? column'
    obtain less | rfl | more := Nat.lt_trichotomy r r'
    · exact absurd ⟨holds, holds'⟩ (apart r r' inside inside' less a member b member')
    · have once := List.pairwise_iff_getElem.mp (inRow _ (List.getElem_mem inside))
      obtain ⟨within, rfl⟩ := List.getElem?_eq_some_iff.mp column
      obtain ⟨within', rfl⟩ := List.getElem?_eq_some_iff.mp column'
      obtain less | same | more := Nat.lt_trichotomy c c'
      · exact absurd ⟨holds, holds'⟩ (once c c' within within' less)
      · exact ⟨rfl, same⟩
      · exact absurd ⟨holds', holds⟩ (once c' c within' within more)
    · exact absurd ⟨holds', holds⟩ (apart r' r inside' inside more b member' a member)
  · intro unique
    constructor
    · intro cells member
      obtain ⟨r, row⟩ := List.mem_iff_getElem?.mp member
      rw [List.pairwise_iff_getElem]
      intro c c' within within' less both
      have here : getAt? rows r c = some cells[c] := by simp [getAt?, row]
      have there : getAt? rows r c' = some cells[c'] := by simp [getAt?, row]
      exact Nat.ne_of_lt less (unique r c r c' _ _ here both.1 there both.2).2
    · rw [List.pairwise_iff_getElem]
      intro r r' inside inside' less a member b member' both
      obtain ⟨c, column⟩ := List.mem_iff_getElem?.mp member
      obtain ⟨c', column'⟩ := List.mem_iff_getElem?.mp member'
      have here : getAt? rows r c = some a := by simp [getAt?, inside, column]
      have there : getAt? rows r' c' = some b := by simp [getAt?, inside', column']
      exact Nat.ne_of_lt less (unique r c r' c' a b here both.1 there both.2).1

end

namespace Board

/-! ## Sizes -/

/-- A board with so many rows and columns. -/
structure HasSize (board : Board) (rows columns : Int) : Prop where
  rows : (board.length : Int) = rows
  columns : ∀ cells ∈ board, (cells.length : Int) = columns

variable {board other : Board} {rows columns : Int} {row column : Nat} {cell : Cell}

theorem cellAt_eq (board : Board) (row column : Nat) :
    board.cellAt row column = (getAt? board row column).getD .empty := rfl

theorem cellAt_eq_iff {item : Cell} (something : item ≠ .empty) :
    board.cellAt row column = item ↔ getAt? board row column = some item := by
  rw [cellAt_eq]
  cases getAt? board row column with
  | none => exact ⟨fun same => absurd same.symm something, fun absurd => by cases absurd⟩
  | some cell => exact Option.some_inj.symm

theorem mem_flatten_iff {item : Cell} (something : item ≠ .empty) :
    item ∈ board.flatten ↔ ∃ row column, board.cellAt row column = item := by
  simp only [cellAt_eq_iff something, getAt?, Option.bind_eq_some_iff]
  rw [List.mem_flatten]
  constructor
  · rintro ⟨cells, member, inside⟩
    obtain ⟨row, here⟩ := List.mem_iff_getElem?.mp member
    obtain ⟨column, there⟩ := List.mem_iff_getElem?.mp inside
    exact ⟨row, column, cells, here, there⟩
  · rintro ⟨row, column, cells, here, there⟩
    exact ⟨cells, List.mem_of_getElem? here, List.mem_of_getElem? there⟩

namespace HasSize

theorem getAt?_eq (size : board.HasSize rows columns) (inside : row < rows)
    (within : column < columns) : getAt? board row column = some (board.cellAt row column) := by
  have short : row < board.length := by
    have height := size.rows
    omega
  have narrow : column < board[row].length := by
    have width := size.columns board[row] (List.getElem_mem short)
    omega
  rw [cellAt_eq]
  simp [getAt?, short, narrow]

theorem cellAt_outside (size : board.HasSize rows columns)
    (outside : ¬ (row < rows ∧ column < columns)) : board.cellAt row column = .empty := by
  rw [cellAt_eq]
  cases found : getAt? board row column with
  | none => rfl
  | some cell =>
      obtain ⟨cells, here, there⟩ := Option.bind_eq_some_iff.mp found
      have height := size.rows
      have width := size.columns cells (List.mem_of_getElem? here)
      have short := (List.getElem?_eq_some_iff.mp here).1
      have narrow := (List.getElem?_eq_some_iff.mp there).1
      omega

/-- Only inside the board there are cells that are not empty. -/
theorem inside_of_cellAt (size : board.HasSize rows columns)
    (something : board.cellAt row column ≠ .empty) : row < rows ∧ column < columns :=
  Decidable.byContradiction fun outside => something (size.cellAt_outside outside)

/-- Boards of one size are equal if their cells are. -/
theorem ext (size : board.HasSize rows columns) (size' : other.HasSize rows columns)
    (same : ∀ row column : Nat, row < rows → column < columns →
      board.cellAt row column = other.cellAt row column) : board = other := by
  have height := size.rows
  have height' := size'.rows
  apply List.ext_getElem (by omega)
  intro row short short'
  have width := size.columns board[row] (List.getElem_mem short)
  have width' := size'.columns other[row] (List.getElem_mem short')
  apply List.ext_getElem (by omega)
  intro column narrow narrow'
  have equal := same row column (by omega) (by omega)
  simpa [cellAt_eq, getAt?, short, short', narrow, narrow'] using equal

theorem setAt (size : board.HasSize rows columns) (row column : Nat) (cell : Cell) :
    (board.setAt row column cell).HasSize rows columns where
  rows := by rw [length_setAt, size.rows]
  columns := by
    intro cells member
    obtain ⟨index, here⟩ := List.mem_iff_getElem?.mp member
    rw [Board.setAt, List.getElem?_modify] at here
    obtain ⟨old, found, rfl⟩ := Option.map_eq_some_iff.mp here
    have width := size.columns old (List.mem_of_getElem? found)
    split
    · rw [List.length_set, width]
    · exact width

theorem cellAt_setAt (size : board.HasSize rows columns) (inside : row < rows)
    (within : column < columns) (cell : Cell) (row' column' : Nat) :
    (board.setAt row column cell).cellAt row' column' =
      if row' = row ∧ column' = column then cell else board.cellAt row' column' := by
  have height := size.rows
  rw [cellAt_eq, cellAt_eq, getAt?, getAt?, Board.setAt, List.getElem?_modify]
  by_cases short : row' < board.length
  · have width := size.columns board[row'] (List.getElem_mem short)
    rw [List.getElem?_eq_getElem short]
    by_cases here : row' = row
    · subst here
      simp only [Option.map_eq_map, Option.map_some, Option.bind_some, if_true, true_and]
      rw [List.getElem?_set]
      by_cases there : column' = column
      · subst there
        rw [if_pos rfl, if_pos (by omega), if_pos rfl]
        rfl
      · rw [if_neg (Ne.symm there), if_neg there]
    · simp [here, Ne.symm here]
  · rw [List.getElem?_eq_none (Nat.le_of_not_lt short), if_neg (by omega)]
    rfl

end HasSize

theorem hasSize_blank (tall : 0 ≤ rows) (wide : 0 ≤ columns) :
    (blank rows columns).HasSize rows columns where
  rows := by rw [length_blank, Int.toNat_of_nonneg tall]
  columns cells member := by rw [length_of_mem_blank member, Int.toNat_of_nonneg wide]

theorem cellAt_blank (rows columns : Int) (row column : Nat) :
    (blank rows columns).cellAt row column = .empty := by
  rw [cellAt_eq, getAt?, blank, List.getElem?_replicate]
  split
  · rw [Option.bind_some, List.getElem?_replicate]
    split <;> rfl
  · rfl

theorem hasSize_resize (board : Board) (tall : 0 ≤ rows) (wide : 0 ≤ columns) :
    (board.resize rows columns).HasSize rows columns where
  rows := by rw [resize, List.length_map, List.length_range, Int.toNat_of_nonneg tall]
  columns := by
    intro cells member
    obtain ⟨row, _, rfl⟩ := List.mem_map.mp member
    rw [List.length_map, List.length_range, Int.toNat_of_nonneg wide]

theorem cellAt_resize (board : Board) (rows columns : Int) (row column : Nat) :
    (board.resize rows columns).cellAt row column =
      if row < rows ∧ column < columns then board.cellAt row column else .empty := by
  have found : getAt? (board.resize rows columns) row column =
      if row < rows ∧ column < columns then some (board.cellAt row column) else none := by
    rw [getAt?, resize, List.getElem?_map]
    by_cases inside : row < rows.toNat
    · rw [List.getElem?_range inside, Option.map_some, Option.bind_some, List.getElem?_map]
      by_cases within : column < columns.toNat
      · rw [List.getElem?_range within, if_pos (by omega)]
        rfl
      · rw [List.getElem?_eq_none (by simpa using within), if_neg (by omega)]
        rfl
    · rw [List.getElem?_eq_none (by simpa using inside), if_neg (by omega)]
      rfl
  rw [cellAt_eq, found]
  split <;> rfl

/-! ## Places -/

/-- A place on a board of a size. -/
def Inside (rows columns : Int) (place : Place) : Prop :=
  0 ≤ place.row ∧ place.row < rows ∧ 0 ≤ place.column ∧ place.column < columns

instance (rows columns : Int) (place : Place) : Decidable (Inside rows columns place) :=
  inferInstanceAs (Decidable (_ ∧ _))

theorem index?_of_inside {length : Nat} {i : Int} (nonneg : 0 ≤ i) (less : i < length) :
    index? length i = some i.toNat := by
  simp [index?, nonneg, less, Int.not_lt.mpr nonneg]

theorem HasSize.locate?_eq (size : board.HasSize rows columns) {place : Place}
    (inside : Inside rows columns place) :
    board.locate? place = some (place.row.toNat, place.column.toNat) := by
  obtain ⟨rowNonneg, rowLess, columnNonneg, columnLess⟩ := inside
  have height := size.rows
  have short : place.row.toNat < board.length := by omega
  have width := size.columns board[place.row.toNat] (List.getElem_mem short)
  simp [locate?, index?_of_inside rowNonneg (by omega : place.row < board.length), short,
    index?_of_inside columnNonneg (by omega : place.column < board[place.row.toNat].length)]

theorem HasSize.get_eq (size : board.HasSize rows columns) {place : Place}
    (inside : Inside rows columns place) :
    board.get place = .ok (board.cellAt place.row.toNat place.column.toNat) := by
  rw [get, size.locate?_eq inside]

theorem HasSize.put_eq (size : board.HasSize rows columns) {place : Place}
    (inside : Inside rows columns place) (cell : Cell) :
    board.put place cell = .ok (board.setAt place.row.toNat place.column.toNat cell) := by
  rw [put, size.locate?_eq inside]

/-- The last place of an item on a board, row by row; none if the item is not on the board. -/
def IsLast (board : Board) (item : Cell) : Option Place → Prop
  | none => ∀ row column, board.cellAt row column ≠ item
  | some place => ∃ row column : Nat, place = ⟨row, column⟩ ∧ board.cellAt row column = item ∧
      ∀ row' column', board.cellAt row' column' = item →
        Earlier row' column' row column ∨ row' = row ∧ column' = column

/-- A cell behind which there is nothing becomes the last place of what is put there. -/
theorem IsLast.setAt {item : Cell} {place : Option Place} (last : board.IsLast item place)
    (size : board.HasSize rows columns) (inside : row < rows) (within : column < columns)
    (behind : ∀ row' column', ¬ Earlier row' column' row column →
      board.cellAt row' column' = .empty) (something : item ≠ .empty) (cell : Cell) :
    (board.setAt row column cell).IsLast item
      (if cell = item then some ⟨row, column⟩ else place) := by
  have cells := size.cellAt_setAt inside within cell
  have before (row' column' : Nat) (here : board.cellAt row' column' = item) :
      Earlier row' column' row column :=
    Decidable.byContradiction fun late =>
      something (here.symm.trans (behind row' column' late))
  by_cases same : cell = item
  · rw [if_pos same]
    refine ⟨row, column, rfl, ?_, ?_⟩
    · rw [cells, if_pos ⟨rfl, rfl⟩, same]
    · intro row' column' here
      rw [cells] at here
      split at here
      · rename_i equal
        exact .inr equal
      · exact .inl (before row' column' here)
  · rw [if_neg same]
    cases place with
    | none =>
        intro row' column' here
        rw [cells] at here
        split at here
        · exact same here
        · exact last row' column' here
    | some place =>
        obtain ⟨atRow, atColumn, rfl, here, latest⟩ := last
        have early := before atRow atColumn here
        refine ⟨atRow, atColumn, rfl, ?_, ?_⟩
        · rw [cells, if_neg, here]
          unfold Earlier at early
          omega
        · intro row' column' there
          rw [cells] at there
          split at there
          · exact absurd there same
          · exact latest row' column' there

/-! ## Painting -/

/-- A board that shows the entries of a source before a place and is empty from there on. -/
structure Paints {α : Type} (kind : α → Cell) (source : List (List α)) (rows columns : Int)
    (row column : Nat) (board : Board) : Prop where
  size : board.HasSize rows columns
  cellAt : ∀ r c : Nat, board.cellAt r c =
    if (r < rows ∧ c < columns) ∧ Earlier r c row column then
      ((getAt? source r c).map kind).getD .empty
    else .empty

section

variable {α : Type} {kind : α → Cell} {source : List (List α)}

theorem paints_blank (tall : 0 ≤ rows) (wide : 0 ≤ columns) :
    (blank rows columns).Paints kind source rows columns 0 0 where
  size := hasSize_blank tall wide
  cellAt r c := by
    rw [cellAt_blank, if_neg]
    rintro ⟨_, early⟩
    simp [Earlier] at early

namespace Paints

theorem behind (paints : board.Paints kind source rows columns row column) {r c : Nat}
    (late : ¬ Earlier r c row column) : board.cellAt r c = .empty := by
  rw [paints.cellAt, if_neg (fun both => late both.2)]

/-- Places at which the source has nothing may be passed over. -/
theorem advance (paints : board.Paints kind source rows columns row column) {row' column' : Nat}
    (later : ∀ r c : Nat, r < rows → c < columns → Earlier r c row column →
      Earlier r c row' column')
    (nothing : ∀ r c : Nat, r < rows → c < columns → Earlier r c row' column' →
      ¬ Earlier r c row column → getAt? source r c = none) :
    board.Paints kind source rows columns row' column' where
  size := paints.size
  cellAt r c := by
    rw [paints.cellAt]
    by_cases inside : r < rows ∧ c < columns
    · by_cases early : Earlier r c row column
      · rw [if_pos ⟨inside, early⟩, if_pos ⟨inside, later r c inside.1 inside.2 early⟩]
      · rw [if_neg (fun both => early both.2)]
        split
        · rename_i passed
          rw [nothing r c inside.1 inside.2 passed.2 early]
          rfl
        · rfl
    · rw [if_neg (fun both => inside both.1), if_neg (fun both => inside both.1)]

theorem paint (paints : board.Paints kind source rows columns row column) {entry : α}
    (inside : row < rows) (within : column < columns)
    (here : getAt? source row column = some entry) :
    (board.setAt row column (kind entry)).Paints kind source rows columns row (column + 1) where
  size := paints.size.setAt row column _
  cellAt r c := by
    rw [paints.size.cellAt_setAt inside within]
    by_cases same : r = row ∧ c = column
    · obtain ⟨rfl, rfl⟩ := same
      rw [if_pos ⟨rfl, rfl⟩, if_pos ⟨⟨inside, within⟩, .inr ⟨rfl, Nat.lt_succ_self c⟩⟩, here]
      rfl
    · have early : Earlier r c row (column + 1) ↔ Earlier r c row column := by
        unfold Earlier
        omega
      rw [if_neg same, paints.cellAt]
      simp only [early]

end Paints

/-- A source of the size of the board shows as a whole. -/
theorem Paints.eq_map {height width : Nat}
    (paints : board.Paints kind source height width height 0) (heights : source.length = height)
    (widths : ∀ cells ∈ source, cells.length = width) : board = source.map (·.map kind) := by
  refine paints.size.ext ⟨by rw [List.length_map, heights], ?_⟩ ?_
  · intro cells member
    obtain ⟨entries, inside, rfl⟩ := List.mem_map.mp member
    rw [List.length_map, widths entries inside]
  · intro row column inside within
    rw [paints.cellAt, if_pos ⟨⟨inside, within⟩, .inl (by omega)⟩, cellAt_eq, getAt?_map]

end

end Board
end Grid
end Pseudocode
