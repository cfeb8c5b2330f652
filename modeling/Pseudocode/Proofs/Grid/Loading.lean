import Pseudocode.Grid.Editor
import Pseudocode.Proofs.Grid.Boards
import Pseudocode.Proofs.Grid.Turtle

/-!
# What the editor loads

Loading goes through a document row by row.  Behind the place that it has reached the board is
empty, and before it every cell of the document shows on the board.  The remembered turtle and goal
are the last ones that were met.
-/

namespace Pseudocode

/-- The items of a document, none if it has no items in an order. -/
def Json.listed (j : Json) : List Json :=
  j.indexed.toOption.getD []

theorem Json.listed_of_indexed {j : Json} {items : List Json} (indexed : j.indexed = .ok items) :
    j.listed = items := by
  rw [Json.listed, indexed]
  rfl

namespace Grid

theorem exists_of_bind_ok {ε α β : Type} {first : Except ε α} {next : α → Except ε β} {b : β}
    (done : (first >>= next) = .ok b) : ∃ a, first = .ok a ∧ next a = .ok b := by
  cases first with
  | error fault => cases done
  | ok a => exact ⟨a, rfl, done⟩

/-- The cells of the rows of a document. -/
def cellRows (grid : Json) : List (List Json) :=
  grid.listed.map Json.listed

theorem cellRows_document (rows : List (List Json)) : cellRows (document rows) = rows := by
  rw [cellRows, Json.listed_of_indexed (rfl : (document rows).indexed = _), List.map_map]
  exact List.map_id rows

theorem clampSize_eq {size : Nat} (least : 2 ≤ size) (greatest : size ≤ 10) :
    clampSize size = size := by
  unfold clampSize leastSize greatestSize
  omega

theorem shownSize_document {rows : List (List Json)} {height width : Nat}
    (tall : 2 ≤ height ∧ height ≤ 10) (wide : 2 ≤ width ∧ width ≤ 10)
    (heights : rows.length = height)
    (widths : ∀ cells ∈ rows, cells.length = width) :
    shownSize (document rows) = .ok (height, width) := by
  have nonempty : rows ≠ [] := by
    rintro rfl
    rw [List.length_nil] at heights
    omega
  rw [shownSize, length_document, width_document nonempty widths, heights]
  change Except.ok (clampSize height, clampSize width) = _
  rw [clampSize_eq tall.1 tall.2, clampSize_eq wide.1 wide.2]

namespace Editor

/-- What a cell of a document becomes on the board. -/
def kindOf (cell : Json) : Cell :=
  if cell.isText "WALL" then .wall
  else if cell.isText "GOAL" then .goal
  else if cell.isNumber then .turtle
  else .empty

theorem isNumber_of_isText {cell : Json} {word : String} (same : cell.isText word = true) :
    cell.isNumber = false := by
  cases cell with
  | text points => rfl
  | null | bool | int | real | array | object => cases same

theorem kindOf_eq_goal {cell : Json} : kindOf cell = .goal ↔ cell.isText "GOAL" = true := by
  have different : cell.isText "GOAL" = true → cell.isText "WALL" = false := by
    cases cell with
    | text points =>
        intro same
        rw [Json.isText, decide_eq_true_iff] at same
        rw [same]
        decide
    | null | bool | int | real | array | object => exact fun _ => rfl
  unfold kindOf
  grind

theorem kindOf_eq_turtle {cell : Json} : kindOf cell = .turtle ↔ cell.isNumber = true := by
  have wall : cell.isText "WALL" = true → cell.isNumber = false := isNumber_of_isText
  have goal : cell.isText "GOAL" = true → cell.isNumber = false := isNumber_of_isText
  unfold kindOf
  grind

/-! ## One cell -/

/-- What taking over a cell does to an editor. -/
structure Takes (e : Editor) (row column : Nat) (cell : Json) (next : Editor) : Prop where
  rows : next.rows = e.rows
  columns : next.columns = e.columns
  board : next.board = e.board.setAt row column (kindOf cell)
  turtle : next.turtle = if kindOf cell = .turtle then some ⟨row, column⟩ else e.turtle
  goal : next.goal = if kindOf cell = .goal then some ⟨row, column⟩ else e.goal
  facing : if kindOf cell = .turtle then
    ∃ heading, cell.toWhole = .ok heading ∧ next.facing = quarters (heading % fullTurn)
    else next.facing = e.facing

theorem takes_of_loadCell {e next : Editor} {row column : Nat} {cell : Json}
    (loaded : e.loadCell row column cell = .ok next) : e.Takes row column cell next := by
  unfold loadCell at loaded
  split at loaded
  · rename_i wall
    cases loaded
    have kind : kindOf cell = .wall := by rw [kindOf, if_pos wall]
    constructor <;> simp [kind]
  · rename_i wall
    split at loaded
    · rename_i goal
      cases loaded
      have kind : kindOf cell = .goal := kindOf_eq_goal.mpr goal
      constructor <;> simp [kind]
    · rename_i goal
      split at loaded
      · rename_i number
        have kind : kindOf cell = .turtle := kindOf_eq_turtle.mpr number
        cases whole : cell.toWhole with
        | error fault =>
            rw [whole] at loaded
            cases loaded
        | ok heading =>
            rw [whole] at loaded
            cases loaded
            constructor <;> simp [kind, whole]
      · rename_i number
        cases loaded
        have kind : kindOf cell = .empty := by
          rw [kindOf, if_neg wall, if_neg goal, if_neg number]
        constructor <;> simp [kind]

/-- Whether a cell of a document can be taken over: its number, if it is one, is a whole number. -/
def Loadable (cell : Json) : Prop :=
  cell.isNumber = true → ∃ heading, cell.toWhole = .ok heading

theorem exists_loadCell (e : Editor) (row column : Nat) {cell : Json} (loadable : Loadable cell) :
    ∃ next, e.loadCell row column cell = .ok next := by
  unfold loadCell
  split
  · exact ⟨_, rfl⟩
  · split
    · exact ⟨_, rfl⟩
    · split
      · rename_i number
        obtain ⟨heading, whole⟩ := loadable number
        rw [whole]
        exact ⟨_, rfl⟩
      · exact ⟨_, rfl⟩

theorem exists_loadRow (e : Editor) (row column : Nat) (cells : List Json)
    (loadable : ∀ cell ∈ cells, Loadable cell) :
    ∃ next, Editor.loadRow row column cells e = .ok next := by
  induction cells generalizing column e with
  | nil => exact ⟨e, rfl⟩
  | cons cell rest ih =>
      obtain ⟨first, others⟩ := List.forall_mem_cons.mp loadable
      obtain ⟨middle, one⟩ := exists_loadCell e row column first
      obtain ⟨next, more⟩ := ih middle (column + 1) others
      refine ⟨next, ?_⟩
      rw [Editor.loadRow, one]
      exact more

theorem exists_loadRows (e : Editor) (row : Nat) (source : List (List Json))
    (loadable : ∀ cells ∈ source, ∀ cell ∈ cells, Loadable cell) :
    ∃ next, Editor.loadRows row (source.map .array) e = .ok next := by
  induction source generalizing row e with
  | nil => exact ⟨e, rfl⟩
  | cons cells rest ih =>
      obtain ⟨first, others⟩ := List.forall_mem_cons.mp loadable
      obtain ⟨middle, one⟩ := exists_loadRow e row 0 (cells.take e.columns.toNat)
        fun cell member => first cell (List.mem_of_mem_take member)
      obtain ⟨next, more⟩ := ih middle (row + 1) others
      refine ⟨next, ?_⟩
      rw [List.map_cons, Editor.loadRows]
      change (Editor.loadRow row 0 (cells.take e.columns.toNat) e >>= _) = _
      rw [one]
      exact more

/-- A document of loadable cells is taken over. -/
theorem exists_fill (e : Editor) {source : List (List Json)}
    (loadable : ∀ cells ∈ source, ∀ cell ∈ cells, Loadable cell) :
    ∃ next, e.fill (Grid.document source) = .ok next := by
  obtain ⟨next, filled⟩ := exists_loadRows e 0 (source.take e.rows.toNat)
    fun cells member => loadable cells (List.mem_of_mem_take member)
  refine ⟨next, ?_⟩
  rw [List.map_take] at filled
  exact filled

/-! ## The place that loading has reached -/

/-- The editor shows the cells of a source before a place. -/
structure Shows (source : List (List Json)) (rows columns : Int) (row column : Nat) (e : Editor) :
    Prop where
  height : e.rows = rows
  width : e.columns = columns
  board : e.board.Paints kindOf source rows columns row column
  turtle : e.board.IsLast .turtle e.turtle
  goal : e.board.IsLast .goal e.goal
  facing : e.turtle = none ∧ e.facing = 0 ∨
    ∃ (r c : Nat) (cell : Json) (heading : Int), e.turtle = some ⟨r, c⟩ ∧
      getAt? source r c = some cell ∧ cell.toWhole = .ok heading ∧
      e.facing = quarters (heading % fullTurn)

/-- The whole source has been taken over as far as it fits. -/
def Shown (source : List (List Json)) (e : Editor) : Prop :=
  e.Shows source e.rows e.columns e.rows.toNat 0

variable {source : List (List Json)} {rows columns : Int} {row column : Nat} {e next : Editor}

theorem shows_blank (source : List (List Json)) (tall : 0 ≤ e.rows) (wide : 0 ≤ e.columns) :
    e.blank.Shows source e.rows e.columns 0 0 where
  height := rfl
  width := rfl
  board := Board.paints_blank tall wide
  turtle r c here := by cases (Board.cellAt_blank e.rows e.columns r c).symm.trans here
  goal r c here := by cases (Board.cellAt_blank e.rows e.columns r c).symm.trans here
  facing := .inl ⟨rfl, rfl⟩

theorem Shows.advance (shows : e.Shows source rows columns row column) {row' column' : Nat}
    (later : ∀ r c : Nat, r < rows → c < columns → Earlier r c row column →
      Earlier r c row' column')
    (nothing : ∀ r c : Nat, r < rows → c < columns → Earlier r c row' column' →
      ¬ Earlier r c row column → getAt? source r c = none) :
    e.Shows source rows columns row' column' :=
  { shows with board := shows.board.advance later nothing }

theorem Shows.loadCell (shows : e.Shows source rows columns row column) {cell : Json}
    (inside : row < rows) (within : column < columns) (here : getAt? source row column = some cell)
    (loaded : e.loadCell row column cell = .ok next) :
    next.Shows source rows columns row (column + 1) := by
  have takes := takes_of_loadCell loaded
  have size := shows.board.size
  refine ⟨takes.rows.trans shows.height, takes.columns.trans shows.width, ?_, ?_, ?_, ?_⟩
  · rw [takes.board]
    exact shows.board.paint inside within here
  · rw [takes.board, takes.turtle]
    exact shows.turtle.setAt size inside within (fun _ _ => shows.board.behind) (by decide) _
  · rw [takes.board, takes.goal]
    exact shows.goal.setAt size inside within (fun _ _ => shows.board.behind) (by decide) _
  · have faces := takes.facing
    rw [takes.turtle]
    by_cases turtle : kindOf cell = .turtle
    · rw [if_pos turtle] at faces ⊢
      obtain ⟨heading, whole, faces⟩ := faces
      exact .inr ⟨row, column, cell, heading, rfl, here, whole, faces⟩
    · rw [if_neg turtle] at faces ⊢
      rw [faces]
      exact shows.facing

/-- The cells of a row take the editor to the start of the next row. -/
theorem Shows.loadRow {cells : List Json} (shows : e.Shows source rows columns row column)
    (inside : row < rows) (fits : (column + cells.length : Nat) ≤ columns)
    (here : ∀ i : Nat, (column + i : Nat) < columns → cells[i]? = getAt? source row (column + i))
    (loaded : Editor.loadRow row column cells e = .ok next) :
    next.Shows source rows columns (row + 1) 0 := by
  induction cells generalizing column e with
  | nil =>
      cases loaded
      refine shows.advance ?_ ?_
      · unfold Earlier
        omega
      · intro r c _ within early late
        obtain ⟨rfl, behind⟩ : r = row ∧ column ≤ c := by
          unfold Earlier at early late
          omega
        have nothing := here (c - column) (by omega)
        rw [Nat.add_sub_cancel' behind] at nothing
        exact nothing.symm
  | cons cell rest ih =>
      rw [List.length_cons] at fits
      obtain ⟨middle, one, others⟩ := exists_of_bind_ok loaded
      have first := here 0 (by omega)
      refine ih (shows.loadCell inside (by omega) first.symm one) (by omega) ?_ others
      intro i within
      rw [Nat.add_assoc, Nat.add_comm 1 i, ← here (i + 1) (by omega)]
      rfl

/-- The rows of a document take the editor to the end of the board. -/
theorem Shows.loadRows {lines : List Json} (shows : e.Shows source rows columns row 0)
    (wide : 0 ≤ columns) (fits : (row + lines.length : Nat) ≤ rows)
    (here : ∀ i : Nat, (row + i : Nat) < rows → lines[i]?.map Json.listed = source[row + i]?)
    (loaded : Editor.loadRows row lines e = .ok next) :
    next.Shows source rows columns rows.toNat 0 := by
  induction lines generalizing row e with
  | nil =>
      cases loaded
      refine shows.advance ?_ ?_
      · unfold Earlier
        omega
      · intro r c inside _ _ late
        have behind : row ≤ r := by
          unfold Earlier at late
          omega
        have nothing := here (r - row) (by omega)
        rw [Nat.add_sub_cancel' behind] at nothing
        rw [getAt?, ← nothing]
        rfl
  | cons line rest ih =>
      rw [List.length_cons] at fits
      obtain ⟨cells, indexed, more⟩ := exists_of_bind_ok loaded
      obtain ⟨middle, one, others⟩ := exists_of_bind_ok more
      rw [shows.width] at one
      have first := here 0 (by omega)
      refine ih (shows.loadRow (by omega) ?_ ?_ one) (by omega) ?_ others
      · rw [List.length_take]
        omega
      · intro i within
        rw [Nat.add_zero] at first
        rw [getAt?, ← first, List.getElem?_take_of_lt (by omega), Nat.zero_add]
        exact congrArg (·[i]?) (Json.listed_of_indexed indexed).symm
      · intro i inside
        rw [Nat.add_assoc, Nat.add_comm 1 i, ← here (i + 1) (by omega)]
        rfl

theorem shown_of_fill {grid : Json} (tall : 0 ≤ e.rows) (wide : 0 ≤ e.columns)
    (loaded : e.blank.fill grid = .ok next) :
    next.Shown (cellRows grid) ∧ next.rows = e.rows ∧ next.columns = e.columns := by
  have height : e.blank.rows = e.rows := rfl
  obtain ⟨lines, indexed, filled⟩ := exists_of_bind_ok loaded
  rw [height] at filled
  have shows : next.Shows (cellRows grid) e.rows e.columns e.rows.toNat 0 := by
    refine (shows_blank (cellRows grid) tall wide).loadRows wide ?_ ?_ filled
    · rw [List.length_take]
      omega
    · intro i inside
      rw [cellRows, Json.listed_of_indexed indexed, List.getElem?_map, Nat.zero_add,
        List.getElem?_take_of_lt (by omega)]
  exact ⟨by rwa [Shown, shows.height, shows.width], shows.height, shows.width⟩

/-! ## Files -/

theorem shown_blank (tall : 0 ≤ e.rows) (wide : 0 ≤ e.columns) : e.blank.Shown [] := by
  refine (shows_blank [] tall wide).advance ?_ ?_
  · intro r c _ _ early
    simp [Earlier] at early
  · intro r c _ _ _ _
    rfl

section

variable {text : String} {grid : Json} {rows columns : Nat}

/-- The editor with an empty board of the size of a document. -/
def resized (e : Editor) (rows columns : Nat) : Editor :=
  ({ e with rows := rows, columns := columns } : Editor).blank

theorem load_of_fill (read : Json.read text = .ok grid)
    (sized : shownSize grid = .ok (rows, columns))
    (filled : (e.resized rows columns).fill grid = .ok next) : e.load (some text) = (next, "") := by
  unfold resized at filled
  simp only [load, read, sized, filled, bind, Except.bind, pure, Except.pure]

theorem load_of_fault {fault : Fault} (read : Json.read text = .ok grid)
    (sized : shownSize grid = .ok (rows, columns))
    (failed : (e.resized rows columns).fill grid = .error fault) :
    e.load (some text) = (e.resized rows columns, loadFailure fault) := by
  unfold resized at failed ⊢
  simp only [load, read, sized, failed, bind, Except.bind, pure, Except.pure]

theorem shownSize_pos (sized : shownSize grid = .ok (rows, columns)) : 2 ≤ rows ∧ 2 ≤ columns := by
  obtain ⟨height, _, more⟩ := exists_of_bind_ok sized
  obtain ⟨width, _, done⟩ := exists_of_bind_ok more
  cases done
  exact ⟨Nat.le_max_left _ _, Nat.le_max_left _ _⟩

end

/-- A file that is read and has a size. -/
def HasGrid (file : File) : Prop :=
  ∃ text ∈ file, ∃ grid size, Json.read text = .ok grid ∧ shownSize grid = .ok size

theorem load_eq_blank {file : File} (missing : ¬ HasGrid file) : (e.load file).1 = e.blank := by
  cases file with
  | none => rfl
  | some text =>
      cases read : Json.read text with
      | error fault => simp only [load, read, bind, Except.bind]
      | ok grid =>
          cases sized : shownSize grid with
          | error fault => simp only [load, read, sized, bind, Except.bind]
          | ok size => exact absurd ⟨text, rfl, grid, size, read, sized⟩ missing

/-- Whatever a file holds, afterwards the editor shows the cells of the file or nothing. -/
theorem exists_shown (e : Editor) (file : File)
    (sized : 0 < e.rows ∧ 0 < e.columns ∨ HasGrid file) :
    ∃ source, (e.load file).1.Shown source ∧
      (0 < (e.load file).1.rows ∧ 0 < (e.load file).1.columns) ∧
      (source = [] ∨
        ∃ text ∈ file, ∃ grid, Json.read text = .ok grid ∧ source = cellRows grid) := by
  by_cases hasGrid : HasGrid file
  · obtain ⟨text, rfl, grid, ⟨rows, columns⟩, read, size⟩ := hasGrid
    have least := shownSize_pos size
    have blank : (e.resized rows columns).Shown [] :=
      shown_blank (e := { e with rows := rows, columns := columns }) (Int.natCast_nonneg rows)
        (Int.natCast_nonneg columns)
    have positive : (0 : Int) < rows ∧ (0 : Int) < columns := by omega
    cases filled : (e.resized rows columns).fill grid with
    | error fault =>
        rw [load_of_fault read size filled]
        exact ⟨[], blank, positive, .inl rfl⟩
    | ok loaded =>
        rw [load_of_fill read size filled]
        obtain ⟨shown, height, width⟩ := shown_of_fill (Int.natCast_nonneg rows)
          (Int.natCast_nonneg columns) filled
        rw [height, width]
        exact ⟨cellRows grid, shown, positive, .inr ⟨text, rfl, grid, read, rfl⟩⟩
  · have positive := sized.resolve_right hasGrid
    rw [load_eq_blank hasGrid]
    exact ⟨[], shown_blank (by omega) (by omega), positive, .inl rfl⟩

/-! ## Usable editors -/

/-- A board of the editor's size on which the remembered places are those of the last turtle and of
the last goal, with the turtle facing one of the four sides. -/
structure Usable (e : Editor) : Prop where
  positive : 0 < e.rows ∧ 0 < e.columns
  size : e.board.HasSize e.rows e.columns
  turtle : e.board.IsLast .turtle e.turtle
  goal : e.board.IsLast .goal e.goal
  faces : 0 ≤ e.facing ∧ e.facing ≤ 3

theorem quarters_bounds (heading : Int) :
    0 ≤ quarters (heading % fullTurn) ∧ quarters (heading % fullTurn) ≤ 3 := by
  unfold quarters fullTurn quarterTurn
  omega

theorem Shown.usable (shown : e.Shown source) (positive : 0 < e.rows ∧ 0 < e.columns) :
    e.Usable := by
  refine ⟨positive, shown.board.size, shown.turtle, shown.goal, ?_⟩
  obtain ⟨_, facing⟩ | ⟨_, _, _, heading, _, _, _, facing⟩ := shown.facing
  · rw [facing]
    decide
  · rw [facing]
    exact quarters_bounds heading

theorem clampSize_bounds (length : Nat) : 2 ≤ clampSize length ∧ clampSize length ≤ 10 := by
  unfold clampSize leastSize greatestSize
  omega

/-- Every array of arrays has a size. -/
theorem exists_shownSize (lines : List (List Json)) : ∃ height width,
    shownSize (Grid.document lines) = .ok (clampSize height, clampSize width) := by
  refine ⟨lines.length, (lines.map List.length).foldl max 0, ?_⟩
  rw [shownSize, length_document, width_document_eq]
  rfl

/-- A document with a size gives its size to the editor, whether its cells can be taken over or
not. -/
theorem size_load {text : String} {grid : Json} {height width : Nat} (e : Editor)
    (read : Json.read text = .ok grid) (sized : shownSize grid = .ok (height, width)) :
    (e.load (some text)).1.rows = height ∧ (e.load (some text)).1.columns = width := by
  cases filled : (e.resized height width).fill grid with
  | error fault =>
      rw [load_of_fault read sized filled]
      exact ⟨rfl, rfl⟩
  | ok loaded =>
      rw [load_of_fill read sized filled]
      exact (shown_of_fill (Int.natCast_nonneg height) (Int.natCast_nonneg width) filled).2

/-- Whatever a file holds, an editor that loads it is usable afterwards.  An array of arrays gives
it between two and ten rows and columns, and a file without a grid leaves its size as it was.  What
counts is the text as it is read: an array of arrays that the reader refuses, as it refuses a whole
number of more than `Number.digitLimit` digits, is no grid and leaves the size alone too. -/
theorem usable_load (e : Editor) (tall : 0 < e.rows) (wide : 0 < e.columns) (file : File) :
    (e.load file).1.Usable ∧
    (∀ text ∈ file, ∀ lines, Json.read text = .ok (Grid.document lines) →
      (2 ≤ (e.load file).1.rows ∧ (e.load file).1.rows ≤ 10) ∧
        2 ≤ (e.load file).1.columns ∧ (e.load file).1.columns ≤ 10) ∧
    (¬ HasGrid file → (e.load file).1.rows = e.rows ∧ (e.load file).1.columns = e.columns) := by
  refine ⟨?_, ?_, fun missing => ?_⟩
  · obtain ⟨source, shown, positive, _⟩ := e.exists_shown file (.inl ⟨tall, wide⟩)
    exact shown.usable positive
  · rintro text rfl lines read
    obtain ⟨height, width, sized⟩ := exists_shownSize lines
    obtain ⟨sameRows, sameColumns⟩ := e.size_load read sized
    have heights := clampSize_bounds height
    have widths := clampSize_bounds width
    rw [sameRows, sameColumns]
    omega
  · rw [load_eq_blank missing]
    exact ⟨rfl, rfl⟩

/-- Rows of different lengths with a goal, a turtle and a text that is nothing to an editor. -/
def uneven : List (List Json) :=
  [[.int 450], [.ofString "GOAL", .ofString "x", .null], []]

theorem usable_load_uneven :
    ((unloaded 1 1).load (some (Grid.document uneven).write)).1.Usable ∧
      Json.read (Grid.document uneven).write = .ok (Grid.document uneven) ∧
      ((unloaded 1 1).load (some (Grid.document uneven).write)).1.rows ≤ 10 := by
  have plain : ∀ cells ∈ uneven, ∀ cell ∈ cells, cell.Plain := by
    have noCell (cell : Json) (member : cell ∈ []) : cell.Plain := by cases member
    simp only [uneven, List.forall_mem_cons]
    exact ⟨⟨.int (by decide), noCell⟩, ⟨.text (by decide), .text (by decide), .null, noCell⟩,
      noCell, fun _ absent => by cases absent⟩
  have read := (plain_document plain).read_write
  obtain ⟨usable, size, _⟩ :=
    usable_load (unloaded 1 1) (by decide) (by decide) (some (Grid.document uneven).write)
  exact ⟨usable, read, (size _ rfl uneven read).1.2⟩

end Editor
end Grid
end Pseudocode
