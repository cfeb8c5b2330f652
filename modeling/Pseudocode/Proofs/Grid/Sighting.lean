import Pseudocode.Proofs.Grid.Scene

/-!
# The first turtle

A grid may be ragged and may hold several turtles, and a search meets them row by row.  The grid is
taken apart at the turtle that is met first.  Turning that turtle changes its cell and nothing else.
-/

namespace Pseudocode
namespace Grid

/-! ## Searching -/

section

variable {look : Json → Except Fault (Option Int)}

theorem turtleInRow_none {cells : List Json} (empty : ∀ cell ∈ cells, look cell = .ok none) :
    turtleInRow look cells = .ok none := by
  induction cells with
  | nil => rfl
  | cons cell rest ih =>
      obtain ⟨first, others⟩ := List.forall_mem_cons.mp empty
      rw [turtleInRow, first, ih others]
      rfl

theorem turtleInRow_some {left : List Json} (right : List Json) {cell : Json} {heading : Int}
    (empty : ∀ cell ∈ left, look cell = .ok none) (found : look cell = .ok (some heading)) :
    turtleInRow look (left ++ cell :: right) = .ok (some (left.length, heading)) := by
  induction left with
  | nil =>
      rw [List.nil_append, turtleInRow, found]
      rfl
  | cons first rest ih =>
      obtain ⟨here, others⟩ := List.forall_mem_cons.mp empty
      rw [List.cons_append, turtleInRow, here, ih others]
      rfl

theorem firstTurtle_none {rows : List (List Json)}
    (empty : ∀ cells ∈ rows, turtleInRow look cells = .ok none) (start : Nat) :
    firstTurtle look start (rows.map .array) = .ok none := by
  induction rows generalizing start with
  | nil => rfl
  | cons first rest ih =>
      obtain ⟨here, others⟩ := List.forall_mem_cons.mp empty
      rw [List.map_cons, firstTurtle]
      change (turtleInRow look first >>= _) = _
      rw [here]
      exact ih others (start + 1)

theorem firstTurtle_some {above : List (List Json)} {row : List Json} {column : Nat} {heading : Int}
    (below : List (List Json)) (empty : ∀ cells ∈ above, turtleInRow look cells = .ok none)
    (found : turtleInRow look row = .ok (some (column, heading))) (start : Nat) :
    firstTurtle look start ((above ++ row :: below).map .array) =
      .ok (some ⟨start + above.length, column, heading⟩) := by
  induction above generalizing start with
  | nil =>
      rw [List.nil_append, List.map_cons, firstTurtle]
      change (turtleInRow look row >>= _) = _
      rw [found]
      rfl
  | cons first rest ih =>
      obtain ⟨here, others⟩ := List.forall_mem_cons.mp empty
      have later := ih others (start + 1)
      rw [List.cons_append, List.map_cons, firstTurtle]
      change (turtleInRow look first >>= _) = _
      rw [here, List.length_cons, ← Nat.add_assoc, Nat.add_right_comm, ← later]
      rfl

end

theorem heading?_of_none {cell : Json} (bare : turtleNumber? cell = none) :
    heading? cell = .ok none := by
  rw [heading?, bare]

theorem heading?_of_whole {cell number : Json} {direction : Int}
    (turtle : turtleNumber? cell = some number) (whole : number.toWhole = .ok direction) :
    heading? cell = .ok (some (direction % fullTurn)) := by
  rw [heading?, turtle]
  change (number.toWhole >>= _) = _
  rw [whole]
  rfl

/-- Without a turtle none is found. -/
theorem findTurtle_none {rows : List (List Json)}
    (bare : ∀ cells ∈ rows, ∀ cell ∈ cells, turtleNumber? cell = none) :
    findTurtle (document rows) = .ok none :=
  firstTurtle_none (fun cells member =>
    turtleInRow_none fun cell here => heading?_of_none (bare cells member cell here)) 0

section

variable {above below : List (List Json)} {left right : List Json}

theorem item_around (cell : Json) :
    (document (around above left cell right below)).item above.length =
      .ok (.array (left ++ cell :: right)) := by
  simp [document, around, Json.item]

theorem setCell_around (old new : Json) :
    setCell (document (around above left old right below)) above.length left.length new =
      .ok (document (around above left new right below)) := by
  rw [setCell, item_around]
  simp [Json.setItem, document, around, bind, Except.bind]

end

/-! ## Sightings -/

/-- A grid taken apart at its first turtle. -/
structure Sighting where
  /-- The rows above the turtle. -/
  above : List (List Json)
  /-- The cells left of the turtle. -/
  left : List Json
  /-- The cell of the turtle. -/
  cell : Json
  /-- The cells right of the turtle. -/
  right : List Json
  /-- The rows below the turtle. -/
  below : List (List Json)
  /-- The whole part of the number in the cell. -/
  direction : Int
  turtle : ∃ number, turtleNumber? cell = some number ∧ number.toWhole = .ok direction
  bareAbove : ∀ cells ∈ above, ∀ cell ∈ cells, turtleNumber? cell = none
  bareLeft : ∀ cell ∈ left, turtleNumber? cell = none

theorem exists_first {α : Type} {p : α → Bool} {list : List α} (occurs : ∃ a ∈ list, p a = true) :
    ∃ before a after, list = before ++ a :: after ∧ p a = true ∧ ∀ b ∈ before, p b = false := by
  obtain ⟨a, found⟩ := Option.isSome_iff_exists.mp (List.find?_isSome.mpr occurs)
  obtain ⟨holds, before, after, same, earlier⟩ := List.find?_eq_some_iff_append.mp found
  exact ⟨before, a, after, same, holds, fun b member => by simpa using earlier b member⟩

namespace Sighting

variable (s : Sighting)

/-- The rows with a cell in the place of the turtle. -/
def holding (cell : Json) : List (List Json) :=
  around s.above s.left cell s.right s.below

/-- The rows of the grid. -/
def rows : List (List Json) :=
  s.holding s.cell

/-- Every grid with turtles, all of them with directions, has a first one. -/
theorem exists_of_turtle {rows : List (List Json)}
    (directed : ∀ cells ∈ rows, ∀ cell ∈ cells, ∀ number, turtleNumber? cell = some number →
      ∃ direction, number.toWhole = .ok direction)
    (occurs : ∃ cells ∈ rows, ∃ cell ∈ cells, (turtleNumber? cell).isSome = true) :
    ∃ s : Sighting, s.rows = rows := by
  obtain ⟨cells, member, cell, here, turtle⟩ := occurs
  obtain ⟨above, line, below, rfl, inLine, bareAbove⟩ :=
    exists_first (p := fun cells => cells.any fun cell => (turtleNumber? cell).isSome)
      ⟨cells, member, List.any_eq_true.mpr ⟨cell, here, turtle⟩⟩
  obtain ⟨left, cell, right, rfl, turtle, bareLeft⟩ := exists_first (List.any_eq_true.mp inLine)
  obtain ⟨number, found⟩ := Option.isSome_iff_exists.mp turtle
  obtain ⟨direction, whole⟩ :=
    directed (left ++ cell :: right) (by simp) cell (by simp) number found
  refine ⟨⟨above, left, cell, right, below, direction, ⟨number, found, whole⟩, ?_, ?_⟩, rfl⟩
  · intro cells member cell here
    have bare := List.any_eq_false.mp (bareAbove cells member) cell here
    simpa using bare
  · intro cell here
    simpa using bareLeft cell here

theorem findTurtle_document : findTurtle (document s.rows) =
    .ok (some ⟨s.above.length, s.left.length, s.direction % fullTurn⟩) := by
  obtain ⟨number, turtle, whole⟩ := s.turtle
  have found := turtleInRow_some s.right (fun cell here => heading?_of_none (s.bareLeft cell here))
    (heading?_of_whole turtle whole)
  have first := firstTurtle_some s.below (fun cells member =>
    turtleInRow_none fun cell here => heading?_of_none (s.bareAbove cells member cell here)) found 0
  rw [Nat.zero_add] at first
  exact first

end Sighting

/-! ## Turning -/

/-- A cell with its turtle turned to a heading.  What is under the turtle stays there. -/
def facing (cell : Json) (heading : Int) : Json :=
  match cell with
  | .array (under :: _ :: _) => .array [under, .int heading]
  | _ => .int heading

theorem turnCount_int (times : Int) :
    turnCount (.int times) = .ok (if 0 < times then times else 1) := by
  rw [turnCount]
  by_cases zero : times = 0
  · subst zero
    rfl
  · have isTrue : (Json.int times).isTrue = true := decide_eq_true zero
    rw [isTrue]
    rfl

/-- Turning changes the cell of the first turtle only. -/
theorem Sighting.turnTurtle_document (s : Sighting) (sign times : Int) :
    turnTurtle (document s.rows) sign (.int times) = .ok (some (document (s.holding (facing s.cell
      ((s.direction % fullTurn + sign * quarterTurn * (if 0 < times then times else 1)) %
        fullTurn))))) := by
  have here : (Json.array (s.left ++ s.cell :: s.right)).item s.left.length = .ok s.cell := by
    simp [Json.item]
  unfold turnTurtle
  rw [s.findTurtle_document]
  simp only [bind, Except.bind, turnCount_int]
  rw [rows, holding, item_around]
  dsimp only
  rw [here]
  dsimp only
  rw [setCell_around]
  rfl

end Grid
end Pseudocode
