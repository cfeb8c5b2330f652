import Pseudocode.Proofs.Grid.Commands

/-!
# Turns add up

On any grid with a turtle, ragged or with further turtles, a run of turns comes to a single turn:
the quarters to the left less the quarters to the right.  Nothing but the cell of the first turtle
is changed, and what lies under that turtle stays there.  The first turn of a run makes the
direction a whole number from zero up to a full turn.
-/

namespace Pseudocode
namespace Grid

/-! ## Cells -/

/-- Whether a document is a finite number. -/
def isFinite : Json → Bool
  | .bool _ => true
  | .int _ => true
  | .real x =>
      match Number.Binary.ofFloat x with
      | .finite _ _ _ => true
      | _ => false
  | _ => false

/-- Whether a cell is null, a text, a finite number, or a finite number on top of null or a text. -/
def isCell : Json → Bool
  | .null => true
  | .text _ => true
  | .array [.null, number] => isFinite number
  | .array [.text _, number] => isFinite number
  | cell => isFinite cell

theorem exists_toWhole {number : Json} (finite : isFinite number = true) :
    ∃ direction, number.toWhole = .ok direction := by
  cases number with
  | bool b => exact ⟨_, rfl⟩
  | int n => exact ⟨n, rfl⟩
  | real x =>
      rw [Json.toWhole, Number.floatToWhole]
      rw [isFinite] at finite
      cases parts : Number.Binary.ofFloat x with
      | finite negative mantissa exponent => exact ⟨_, rfl⟩
      | nan | infinite => simp [parts] at finite
  | null | text | array | object => cases finite

/-- The turtles among the cells have directions. -/
theorem toWhole_of_isCell {cell number : Json} (isCell : isCell cell = true)
    (turtle : turtleNumber? cell = some number) : ∃ direction, number.toWhole = .ok direction := by
  unfold Grid.isCell at isCell
  split at isCell
  · cases turtle
  · cases turtle
  iterate 2
    · rw [turtleNumber?] at turtle
      split at turtle
      · cases turtle
        exact exists_toWhole isCell
      · cases turtle
  · cases cell with
    | bool | int | real =>
        cases turtle
        exact exists_toWhole isCell
    | null | text | array | object => cases isCell

/-! ## Turned grids -/

theorem turtleNumber?_facing (cell : Json) (heading : Int) :
    turtleNumber? (facing cell heading) = some (.int heading) := by
  unfold facing
  split <;> rfl

theorem facing_facing (cell : Json) (first second : Int) :
    facing (facing cell first) second = facing cell second := by
  rw [facing.eq_def cell first]
  split
  · rfl
  · rename_i alone
    rw [facing.eq_def cell second]
    split
    · exact (alone _ _ _ rfl).elim
    · rfl

namespace Sighting

variable (s : Sighting)

/-- The direction after some quarter turns to the left, from zero up to a full turn. -/
def directionAfter (quarters : Int) : Int :=
  (s.direction + quarterTurn * quarters) % fullTurn

/-- The grid after some quarter turns to the left. -/
def turned (quarters : Int) : Sighting :=
  { s with
    cell := facing s.cell (s.directionAfter quarters)
    direction := s.directionAfter quarters
    turtle := ⟨_, turtleNumber?_facing s.cell _, rfl⟩ }

theorem rows_turned (quarters : Int) :
    (s.turned quarters).rows = s.holding (facing s.cell (s.directionAfter quarters)) := rfl

/-- Turning once more. -/
theorem turned_turned (first second : Int) :
    (s.turned first).turned second = s.turned (first + second) := by
  have direction : (s.turned first).directionAfter second = s.directionAfter (first + second) := by
    change ((s.direction + quarterTurn * first) % fullTurn + quarterTurn * second) % fullTurn =
      (s.direction + quarterTurn * (first + second)) % fullTurn
    rw [Int.emod_add_emod, Int.mul_add, Int.add_assoc]
  have cell : facing (s.turned first).cell (s.directionAfter (first + second)) =
      facing s.cell (s.directionAfter (first + second)) := facing_facing s.cell _ _
  simp only [turned] at direction cell ⊢
  simp only [direction, cell]

/-- The direction is a whole number from zero up to a full turn. -/
def IsNormal : Prop :=
  facing s.cell s.direction = s.cell ∧ 0 ≤ s.direction ∧ s.direction < fullTurn

theorem rows_turned_zero (normal : s.IsNormal) : (s.turned 0).rows = s.rows := by
  obtain ⟨same, least, less⟩ := normal
  have direction : s.directionAfter 0 = s.direction := by
    rw [directionAfter, Int.mul_zero, Int.add_zero, Int.emod_eq_of_lt least less]
  rw [rows_turned, direction, same, rows]

/-- Reading undoes writing on every grid that turns of the first turtle lead to. -/
def Restored : Prop :=
  ∀ quarters, Json.read (document (s.turned quarters).rows).write =
    .ok (document (s.turned quarters).rows)

end Sighting

theorem plain_heading {heading : Int} (least : 0 ≤ heading) (less : heading < fullTurn) :
    (Json.int heading).Plain := by
  have digits : ∀ n < 360, (Nat.toDigits 10 n).length ≤ 3 := by decide +kernel
  refine .int (Nat.le_trans (digits heading.natAbs ?_) (by decide))
  unfold fullTurn at less
  omega

theorem plain_facing {cell : Json} (plain : cell.Plain) {heading : Int} (least : 0 ≤ heading)
    (less : heading < fullTurn) : (facing cell heading).Plain := by
  have number := plain_heading least less
  unfold facing
  split
  · cases plain with
    | array each =>
        apply Json.Plain.array
        simp only [List.forall_mem_cons]
        exact ⟨each _ List.mem_cons_self, number, fun _ absent => by cases absent⟩
  · exact number

/-- Where every cell is read back, so is every grid that turns lead to. -/
theorem Sighting.restored {s : Sighting} (plain : ∀ cells ∈ s.rows, ∀ cell ∈ cells, cell.Plain) :
    s.Restored := by
  intro quarters
  obtain ⟨above, left, here, right, below⟩ := forall_around.mp plain
  have least : 0 ≤ s.directionAfter quarters := Int.emod_nonneg _ (by decide)
  have less : s.directionAfter quarters < fullTurn := Int.emod_lt_of_pos _ (by decide)
  have turned := plain_facing here least less
  exact (plain_document (forall_around.mpr ⟨above, left, turned, right, below⟩)).read_write

/-! ## Runs of turns -/

/-- The side to which the turtle is turned. -/
inductive Side where
  | left
  | right
  deriving DecidableEq, Repr

/-- A command to turn by a positive number of quarters. -/
structure Turn where
  side : Side
  times : Int
  positive : 0 < times

namespace Turn

/-- The command for the robot. -/
def command (t : Turn) : Command :=
  match t.side with
  | .left => .left t.times
  | .right => .right t.times

/-- The quarters, counted to the left. -/
def quarters (t : Turn) : Int :=
  match t.side with
  | .left => t.times
  | .right => -t.times

end Turn

/-- The quarters to the left less the quarters to the right. -/
def netQuarters : List Turn → Int
  | [] => 0
  | t :: rest => t.quarters + netQuarters rest

theorem netQuarters_perm {turns others : List Turn} (perm : turns.Perm others) :
    netQuarters turns = netQuarters others := by
  induction perm with
  | nil => rfl
  | cons t _ ih => rw [netQuarters, netQuarters, ih]
  | swap t u rest =>
      simp only [netQuarters]
      omega
  | trans _ _ first second => exact first.trans second

section

variable {s : Sighting} {file : File}

/-- One turn: the file holds the turned grid. -/
theorem run_turn (held : file.read = .ok (document s.rows)) (t : Turn) :
    (t.command.run file).file = some (document (s.turned t.quarters).rows).write := by
  have report (sign : Int) (side : String) : (turn file sign side (.int t.times)).file =
      some (document (s.turned (sign * t.times)).rows).write := by
    have turned := s.turnTurtle_document sign t.times
    rw [if_pos t.positive, Int.emod_add_emod, Int.mul_comm sign, Int.mul_assoc] at turned
    simp only [turn, held, Except.bind, turned]
    rfl
  obtain ⟨side, times, positive⟩ := t
  cases side with
  | left =>
      have left := report 1 "left"
      rw [Int.one_mul] at left
      exact left
  | right =>
      have right := report (-1) "right"
      rw [Int.neg_one_mul] at right
      exact right

/-- Every run: the turns that follow on others add to them. -/
theorem read_fileAfter_turned (restored : s.Restored) {before : Int}
    (held : file.read = .ok (document (s.turned before).rows)) (turns : List Turn) :
    (fileAfter file (turns.map Turn.command)).read =
      .ok (document (s.turned (before + netQuarters turns)).rows) := by
  induction turns generalizing file before with
  | nil =>
      rw [netQuarters, Int.add_zero]
      exact held
  | cons t rest ih =>
      have once := run_turn held t
      rw [s.turned_turned] at once
      have next : (t.command.run file).file.read =
          .ok (document (s.turned (before + t.quarters)).rows) := by
        rw [once]
        exact restored _
      have later := ih next
      rw [Int.add_assoc] at later
      exact later

theorem read_fileAfter (restored : s.Restored) (held : file.read = .ok (document s.rows))
    {turns : List Turn} (nonempty : turns ≠ []) :
    (fileAfter file (turns.map Turn.command)).read =
      .ok (document (s.turned (netQuarters turns)).rows) := by
  obtain ⟨t, rest, rfl⟩ := List.exists_cons_of_ne_nil nonempty
  have first : (t.command.run file).file.read = .ok (document (s.turned t.quarters).rows) := by
    rw [run_turn held t]
    exact restored _
  exact read_fileAfter_turned restored first rest

end

/-- Every grid with a turtle has a first one.  After any turns the grid is the same but for the
direction of that turtle, to which the quarters to the left are added and from which the quarters to
the right are taken.  So the order of the turns does not matter, and equal turns to the two sides
leave a turtle with a normal direction as it was. -/
theorem turns_add_up {rows : List (List Json)}
    (cells : ∀ line ∈ rows, ∀ cell ∈ line, isCell cell = true)
    (occurs : ∃ line ∈ rows, ∃ cell ∈ line, (turtleNumber? cell).isSome = true) :
    ∃ s : Sighting, s.rows = rows ∧ ∀ file : File, file.read = .ok (document rows) → s.Restored →
      (∀ turns : List Turn, turns ≠ [] →
        (fileAfter file (turns.map Turn.command)).read = .ok (document (s.holding
          (facing s.cell ((s.direction + 90 * netQuarters turns) % 360)))) ∧
        ∀ others : List Turn, others.Perm turns →
          (fileAfter file (others.map Turn.command)).read =
            (fileAfter file (turns.map Turn.command)).read) ∧
      (s.IsNormal → ∀ times : Int, 0 < times →
        (fileAfter file [.left times, .right times]).read = .ok (document rows) ∧
        (fileAfter file [.right times, .left times]).read = .ok (document rows)) := by
  have directed : ∀ line ∈ rows, ∀ cell ∈ line, ∀ number, turtleNumber? cell = some number →
      ∃ direction, number.toWhole = .ok direction :=
    fun line member cell here _ => toWhole_of_isCell (cells line member cell here)
  obtain ⟨s, rfl⟩ := Sighting.exists_of_turtle directed occurs
  refine ⟨s, rfl, fun file held restored => ⟨fun turns nonempty => ⟨?_, ?_⟩, ?_⟩⟩
  · exact read_fileAfter restored held nonempty
  · intro others perm
    have other : others ≠ [] := fun empty => nonempty (List.nil_perm.mp (empty ▸ perm))
    rw [read_fileAfter restored held other, read_fileAfter restored held nonempty,
      netQuarters_perm perm]
  · intro normal times positive
    have back (turns : List Turn) (nonempty : turns ≠ []) (balanced : netQuarters turns = 0) :
        (fileAfter file (turns.map Turn.command)).read = .ok (document s.rows) := by
      rw [read_fileAfter restored held nonempty, balanced, s.rows_turned_zero normal]
    have cancel : netQuarters [⟨.left, times, positive⟩, ⟨.right, times, positive⟩] = 0 ∧
        netQuarters [⟨.right, times, positive⟩, ⟨.left, times, positive⟩] = 0 := by
      simp only [netQuarters, Turn.quarters]
      omega
    exact ⟨back _ (List.cons_ne_nil _ _) cancel.1, back _ (List.cons_ne_nil _ _) cancel.2⟩

/-- A ragged grid with three turtles, the first of them on a wall and with a fraction in its
direction. -/
def crowded : List (List Json) :=
  [[.null, .ofString "x"],
    [.array [.ofString "WALL", .real (Number.ofDecimal true 4505 (-1))], .int 7], [], [.int 90]]

/-- The file of the grid. -/
def crowdedFile : File := some (document crowded).write

theorem plain_crowded : ∀ cells ∈ crowded, ∀ cell ∈ cells, cell.Plain := by
  have legible : Json.Legible (Number.ofDecimal true 4505 (-1)) := by
    have text : (Json.writeReal (Number.ofDecimal true 4505 (-1))).toList =
        ['-', '4', '5', '0', '.', '5'] := by decide +kernel
    constructor
    · exact ⟨'-', _, text, rfl, by decide⟩
    · rw [text]
      rfl
    · intro fuel rest closes
      rw [text]
      obtain rfl | ⟨more, rfl⟩ | ⟨more, rfl⟩ := Json.closes_cases closes <;> rfl
  have pair : (Json.array [.ofString "WALL", .real (Number.ofDecimal true 4505 (-1))]).Plain := by
    apply Json.Plain.array
    simp only [List.forall_mem_cons]
    exact ⟨.text (by decide), .real legible, fun _ absent => by cases absent⟩
  have noCell (cell : Json) (member : cell ∈ []) : cell.Plain := by cases member
  simp only [crowded, List.forall_mem_cons]
  exact ⟨⟨.null, .text (by decide), noCell⟩,
    ⟨pair, plain_heading (by decide) (by decide), noCell⟩, noCell,
    ⟨plain_heading (by decide) (by decide), noCell⟩, fun _ absent => by cases absent⟩

theorem turns_add_up_crowded :
    (∀ line ∈ crowded, ∀ cell ∈ line, isCell cell = true) ∧
    crowdedFile.read = .ok (document crowded) ∧
    ∃ s : Sighting, s.rows = crowded ∧ s.Restored ∧
      (fileAfter crowdedFile [.left 3, .right 1, .left 5]).read =
        .ok (document (s.holding (facing s.cell ((s.direction + 90 * 7) % 360)))) := by
  have cells : ∀ line ∈ crowded, ∀ cell ∈ line, isCell cell = true := by decide +kernel
  have held : crowdedFile.read = .ok (document crowded) := (plain_document plain_crowded).read_write
  obtain ⟨s, same, runs⟩ := turns_add_up cells ⟨[.int 90], by simp [crowded], .int 90, by simp, rfl⟩
  have restored : s.Restored := Sighting.restored (same ▸ plain_crowded)
  obtain ⟨turned, _⟩ := (runs crowdedFile held restored).1
    [⟨.left, 3, by decide⟩, ⟨.right, 1, by decide⟩, ⟨.left, 5, by decide⟩] (List.cons_ne_nil _ _)
  exact ⟨cells, held, s, same, restored, turned⟩

end Grid
end Pseudocode
