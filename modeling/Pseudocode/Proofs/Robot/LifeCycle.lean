import Pseudocode.Proofs.Grid.Loading
import Pseudocode.Robot

/-!
# The life of a robot

A robot is told to let a grid be made, to move, to turn and to look around, in any order.  Once a
window has left a confirmed grid behind, or a later one finds what an earlier one has left, the
robot moves on a grid for good.  What it has come to depends on the windows alone: on what the
windows that have been opened so far have left behind.
-/

namespace Pseudocode

/-- What a maker window leaves behind. -/
def MakerAction.leaves : MakerAction → Option MakerResult
  | .confirm _ => some .confirmed
  | .close => some .closed
  | .nothing => none

namespace Robot

/-! ## Commands -/

/-- What a robot can be told. -/
inductive Command where
  | createGrid
  | moveForward
  | rotateLeft
  | rotateRight
  | canMove (direction : String)
  deriving DecidableEq, Repr

/-- The robot after it has been told something. -/
def obey (r : Robot) : Command → Robot
  | .createGrid => r.createGrid.robot
  | .moveForward => r.moveForward.robot
  | .rotateLeft => r.rotateLeft.robot
  | .rotateRight => r.rotateRight.robot
  | .canMove direction => (r.canMove direction).robot

/-- A robot becomes another one by what it is told. -/
def Leads (r later : Robot) : Prop :=
  ∃ commands : List Command, later = commands.foldl obey r

theorem Leads.refl (r : Robot) : r.Leads r :=
  ⟨[], rfl⟩

theorem Leads.trans {a b c : Robot} (first : a.Leads b) (second : b.Leads c) : a.Leads c := by
  obtain ⟨commands, rfl⟩ := first
  obtain ⟨others, rfl⟩ := second
  exact ⟨commands ++ others, List.foldl_append.symm⟩

theorem leads_obey (r : Robot) (command : Command) : r.Leads (r.obey command) :=
  ⟨[command], rfl⟩

/-- What every command keeps is kept for good. -/
theorem Leads.keeps (holds : Robot → Prop) (kept : ∀ r command, holds r → holds (r.obey command))
    {r later : Robot} (leads : r.Leads later) (before : holds r) : holds later := by
  obtain ⟨commands, rfl⟩ := leads
  induction commands generalizing r with
  | nil => exact before
  | cons command commands ih => exact ih (kept r command before)

/-- On a grid only the grid file can change. -/
theorem exists_onGrid {α : Type} (r : Robot) {act : Grid.File → Answer α}
    (acts : ∀ file, ∃ after, (act file).robot = { r with current := after }) :
    ∃ after, (r.onGrid act).robot = { r with current := after } := by
  unfold onGrid
  split
  · exact acts r.current
  · split <;> exact ⟨r.current, rfl⟩

/-- Commands other than that for a grid change nothing but the grid file. -/
theorem exists_obey (r : Robot) {command : Command} (other : command ≠ .createGrid) :
    ∃ after, r.obey command = { r with current := after } := by
  cases command with
  | createGrid => exact absurd rfl other
  | moveForward =>
      apply exists_onGrid
      intro file
      dsimp only
      split <;> exact ⟨_, rfl⟩
  | rotateLeft => exact exists_onGrid r fun file => ⟨_, rfl⟩
  | rotateRight => exact exists_onGrid r fun file => ⟨_, rfl⟩
  | canMove direction => exact exists_onGrid r fun file => ⟨r.current, rfl⟩

/-! ## Windows -/

/-- What is found when so many windows have been opened: what the latest of them that left anything
has left behind, or what there was before. -/
def found (first : Robot) (count : Nat) : Option MakerResult :=
  (first.windows.take count).foldl (fun found action => action.leaves.or found) first.result

/-- A confirmed grid is found when the window with a number ends. -/
def Succeeds (first : Robot) (number : Nat) : Prop :=
  first.found (number + 1) = some .confirmed

instance (first : Robot) (number : Nat) : Decidable (first.Succeeds number) :=
  inferInstanceAs (Decidable (_ = _))

theorem found_succ (first : Robot) (count : Nat) :
    first.found (count + 1) = (first.windows[count]?.bind MakerAction.leaves).or
      (first.found count) := by
  unfold found
  rw [List.take_add_one, List.foldl_append]
  cases first.windows[count]? with
  | none => rfl
  | some action => rfl

/-- What is found when the next window ends. -/
def nextResult (r : Robot) : Option MakerResult :=
  (r.windows[r.opened]?.bind MakerAction.leaves).or r.result

theorem openMaker_eq (r : Robot) : ∃ file, r.openMaker =
    { r with making := true, initial := file, result := r.nextResult, opened := r.opened + 1 } := by
  unfold openMaker nextResult
  dsimp only
  cases r.windows[r.opened]? with
  | none => exact ⟨r.initial, rfl⟩
  | some action => cases action <;> exact ⟨_, rfl⟩

/-- A confirmed grid is what the robot moves on from then on; without one it is still being made. -/
theorem createGrid_cases (r : Robot) : ∃ file : Grid.File,
    (r.nextResult = some .confirmed ∧ r.createGrid = ⟨.ok (), "", { r with
        making := false
        gridCreated := true
        running := true
        current := file.or r.current
        initial := file
        result := r.nextResult
        opened := r.opened + 1 }⟩) ∨
      (r.nextResult ≠ some .confirmed ∧ ∃ trouble,
        (trouble = .fault .noGridResult ∨ trouble = .problem .makerClosed) ∧
        r.createGrid = ⟨.error trouble, "", { r with
          making := true
          initial := file
          result := r.nextResult
          opened := r.opened + 1 }⟩) := by
  obtain ⟨file, opens⟩ := r.openMaker_eq
  refine ⟨file, ?_⟩
  unfold createGrid
  rw [opens]
  dsimp only
  cases r.nextResult with
  | none => exact .inr ⟨nofun, _, .inl rfl, rfl⟩
  | some result =>
      cases result with
      | closed => exact .inr ⟨nofun, _, .inr rfl, rfl⟩
      | confirmed => exact .inl ⟨rfl, rfl⟩

/-! ## The life cycle -/

/-- A robot that has not been told anything yet, whatever files there are. -/
structure IsNew (first : Robot) : Prop where
  making : first.making = false
  gridCreated : first.gridCreated = false
  running : first.running = false
  opened : first.opened = 0

/-- What a robot has come to since it was new. -/
structure Lives (first r : Robot) : Prop where
  /-- The windows still do what they were going to do. -/
  windows : r.windows = first.windows
  /-- The latest result is that of the windows that have been opened. -/
  result : r.result = first.found r.opened
  /-- The robot moves on a grid as soon as there is one. -/
  running : r.running = r.gridCreated
  /-- There is a grid once one of the windows has succeeded. -/
  created : r.gridCreated = true ↔ ∃ number < r.opened, first.Succeeds number
  /-- A grid is being made exactly if the latest window did not succeed. -/
  making : r.making = true ↔ ∃ number, r.opened = number + 1 ∧ ¬ first.Succeeds number

theorem IsNew.lives {first : Robot} (new : first.IsNew) : Lives first first where
  windows := rfl
  result := by rw [new.opened]; rfl
  running := by rw [new.running, new.gridCreated]
  created := by simp [new.gridCreated, new.opened]
  making := by simp [new.making, new.opened]

/-- The next window succeeds if it is one of those that do. -/
theorem Lives.nextResult_eq {first r : Robot} (lives : Lives first r) :
    r.nextResult = first.found (r.opened + 1) := by
  rw [nextResult, found_succ, lives.windows, lives.result]

/-- The command for a grid comes out as the next window does. -/
theorem Lives.createGrid {first r : Robot} (lives : Lives first r) :
    Lives first r.createGrid.robot ∧ (r.createGrid.result = .ok () ↔ first.Succeeds r.opened) := by
  obtain ⟨file, ⟨isConfirmed, answer⟩ | ⟨noGrid, trouble, -, answer⟩⟩ := r.createGrid_cases
  · rw [lives.nextResult_eq] at isConfirmed answer
    have succeeds : first.Succeeds r.opened := isConfirmed
    rw [answer]
    refine ⟨⟨lives.windows, rfl, rfl, ?_, ?_⟩, by simpa using succeeds⟩
    · exact ⟨fun _ => ⟨r.opened, Nat.lt_succ_self _, succeeds⟩, fun _ => rfl⟩
    · simpa using succeeds
  · rw [lives.nextResult_eq] at noGrid answer
    have fails : ¬ first.Succeeds r.opened := noGrid
    rw [answer]
    refine ⟨⟨lives.windows, rfl, lives.running, ?_, ?_⟩, by simpa using fails⟩
    · refine lives.created.trans ?_
      change _ ↔ ∃ number < r.opened + 1, first.Succeeds number
      rw [Nat.exists_lt_succ_right]
      exact (or_iff_left fails).symm
    · simpa using fails

theorem Lives.obey {first r : Robot} (lives : Lives first r) (command : Command) :
    Lives first (r.obey command) := by
  by_cases create : command = .createGrid
  · subst create
    exact lives.createGrid.1
  · obtain ⟨after, same⟩ := r.exists_obey create
    rw [same]
    exact ⟨lives.windows, lives.result, lives.running, lives.created, lives.making⟩

/-- Whatever a new robot is told. -/
theorem Leads.lives {first r : Robot} (leads : first.Leads r) (new : first.IsNew) :
    Lives first r :=
  leads.keeps (Lives first) (fun _ command lives => lives.obey command) new.lives

/-! ## What stays so -/

theorem opened_createGrid (r : Robot) : r.createGrid.robot.opened = r.opened + 1 := by
  obtain ⟨file, ⟨-, answer⟩ | ⟨-, trouble, -, answer⟩⟩ := r.createGrid_cases <;> rw [answer]

theorem Leads.opened_le {r later : Robot} (leads : r.Leads later) : r.opened ≤ later.opened := by
  refine leads.keeps (fun other => r.opened ≤ other.opened) ?_ (Nat.le_refl _)
  intro other command le
  by_cases create : command = .createGrid
  · subst create
    exact Nat.le_trans le (Nat.le_of_lt (Nat.lt_of_succ_le (Nat.le_of_eq
      (opened_createGrid other).symm)))
  · obtain ⟨after, same⟩ := other.exists_obey create
    rwa [same]

/-- A robot that moves on its grid if it has one. -/
def Steady (r : Robot) : Prop :=
  r.running = r.gridCreated

theorem Leads.steady {r later : Robot} (leads : r.Leads later) (steady : r.Steady) :
    later.Steady := by
  refine leads.keeps Steady ?_ steady
  intro other command steady
  by_cases create : command = .createGrid
  · subst create
    obtain ⟨file, ⟨-, answer⟩ | ⟨-, trouble, -, answer⟩⟩ := other.createGrid_cases
    · rw [obey, answer]
      rfl
    · rw [obey, answer]
      exact steady
  · obtain ⟨after, same⟩ := other.exists_obey create
    rw [same]
    exact steady

/-! ## Moves -/

end Robot

namespace Grid

theorem refused_of_land {grid : Json} {row column : Nat} {heading : Int} {why : GridProblem}
    (refused : land grid row column heading = .ok (.refused why)) : why = .occupied := by
  obtain ⟨cells, -, refused⟩ := exists_of_bind_ok refused
  obtain ⟨target, -, refused⟩ := exists_of_bind_ok refused
  split at refused
  · cases refused
    rfl
  · split at refused
    · obtain ⟨_, -, refused⟩ := exists_of_bind_ok refused
      cases refused
    · split at refused <;>
      · obtain ⟨_, -, refused⟩ := exists_of_bind_ok refused
        cases refused

theorem refused_of_moveTurtle {grid steps : Json} {why : GridProblem}
    (refused : moveTurtle grid steps = .ok (.refused why)) :
    why = .outOfBounds ∨ why = .occupied := by
  unfold moveTurtle at refused
  obtain ⟨turtle?, -, refused⟩ := exists_of_bind_ok refused
  cases turtle? with
  | none => cases refused
  | some turtle =>
      dsimp only at refused
      generalize unitStep turtle.heading = unit at refused
      obtain ⟨count, -, refused⟩ := exists_of_bind_ok refused
      obtain ⟨rows, -, refused⟩ := exists_of_bind_ok refused
      obtain ⟨columns, -, refused⟩ := exists_of_bind_ok refused
      split at refused
      · cases refused
        exact .inl rfl
      · obtain ⟨cleared, -, refused⟩ := exists_of_bind_ok refused
        exact .inr (refused_of_land refused)

theorem failed_of_moveForward {file : File} {steps : Json} {why : GridProblem}
    (failed : (moveForward file steps).result = .failed why) :
    why = .outOfBounds ∨ why = .occupied ∨ why = .wall := by
  unfold moveForward at failed
  split at failed
  · cases failed
  · next read =>
      cases failed
      obtain ⟨grid, -, refused⟩ := exists_of_bind_ok read
      exact (refused_of_moveTurtle refused).imp_right .inl
  · next landing read =>
      cases landing <;> cases failed
      exact .inr (.inr rfl)
  · cases failed

end Grid

namespace Robot

/-- A command that is for a robot on a grid.  Without a grid it is refused and changes nothing; on a
grid, whatever else goes wrong, the grid is not what is missing. -/
structure IsMove {α : Type} (act : Robot → Answer α) : Prop where
  obeys : ∀ r, ∃ command, (act r).robot = r.obey command
  refused : ∀ r, r.running = false → r.gridCreated = false →
    act r = ⟨.error (.problem .notCreated), "", r⟩
  onGrid : ∀ r, r.running = true → ∀ what, (act r).result = .error (.problem what) →
    what ≠ .notCreated ∧ what ≠ .runnerClosed

theorem IsMove.not_runnerClosed {α : Type} {act : Robot → Answer α} (isMove : IsMove act)
    {r : Robot} (steady : r.Steady) : (act r).result ≠ .error (.problem .runnerClosed) := by
  cases running : r.running with
  | true => exact fun closed => (isMove.onGrid r running _ closed).2 rfl
  | false =>
      rw [isMove.refused r running (steady.symm.trans running)]
      exact nofun

theorem onGrid_of_running {α : Type} {r : Robot} (running : r.running = true)
    (act : Grid.File → Answer α) : r.onGrid act = act r.current :=
  if_pos running

theorem onGrid_of_idle {α : Type} {r : Robot} (idle : r.running = false)
    (noGrid : r.gridCreated = false) (act : Grid.File → Answer α) :
    r.onGrid act = ⟨.error (.problem .notCreated), "", r⟩ := by
  rw [onGrid, idle, noGrid]
  rfl

theorem isMove_moveForward : IsMove moveForward where
  obeys _ := ⟨.moveForward, rfl⟩
  refused r idle noGrid := onGrid_of_idle idle noGrid _
  onGrid := by
    intro r running what failed
    rw [moveForward, onGrid_of_running running] at failed
    dsimp only at failed
    split at failed <;> cases failed
    next refused =>
      obtain rfl | rfl | rfl := Grid.failed_of_moveForward refused <;> exact ⟨nofun, nofun⟩

theorem isMove_rotateLeft : IsMove rotateLeft where
  obeys _ := ⟨.rotateLeft, rfl⟩
  refused r idle noGrid := onGrid_of_idle idle noGrid _
  onGrid := by
    intro r running what failed
    rw [rotateLeft, onGrid_of_running running] at failed
    cases failed

theorem isMove_rotateRight : IsMove rotateRight where
  obeys _ := ⟨.rotateRight, rfl⟩
  refused r idle noGrid := onGrid_of_idle idle noGrid _
  onGrid := by
    intro r running what failed
    rw [rotateRight, onGrid_of_running running] at failed
    cases failed

theorem isMove_canMove (direction : String) : IsMove fun r => r.canMove direction where
  obeys _ := ⟨.canMove direction, rfl⟩
  refused r idle noGrid := onGrid_of_idle idle noGrid _
  onGrid := by
    intro r running what failed
    rw [canMove, onGrid_of_running running] at failed
    cases looked : Grid.canMove r.current (Json.ofString direction) with
    | ok free =>
        rw [looked] at failed
        cases failed
    | error fault =>
        rw [looked] at failed
        cases failed

end Robot
end Pseudocode
