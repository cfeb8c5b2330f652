import Pseudocode.Proofs.Evaluation.Interruption
import Pseudocode.Proofs.Evaluation.Reporting

/-!
# The robot in sessions

Programs tell the robot what to do from anywhere: in loops, in procedures and in scripts.  Whatever
they do, the robot changes by commands only, so at every moment of every session it has come to what
its windows have made of it.  A moment is a point of a run before a call of a built-in procedure, or
the end of the run.
-/

namespace Pseudocode

/-! ## Moments -/

namespace World

/-- Run a program with its own lines of input, up to a call that is paused at. -/
def runUntil (pause : Pause) (w : World) (source : Source) (input : List String) :
    Ending (Option Ref) × World :=
  Evaluator.runSource (evalUntil pause (limit source)) source
    { w with input := input, output := "" }

/-- Run programs one after another. -/
def session (w : World) (programs : List (Source × List String)) : World :=
  programs.foldl (fun w program => (w.runStep program.1 program.2).2) w

theorem interrupted_runUntil {w : World} (steady : w.robot.Steady) {pause last : Pause}
    (within : last.Within pause) (source : Source) (input : List String) :
    Interrupted w.robot (fun _ => Option.Rel Eq) (w.runUntil last source input)
      (w.runUntil pause source input) := by
  let entered : World := { w with input := input, output := "" }
  have runs : Accord.interruption.Runs source := trivial
  exact Accord.rel_runSource (Accord.evaluators_evalUntil within (limit source)) (b := false) runs
    entered entered ⟨rfl, rfl, steady⟩

theorem runStep_world (w : World) (source : Source) (input : List String) :
    (w.runStep source input).2 = (w.runUntil .never source input).2 := by
  rw [runStep, run, runWithin_world, runUntil, evalUntil_never]

theorem runUntil_of_error {w after : World} {source : Source} {input : List String}
    {d : Diagnostic} (failed : w.runStep source input = (.error d, after)) :
    w.runUntil .never source input = (.error d, after) := by
  rw [runUntil, evalUntil_never]
  exact runSource_of_error failed

theorem leads_runUntil {w : World} (steady : w.robot.Steady) (pause : Pause) (source : Source)
    (input : List String) : w.robot.Leads (w.runUntil pause source input).2.robot :=
  (interrupted_runUntil steady (.refl pause) source input).before

/-- A run that is given up is on the way to where the program gets. -/
theorem leads_runStep {w : World} (steady : w.robot.Steady) (pause : Pause) (source : Source)
    (input : List String) :
    (w.runUntil pause source input).2.robot.Leads (w.runStep source input).2.robot := by
  rw [runStep_world]
  exact (interrupted_runUntil steady (Pause.never_within pause) source input).after

theorem leads_session {w : World} (steady : w.robot.Steady)
    (programs : List (Source × List String)) : w.robot.Leads (w.session programs).robot := by
  induction programs generalizing w with
  | nil => exact .refl _
  | cons program programs ih =>
      obtain ⟨source, input⟩ := program
      have first : w.robot.Leads (w.runStep source input).2.robot := by
        rw [runStep_world]
        exact leads_runUntil steady .never source input
      exact first.trans (ih (first.steady steady))

end World

/-- A moment of a session: some programs have been run, and a further one has come to a call that is
paused at, or to its end. -/
structure Moment where
  /-- The programs that have been run, with their lines of input. -/
  done : List (Source × List String)
  /-- The program that is being run. -/
  source : Source
  /-- Its lines of input. -/
  input : List String
  /-- Where it has come to. -/
  pause : Pause

namespace Moment

/-- The world at a moment of the session that starts in a world. -/
def world (m : Moment) (w : World) : World :=
  ((w.session m.done).runUntil m.pause m.source m.input).2

/-- A moment comes before another one: in the run of the same program, which is paused at fewer
calls then, or in the run of an earlier program. -/
inductive Precedes (m : Moment) : Moment → Prop
  | sameRun (pause : Pause) (within : pause.Within m.pause) : Precedes m { m with pause := pause }
  | laterRun (between : List (Source × List String)) (source : Source) (input : List String)
      (pause : Pause) :
      Precedes m ⟨m.done ++ (m.source, m.input) :: between, source, input, pause⟩

theorem leads_world (m : Moment) {w : World} (steady : w.robot.Steady) :
    w.robot.Leads (m.world w).robot := by
  have done := World.leads_session steady m.done
  exact done.trans (World.leads_runUntil (done.steady steady) m.pause m.source m.input)

theorem Precedes.leads {m later : Moment} (precedes : m.Precedes later) {w : World}
    (steady : w.robot.Steady) : (m.world w).robot.Leads (later.world w).robot := by
  have done := (World.leads_session steady m.done).steady steady
  cases precedes with
  | sameRun pause within => exact (World.interrupted_runUntil done within m.source m.input).after
  | laterRun between source input pause =>
      have ends := World.leads_runStep done m.pause m.source m.input
      have rest := leads_world ⟨between, source, input, pause⟩
        ((m.leads_world steady).trans ends |>.steady steady)
      have unfolds : w.session (m.done ++ (m.source, m.input) :: between) =
          ((w.session m.done).runStep m.source m.input).2.session between := List.foldl_append
      change (m.world w).robot.Leads
        ((w.session (m.done ++ _ :: between)).runUntil pause source input).2.robot
      rw [unfolds]
      exact ends.trans rest

end Moment

/-! ## Calls -/

/-- A call that is for a robot on a grid, where the store tells what is asked for. -/
inductive Builtin.Steers (s : Store) : Builtin → List Ref → Prop
  | moveForward : Steers s .moveForward []
  | rotateLeft : Steers s .rotateLeft []
  | rotateRight : Steers s .rotateRight []
  | canMove (ref : Ref) (name : String) (isText : (s.object ref).datum = .text name)
      (isDirection : name ∈ directionNames) : Steers s .canMove [ref]

/-- What comes of something that is for a robot on a grid. -/
structure Steered {α : Type} (w : World) (o : Ending α × World) : Prop where
  obeyed : ∃ command, o.2.robot = w.robot.obey command
  refused : w.robot.gridCreated = false → ∃ span, o = (.error ⟨.grid .notCreated, span⟩, w)
  onGrid : w.robot.gridCreated = true → ∀ span, o.1 ≠ .error ⟨.grid .notCreated, span⟩
  spared : o.1.Spared

namespace Eval

variable {α β : Type} {w : World}

theorem steered_command {act : Robot → Robot.Answer α} (isMove : Robot.IsMove act)
    (span : Option Span) (steady : w.robot.Steady) : Steered w (command span act w) := by
  have refused (noGrid : w.robot.gridCreated = false) :
      command span act w = (.error ⟨.grid .notCreated, span⟩, w) := by
    unfold command
    rw [isMove.refused w.robot (steady.trans noGrid) noGrid]
    simp only [String.append_empty]
  refine ⟨?_, fun noGrid => ⟨span, refused noGrid⟩, ?_, ?_⟩
  · obtain ⟨order, obeyed⟩ := isMove.obeys w.robot
    exact ⟨order, (robot_command span act w).trans obeyed⟩
  · intro created other failed
    have result := result_of_command failed
    exact (isMove.onGrid w.robot (steady.trans created) _ result).1 rfl
  · intro other closed
    exact isMove.not_runnerClosed steady (result_of_command closed)

/-- Nothing more is said to the robot afterwards. -/
theorem steered_bind {e : Eval α} {next : α → Eval β} (steered : Steered w (e w))
    (still : ∀ a, (next a).Still) : Steered w ((e >>= next) w) := by
  change Steered w (Eval.bind e next w)
  unfold Eval.bind
  generalize e w = outcome at steered ⊢
  obtain ⟨ending, after⟩ := outcome
  obtain ⟨⟨command, obeyed⟩, refused, onGrid, spared⟩ := steered
  cases ending with
  | value a =>
      obtain ⟨unchanged, ordinary⟩ := still a after
      refine ⟨⟨command, unchanged.trans obeyed⟩, ?_, ?_, ordinary.spared⟩
      · intro noGrid
        obtain ⟨span, failed⟩ := refused noGrid
        cases failed
      · intro _ span failed
        rw [failed] at ordinary
        cases ordinary
  | error diagnostic =>
      refine ⟨⟨command, obeyed⟩, ?_, ?_, Ending.spared_error spared⟩
      · intro noGrid
        obtain ⟨span, failed⟩ := refused noGrid
        cases failed
        exact ⟨span, rfl⟩
      · intro created span failed
        cases failed
        exact onGrid created span rfl
  | signal | fault =>
      refine ⟨⟨command, obeyed⟩, ?_, nofun, nofun⟩
      intro noGrid
      obtain ⟨span, failed⟩ := refused noGrid
      cases failed

end Eval

namespace Builtin

variable (runSource : Source → Eval Unit) (site : Site) {w : World}

theorem steered_canMove {ref : Ref} {name : String} (steady : w.robot.Steady)
    (isText : (w.store.object ref).datum = .text name) (isDirection : name ∈ directionNames) :
    Steered w (canMove.perform runSource site [ref] w) := by
  have asked : canMove.perform runSource site [ref] w =
      (do
        let free ← Eval.command none fun robot => robot.canMove name
        Eval.fresh (Datum.truth free).object : Eval Ref) w := by
    have looked : Eval.object ref w = (.value (w.store.object ref), w) := rfl
    rw [perform, Eval.bind_of_value looked, isText]
    dsimp only
    rw [if_pos (List.contains_iff_mem.mpr isDirection)]
  rw [asked]
  exact Eval.steered_bind (Eval.steered_command (Robot.isMove_canMove name) none steady)
    fun _ => Eval.still_withStore _

theorem Steers.steered {builtin : Builtin} {arguments : List Ref}
    (steers : builtin.Steers w.store arguments) (steady : w.robot.Steady) :
    Steered w (builtin.perform runSource site arguments w) := by
  have order {act : Robot → Robot.Answer Unit} (isMove : Robot.IsMove act) :
      Steered w ((do Eval.command (some site.span) act; return Store.nullRef : Eval Ref) w) :=
    Eval.steered_bind (Eval.steered_command isMove _ steady) fun _ => Eval.still_pure _
  cases steers with
  | moveForward => exact order Robot.isMove_moveForward
  | rotateLeft => exact order Robot.isMove_rotateLeft
  | rotateRight => exact order Robot.isMove_rotateRight
  | canMove ref name isText isDirection =>
      exact steered_canMove runSource site steady isText isDirection

theorem robot_createGrid :
    (createGrid.perform runSource site [] w).2.robot = w.robot.createGrid.robot := by
  change (Eval.bind (Eval.command (some site.span) Robot.createGrid) _ w).2.robot = _
  rw [← Eval.robot_command (some site.span) Robot.createGrid w]
  unfold Eval.bind
  generalize Eval.command (some site.span) Robot.createGrid w = outcome
  obtain ⟨ending, after⟩ := outcome
  cases ending <;> rfl

theorem value_createGrid_iff :
    (∃ ref, (createGrid.perform runSource site [] w).1 = .value ref) ↔
      w.robot.createGrid.result = .ok () := by
  change (∃ ref, (Eval.bind (Eval.command (some site.span) _) _ w).1 = .value ref) ↔ _
  unfold Eval.bind Eval.command
  dsimp only
  cases w.robot.createGrid.result with
  | ok done => exact ⟨fun _ => rfl, fun _ => ⟨Store.nullRef, rfl⟩⟩
  | error trouble =>
      cases trouble with
      | problem what => exact ⟨fun ⟨_, ended⟩ => (nomatch ended), nofun⟩
      | fault fault => exact ⟨fun ⟨_, ended⟩ => (nomatch ended), nofun⟩

end Builtin

/-! ## Whole sessions -/

/-- What a robot that was once new has come to in a world, and what calls to it come to there. -/
structure Robot.Serves (first : Robot) (w : World) : Prop where
  lives : Lives first w.robot
  /-- A grid is asked for in the next window, and the call succeeds if this window does. -/
  creates : ∀ runSource site,
    Lives first (Builtin.createGrid.perform runSource site [] w).2.robot ∧
    (Builtin.createGrid.perform runSource site [] w).2.robot.opened = w.robot.opened + 1 ∧
    ((∃ ref, (Builtin.createGrid.perform runSource site [] w).1 = .value ref) ↔
      first.Succeeds w.robot.opened)
  /-- Calls for a robot on a grid are refused exactly as long as no window has succeeded, and then
  they change nothing. -/
  steers : ∀ runSource site (builtin : Builtin) arguments, builtin.Steers w.store arguments →
    Lives first (builtin.perform runSource site arguments w).2.robot ∧
    ((∃ span, (builtin.perform runSource site arguments w).1 = .error ⟨.grid .notCreated, span⟩) ↔
      ∀ number < w.robot.opened, ¬ first.Succeeds number) ∧
    ((∀ number < w.robot.opened, ¬ first.Succeeds number) →
      (builtin.perform runSource site arguments w).2 = w) ∧
    (builtin.perform runSource site arguments w).1.Spared

theorem Robot.Lives.serves {first : Robot} {w : World} (lives : Lives first w.robot) :
    first.Serves w where
  lives := lives
  creates runSource site := by
    obtain ⟨created, succeeds⟩ := lives.createGrid
    rw [Builtin.value_createGrid_iff, Builtin.robot_createGrid]
    exact ⟨created, opened_createGrid w.robot, succeeds⟩
  steers runSource site builtin arguments steers := by
    obtain ⟨⟨command, obeyed⟩, refused, onGrid, spared⟩ :=
      steers.steered runSource site lives.running
    have noGrid : w.robot.gridCreated = false ↔
        ∀ number < w.robot.opened, ¬ first.Succeeds number := by
      rw [← Bool.not_eq_true, lives.created]
      simp only [not_exists, not_and]
    rw [← noGrid]
    refine ⟨obeyed ▸ lives.obey command, ⟨?_, ?_⟩, ?_, spared⟩
    · rintro ⟨span, failed⟩
      exact Bool.eq_false_iff.mpr fun created => onGrid created span failed
    · intro idle
      obtain ⟨span, failed⟩ := refused idle
      exact ⟨span, congrArg Prod.fst failed⟩
    · intro idle
      obtain ⟨span, failed⟩ := refused idle
      exact congrArg Prod.snd failed

theorem Robot.IsNew.steady {first : Robot} (new : first.IsNew) : first.Steady :=
  new.lives.running

theorem Moment.serves (m : Moment) {w : World} (new : w.robot.IsNew) :
    w.robot.Serves (m.world w) :=
  ((m.leads_world new.steady).lives new).serves

/-- In every session of a new robot, whatever its windows do and whatever the programs are, at every
moment: the robot moves on a grid as soon as a window has succeeded, and from then on; a grid is
being made exactly if the latest window did not succeed; and calls for a robot on a grid are
refused, without any change, exactly as long as no window has succeeded.  That the grid was closed
is never the complaint, neither of a call nor of a program. -/
theorem World.robot_lifeCycle (scripts : Scripts) (generator : StdGen) {first : Robot}
    (new : first.IsNew) (m : Moment) :
    first.Serves (m.world (start first scripts generator)) ∧
    (∀ later, m.Precedes later →
      (m.world (start first scripts generator)).robot.opened ≤
        (later.world (start first scripts generator)).robot.opened ∧
      ((m.world (start first scripts generator)).robot.gridCreated = true →
        (later.world (start first scripts generator)).robot.gridCreated = true)) ∧
    ∀ span after, ((start first scripts generator).session m.done).runStep m.source m.input ≠
      (.error ⟨.grid .runnerClosed, span⟩, after) := by
  have begun : (start first scripts generator).robot.IsNew := new
  have serves := m.serves begun
  refine ⟨serves, ?_, ?_⟩
  · intro later precedes
    have opened := (precedes.leads begun.steady).opened_le
    refine ⟨opened, fun created => ?_⟩
    obtain ⟨number, before, succeeds⟩ := serves.lives.created.mp created
    exact (later.serves begun).lives.created.mpr
      ⟨number, Nat.lt_of_lt_of_le before opened, succeeds⟩
  · intro span after closed
    have steady := (leads_session begun.steady m.done).steady begun.steady
    have spared := (interrupted_runUntil steady (.refl .never) m.source m.input).spared
    rw [runUntil_of_error closed] at spared
    exact spared span rfl

/-- A robot whose first window is closed and whose second one leaves a grid. -/
def Robot.closedOnce : Robot :=
  { windows := [.close, .confirm ""] }

/-- A program that asks for a grid has failed, and the next one is about to ask again. -/
def Moment.secondTry : Moment where
  done := [(⟨"", "CREATE_GRID()"⟩, [])]
  source := ⟨"", "CREATE_GRID()\nROTATE_LEFT()"⟩
  input := []
  pause := fun builtin _ _ => builtin = .createGrid || builtin = .rotateLeft

/-- The robot is about to turn on its grid. -/
def Moment.firstTurn : Moment :=
  { secondTry with pause := fun builtin _ _ => builtin = .rotateLeft }

theorem Moment.secondTry_precedes : secondTry.Precedes firstTurn :=
  .sameRun _ fun _ _ _ turns => (Bool.or_eq_true _ _).mpr (.inr turns)

theorem World.robot_lifeCycle_closedOnce :
    Robot.closedOnce.IsNew ∧
    (Moment.secondTry.world (start .closedOnce [] (mkStdGen 0))).robot.opened = 1 ∧
    Robot.closedOnce.Serves (Moment.secondTry.world (start .closedOnce [] (mkStdGen 0))) ∧
    (Moment.firstTurn.world (start .closedOnce [] (mkStdGen 0))).robot.gridCreated = true ∧
    (Moment.secondTry.world (start .closedOnce [] (mkStdGen 0))).robot.opened ≤
      (Moment.firstTurn.world (start .closedOnce [] (mkStdGen 0))).robot.opened := by
  have new : Robot.closedOnce.IsNew := ⟨rfl, rfl, rfl, rfl⟩
  obtain ⟨serves, later, -⟩ := robot_lifeCycle [] (mkStdGen 0) new .secondTry
  exact ⟨new, by decide +kernel, serves, by decide +kernel, (later _ Moment.secondTry_precedes).1⟩

end Pseudocode
