import Pseudocode.Proofs.Evaluation.Places
import Pseudocode.Proofs.Evaluation.Traversal
import Pseudocode.Proofs.Robot.LifeCycle

/-!
# Interrupted runs

A run can be looked at before any call of a built-in procedure, in the world in which the procedure
would do its work: a second run goes along with it and gives up there.  The robot in that world is
on its way to what the first run makes of it, and the first run never ends with the complaint that
the grid was closed.
-/

namespace Pseudocode

/-- Before which calls of built-in procedures a run is given up. -/
abbrev Pause : Type :=
  Builtin → List Ref → World → Bool

/-- A run that goes on to its end. -/
def Pause.never : Pause :=
  fun _ _ _ => false

/-- A run that is given up, if at all, before calls before which another one is given up. -/
def Pause.Within (last pause : Pause) : Prop :=
  ∀ builtin refs w, last builtin refs w = true → pause builtin refs w = true

theorem Pause.Within.refl (pause : Pause) : pause.Within pause :=
  fun _ _ _ paused => paused

theorem Pause.never_within (pause : Pause) : never.Within pause :=
  fun _ _ _ paused => absurd paused Bool.false_ne_true

/-- Evaluate, unless the world is one to give up in. -/
def Eval.giveUpIf {α : Type} (stops : World → Bool) (e : Eval α) : Eval α :=
  fun w => if stops w then (.fault .exhausted, w) else e w

namespace Evaluator

/-- Start a value as `invoke` does, but give up before a call that is paused at. -/
def invokeUntil (self : Evaluator) (pause : Pause) (callee : Object) (arguments : List Ref)
    (span : Span) : Eval Ref :=
  match callee.datum with
  | .builtin builtin => do
      let frame ← enter callee builtin.name builtin.parameters arguments span
      Eval.giveUpIf (pause builtin arguments)
        (builtin.perform (fun source => discard (self.runSource source)) ⟨span, frame⟩ arguments)
  | _ => self.invoke callee arguments span

/-- Call the value of a node as `call` does, but give up before a call that is paused at. -/
def callUntil (self : Evaluator) (pause : Pause) (callee : Node) (arguments : List Node)
    (span : Span) (frame : Frame) : Eval Ref := do
  let calleeRef ← self callee frame
  let calleeObject ← Eval.object calleeRef
  let argumentRefs ← self.all frame arguments
  let result ← self.invokeUntil pause calleeObject argumentRefs span
  Eval.takenOver result span frame

/-- Evaluate a node as `step` does, but give up before a call that is paused at. -/
def stepUntil (self : Evaluator) (pause : Pause) (fuel : Nat) (node : Node) (frame : Frame) :
    Eval Ref :=
  match node with
  | .call callee arguments span => self.callUntil pause callee arguments span frame
  | _ => self.step fuel node frame

theorem invokeUntil_never (self : Evaluator) :
    self.invokeUntil .never = self.invoke := by
  funext callee arguments span
  obtain ⟨datum, place, owner⟩ := callee
  cases datum <;> rfl

theorem stepUntil_never (self : Evaluator) :
    self.stepUntil .never = self.step := by
  funext fuel node frame
  cases node with
  | call callee arguments span =>
      rw [stepUntil, callUntil, invokeUntil_never]
      rfl
  | _ => rfl

end Evaluator

/-- Evaluate a node as `eval` does, but give up before a call that is paused at. -/
def evalUntil (pause : Pause) : Nat → Node → Frame → World → Ending Ref × World
  | 0, _, _, w => (.fault .exhausted, w)
  | fuel + 1, node, frame, w =>
      Evaluator.stepUntil (fun node frame w => evalUntil pause fuel node frame w) pause fuel node
        frame w

theorem evalUntil_never (fuel : Nat) : evalUntil .never fuel = eval fuel := by
  induction fuel with
  | zero => rfl
  | succ fuel ih =>
      funext node frame w
      let inner : Evaluator := evalUntil .never fuel
      have same : inner = eval fuel := ih
      change inner.stepUntil .never fuel node frame w = Evaluator.step (eval fuel) fuel node frame w
      rw [Evaluator.stepUntil_never, same]

/-! ## Evaluations that leave the robot alone -/

/-- Whether a problem is one of the robot. -/
def Problem.isGrid : Problem → Bool
  | .grid _ => true
  | _ => false

theorem Problem.isGrid_of_isTextual {problem : Problem} (textual : problem.isTextual = true) :
    problem.isGrid = false := by
  cases problem <;> first | rfl | cases textual

/-- An ending without a problem of the robot. -/
def Ending.Ordinary {α : Type} : Ending α → Prop
  | .error diagnostic => diagnostic.problem.isGrid = false
  | _ => True

/-- A reason to stop that is no problem of the robot. -/
def Stop.Ordinary : Stop → Prop
  | .error diagnostic => diagnostic.problem.isGrid = false
  | .fault _ => True

theorem Stop.Early.ordinary {stop : Stop} (early : stop.Early) : stop.Ordinary := by
  cases stop with
  | error diagnostic => exact Problem.isGrid_of_isTextual (Diagnostic.Early.textual early)
  | fault fault => trivial

theorem Store.ordinary_refuse (left right : Object) (refusal : Refusal) :
    (refuse left right refusal).Ordinary := by
  cases refusal <;> first | rfl | trivial

theorem Store.ordinary_binary {s : Store} {op : BinaryOp} {left right : Ref} {stop : Stop}
    (stopped : (s.binary op left right).1 = .error stop) : stop.Ordinary := by
  obtain ⟨refusal, -, rfl⟩ := refused_of_binary stopped
  exact ordinary_refuse _ _ refusal

theorem Store.ordinary_negate {s : Store} {ref : Ref} {stop : Stop}
    (stopped : (s.negate ref).1 = .error stop) : stop.Ordinary := by
  unfold negate at stopped
  dsimp only at stopped
  split at stopped <;> cases stopped
  exact ordinary_refuse _ _ _

namespace Eval

variable {α β : Type}

/-- An evaluation that leaves the robot alone and reports no problem of it. -/
def Still (e : Eval α) : Prop :=
  ∀ w : World, (e w).2.robot = w.robot ∧ (e w).1.Ordinary

theorem still_pure (result : α) : (pure result : Eval α).Still :=
  fun _ => ⟨rfl, trivial⟩

theorem still_bind {e : Eval α} {k : α → Eval β} (first : e.Still) (rest : ∀ a, (k a).Still) :
    (e >>= k).Still := by
  intro w
  obtain ⟨unchanged, ordinary⟩ := first w
  change (Eval.bind e k w).2.robot = _ ∧ (Eval.bind e k w).1.Ordinary
  unfold Eval.bind
  generalize e w = outcome at unchanged ordinary ⊢
  obtain ⟨ending, after⟩ := outcome
  cases ending with
  | value a =>
      obtain ⟨still, last⟩ := rest a after
      exact ⟨still.trans unchanged, last⟩
  | signal | error | fault => exact ⟨unchanged, ordinary⟩

theorem still_send (signal : Signal) : (send signal : Eval α).Still :=
  fun _ => ⟨rfl, trivial⟩

theorem still_fail (problem : RuntimeProblem) (frame : Option Frame) (span : Option Span) :
    (fail problem frame span : Eval α).Still :=
  fun _ => ⟨rfl, rfl⟩

theorem still_abort (fault : Fault) : (abort fault : Eval α).Still :=
  fun _ => ⟨rfl, trivial⟩

theorem still_halt {stop : Stop} (ordinary : stop.Ordinary) : (halt stop : Eval α).Still := by
  cases stop with
  | error diagnostic => exact fun _ => ⟨rfl, ordinary⟩
  | fault fault => exact still_abort fault

theorem still_ofExcept (result : Except Fault α) : (ofExcept result).Still := by
  cases result with
  | ok value => exact still_pure value
  | error fault => exact still_abort fault

theorem still_withStore (work : Store → α × Store) : (withStore work).Still :=
  fun _ => ⟨rfl, trivial⟩

theorem still_modifyStore (change : Store → Store) : (modifyStore change).Still :=
  fun _ => ⟨rfl, trivial⟩

theorem still_fromStore (view : Store → α) : (fromStore view).Still :=
  fun _ => ⟨rfl, trivial⟩

theorem still_tryStore {work : Store → Except Stop α × Store}
    (ordinary : ∀ s stop, (work s).1 = .error stop → stop.Ordinary) : (tryStore work).Still := by
  intro w
  have worked : withStore work w =
      (.value (work w.store).1, { w with store := (work w.store).2 }) := rfl
  change ((withStore work >>= _) w).2.robot = _ ∧ ((withStore work >>= _) w).1.Ordinary
  rw [bind_of_value worked]
  cases result : (work w.store).1 with
  | ok value => exact ⟨rfl, trivial⟩
  | error stop => exact still_halt (ordinary w.store stop result) _

theorem still_located (ref : Ref) (span : Span) : (located ref span).Still :=
  still_bind (still_modifyStore _) fun _ => still_pure ref

theorem still_takenOver (ref : Ref) (span : Span) (frame : Frame) :
    (takenOver ref span frame).Still := by
  have copied : (copied ref).Still := still_bind (still_withStore _) still_ofExcept
  exact still_bind copied fun copy => still_bind (still_modifyStore _) fun _ => still_pure copy

theorem still_access (name : Name) (frame : Frame) : (Evaluator.access name frame).Still := by
  apply still_bind (still_fromStore _)
  intro found
  cases found with
  | some ref => exact still_takenOver ref name.span frame
  | none => exact still_fail _ _ _

theorem still_print (text : String) : (print text).Still :=
  fun _ => ⟨rfl, trivial⟩

theorem still_readLine : readLine.Still := by
  intro w
  unfold readLine
  split <;> exact ⟨rfl, trivial⟩

theorem still_draw (low high : Number) : (draw low high).Still := by
  intro w
  unfold draw
  split <;> exact ⟨rfl, trivial⟩

theorem still_scripts : Still (fun w => (.value w.scripts, w) : Eval Scripts) :=
  fun _ => ⟨rfl, trivial⟩

end Eval

/-! ## Runs that are given up -/

/-- An ending without the complaint that the grid was closed. -/
def Ending.Spared {α : Type} (ending : Ending α) : Prop :=
  ∀ span, ending ≠ .error ⟨.grid .runnerClosed, span⟩

theorem Ending.Ordinary.spared {α : Type} {ending : Ending α} (ordinary : ending.Ordinary) :
    ending.Spared := by
  rintro span rfl
  cases ordinary

theorem Ending.spared_error {α β : Type} {diagnostic : Diagnostic}
    (spared : (Ending.error diagnostic : Ending α).Spared) :
    (Ending.error diagnostic : Ending β).Spared := by
  rintro span closed
  cases closed
  exact spared span rfl

/-- A run to its end, and that run as it may have been given up, from a world with this robot.  If
it was not, their results answer to each other. -/
structure Interrupted {α : Type} (r : Robot) (R : Robot → α → α → Prop) (o p : Ending α × World) :
    Prop where
  before : r.Leads p.2.robot
  after : p.2.robot.Leads o.2.robot
  spared : o.1.Spared
  outcome : ∃ ending, Ending.Paired (R o.2.robot) Eq Eq o.1 ending ∧
    (p = (ending, o.2) ∨ p.1 = .fault .exhausted)

namespace Interrupted

variable {α β : Type} {r : Robot} {R : Robot → α → α → Prop} {S : Robot → β → β → Prop}

theorem now {ending ending' : Ending α} {w : World} (leads : r.Leads w.robot)
    (spared : ending.Spared) (paired : Ending.Paired (R w.robot) Eq Eq ending ending') :
    Interrupted r R (ending, w) (ending', w) :=
  ⟨leads, .refl _, spared, ending', paired, .inl rfl⟩

/-- Handlers leave the giving up of a run alone and go on from every other ending. -/
theorem handled {o p : Ending α × World} (interrupted : Interrupted r R o p) (steady : r.Steady)
    (handle handle' : Ending α × World → Ending β × World)
    (passes : ∀ last, handle' (.fault .exhausted, last) = (.fault .exhausted, last))
    (continues : ∀ ending ending' last, ending.Spared → r.Leads last.robot → last.robot.Steady →
      Ending.Paired (R last.robot) Eq Eq ending ending' →
      Interrupted last.robot S (handle (ending, last)) (handle' (ending', last))) :
    Interrupted r S (handle o) (handle' p) := by
  obtain ⟨before, after, spared, ending, paired, outcome⟩ := interrupted
  have leads := before.trans after
  have rest := continues o.1 ending o.2 spared leads (leads.steady steady) paired
  obtain rfl | givenUp := outcome
  · exact ⟨before.trans rest.before, rest.after, rest.spared, rest.outcome⟩
  · obtain ⟨ending', last⟩ := p
    cases givenUp
    rw [passes]
    obtain ⟨final, paired, _⟩ := rest.outcome
    exact ⟨before, after.trans (rest.before.trans rest.after), rest.spared, final, paired, .inr rfl⟩

/-- Handlers that pass errors and faults on only have to go on from values and signals. -/
theorem passed {o p : Ending α × World} (interrupted : Interrupted r R o p) (steady : r.Steady)
    {handle handle' : Ending α × World → Ending β × World} (passes : Ending.Passes handle)
    (passes' : Ending.Passes handle')
    (values : ∀ a a' last, r.Leads last.robot → last.robot.Steady → R last.robot a a' →
      Interrupted last.robot S (handle (.value a, last)) (handle' (.value a', last)))
    (signals : ∀ signal last,
      Interrupted last.robot S (handle (.signal signal, last)) (handle' (.signal signal, last))) :
    Interrupted r S (handle o) (handle' p) := by
  apply interrupted.handled steady handle handle' (passes'.fault _)
  intro ending ending' last spared leads steady paired
  cases paired with
  | value results => exact values _ _ last leads steady results
  | signal same => exact same ▸ signals _ last
  | error same =>
      rw [passes.error, passes'.error]
      exact .now (.refl _) (Ending.spared_error spared) (.error same)
  | fault fault =>
      rw [passes.fault, passes'.fault]
      exact .now (.refl _) nofun (.fault fault)

end Interrupted

/-- The comparison of a run with one that may be given up earlier.  It is linked by the robot in the
world that the runs have come to. -/
def Comparison.interrupting : Comparison where
  Link := Robot
  Extends := Robot.Leads
  Nodes _ := Eq
  Spans := Eq
  Refs _ := Eq
  Values _ := Eq
  Storages _ := Eq
  Owners _ := Eq
  Entries _ := Eq
  Frames _ := Eq
  Bounds := Eq
  Runs _ := True
  Worlds r w v := w = v ∧ w.robot = r ∧ r.Steady
  Outcomes _ := Interrupted
  barred _ _ _ := false

namespace Eval

open Comparison

variable {α β : Type} {b : Bool} {r : Robot} {R : Robot → α → α → Prop}

theorem interrupting_of_still {e : Eval α} (still : e.Still)
    (related : ∀ last w a, (e w).1 = .value a → R last a a) : interrupting.Rel b r R e e := by
  rintro w _ ⟨rfl, rfl, -⟩
  obtain ⟨unchanged, ordinary⟩ := still w
  exact .now (unchanged ▸ .refl _) ordinary.spared (.refl (related _ w))

theorem interrupting_same {e : Eval α} (still : e.Still) :
    interrupting.Rel b r interrupting.Same e e :=
  interrupting_of_still still fun _ _ _ _ => rfl

theorem interrupting_ended {e : Eval α} (still : e.Still) (ended : ∀ w a, (e w).1 ≠ .value a) :
    interrupting.Rel b r R e e :=
  interrupting_of_still still fun _ w a value => absurd value (ended w a)

theorem interrupting_bind {S : Robot → β → β → Prop} {e f : Eval α} {k l : α → Eval β}
    (first : interrupting.Rel b r R e f)
    (rest : ∀ later a a', r.Leads later → R later a a' →
      interrupting.Rel b later S (k a) (l a')) :
    interrupting.Rel b r S (e >>= k) (f >>= l) := by
  rintro w _ ⟨rfl, rfl, steady⟩
  apply (first w w ⟨rfl, rfl, steady⟩).passed steady (passes_bind w k) (passes_bind w l)
  · intro a a' last leads steady related
    exact rest _ a a' leads related last last ⟨rfl, rfl, steady⟩
  · intro signal last
    exact .now (.refl _) nofun (.signal rfl)

theorem interrupting_callBody {e f : Eval α} (bodies : interrupting.Rel false r R e f) :
    interrupting.Rel b r interrupting.Refs (callBody e) (callBody f) := by
  rintro w _ ⟨rfl, rfl, steady⟩
  apply (bodies w w ⟨rfl, rfl, steady⟩).passed steady (passes_callBody w) (passes_callBody w)
  · intro a a' last _ _ _
    exact .now (.refl _) nofun (.value rfl)
  · intro signal last
    cases signal with
    | returning result => exact .now (.refl _) nofun (.value rfl)
    | breaking | continuing => exact .now (.refl _) nofun (.signal rfl)

theorem interrupting_round {e f : Eval α} (bodies : interrupting.Rel true r R e f) :
    interrupting.Rel b r interrupting.Same (round e) (round f) := by
  rintro w _ ⟨rfl, rfl, steady⟩
  apply (bodies w w ⟨rfl, rfl, steady⟩).passed steady (passes_round w) (passes_round w)
  · intro a a' last _ _ _
    exact .now (.refl _) nofun (.value rfl)
  · intro signal last
    cases signal with
    | returning result => exact .now (.refl _) nofun (.signal rfl)
    | breaking | continuing => exact .now (.refl _) nofun (.value rfl)

theorem interrupting_program {e f : Eval α} (bodies : interrupting.Rel true r R e f) :
    interrupting.Rel b r (fun later => Option.Rel (R later)) (program e) (program f) := by
  rintro w _ ⟨rfl, rfl, steady⟩
  apply (bodies w w ⟨rfl, rfl, steady⟩).passed steady (passes_program w) (passes_program w)
  · intro a a' last _ _ related
    exact .now (.refl _) nofun (.value (.some related))
  · intro signal last
    exact .now (.refl _) nofun (.value .none)

/-- The error of a script is reported as one of the call that runs it. -/
theorem interrupting_runScript {R : Robot → Unit → Unit → Prop} {e f : Eval Unit} (site : Site)
    (name : String) (scripts : interrupting.Rel b r R e f) :
    interrupting.Rel b r R (Builtin.runScript site name e) (Builtin.runScript site name f) := by
  rintro w _ ⟨rfl, rfl, steady⟩
  refine (scripts w w ⟨rfl, rfl, steady⟩).handled steady
    (fun o => Builtin.runScript site name (fun _ => o) w)
    (fun o => Builtin.runScript site name (fun _ => o) w) (fun _ => rfl) ?_
  intro ending ending' last _ _ _ paired
  cases paired with
  | value results => exact .now (.refl _) nofun (.value results)
  | signal same => exact .now (.refl _) nofun (.signal same)
  | fault fault => exact .now (.refl _) nofun (.fault fault)
  | error same =>
      cases same
      dsimp only [Builtin.runScript]
      split
      · exact .now (.refl _) nofun (.error rfl)
      · exact .now (.refl _) nofun (.fault _)

theorem interrupting_giveUpIf {e f : Eval α} {stops later : World → Bool}
    (earlier : ∀ w, later w = true → stops w = true) (rel : interrupting.Rel b r R e f) :
    interrupting.Rel b r R (giveUpIf later e) (giveUpIf stops f) := by
  rintro w _ ⟨rfl, rfl, steady⟩
  have interrupted := rel w w ⟨rfl, rfl, steady⟩
  unfold giveUpIf
  cases stopped : stops w with
  | true =>
      cases later w with
      | true => exact .now (.refl _) nofun (.fault _)
      | false =>
          obtain ⟨before, after, spared, ending, paired, _⟩ := interrupted
          exact ⟨.refl _, before.trans after, spared, ending, paired, .inr rfl⟩
  | false =>
      have runs : later w = false :=
        Bool.eq_false_iff.mpr fun last => Bool.false_ne_true (stopped ▸ earlier w last)
      rw [runs]
      exact interrupted

theorem robot_command (span : Option Span) (act : Robot → Robot.Answer α) (w : World) :
    (command span act w).2.robot = (act w.robot).robot := by
  unfold command
  dsimp only
  split <;> rfl

theorem result_of_command {span other : Option Span} {act : Robot → Robot.Answer α} {w : World}
    {what : GridProblem} (failed : (command span act w).1 = .error ⟨.grid what, other⟩) :
    (act w.robot).result = .error (.problem what) := by
  unfold command at failed
  dsimp only at failed
  split at failed <;> cases failed
  assumption

theorem interrupting_command {act : Robot → Robot.Answer α} (span : Option Span)
    (obeys : ∀ r, ∃ command, (act r).robot = r.obey command)
    (kind : ∀ r, r.Steady → (act r).result ≠ .error (.problem .runnerClosed)) :
    interrupting.Rel b r interrupting.Same (command span act) (command span act) := by
  rintro w _ ⟨rfl, rfl, steady⟩
  obtain ⟨order, obeyed⟩ := obeys w.robot
  have leads : w.robot.Leads (command span act w).2.robot := by
    rw [robot_command, obeyed]
    exact Robot.leads_obey _ order
  exact .now leads (fun _ closed => kind w.robot steady (result_of_command closed))
    (.refl fun _ _ => rfl)

theorem interrupting_order {act : Robot → Robot.Answer Unit} (isOrder : Robot.IsOrder act)
    (span : Option Span) :
    interrupting.Rel b r interrupting.Same (command span act) (command span act) := by
  have moves {act : Robot → Robot.Answer Unit} (isMove : Robot.IsMove act) :
      interrupting.Rel b r interrupting.Same (command span act) (command span act) :=
    interrupting_command span isMove.obeys fun _ steady => isMove.not_runnerClosed steady
  cases isOrder with
  | createGrid =>
      refine interrupting_command span (fun _ => ⟨.createGrid, rfl⟩) fun r _ closed => ?_
      obtain ⟨file, ⟨-, answer⟩ | ⟨-, trouble, rfl | rfl, answer⟩⟩ := r.createGrid_cases <;>
      · rw [answer] at closed
        cases closed
  | moveForward => exact moves Robot.isMove_moveForward
  | rotateLeft => exact moves Robot.isMove_rotateLeft
  | rotateRight => exact moves Robot.isMove_rotateRight

end Eval

namespace Accord

open Comparison Eval

/-- Interruption goes through all that evaluations are made of. -/
def interruption : Accord where
  toComparison := interrupting
  extends_refl := .refl
  extends_trans := .trans
  refs_mono _ same := same
  values_mono _ same := same
  storages_mono _ same := same
  owners_mono _ same := same
  frames_mono _ same := same
  refs_of_values same := same
  owners_of_frames same := same
  entries_of_frames same := same
  spans_of_nodes same := congrArg Node.span same
  shapes_of_nodes same := same ▸ .refl (fun _ => rfl) (fun _ => rfl) _
  nodes_of_runs _ _ := rfl
  bounds_succ same := ⟨_, same, rfl⟩
  rel_pure related _ _ worlds := by
    obtain ⟨rfl, rfl, -⟩ := worlds
    exact .now (.refl _) nofun (.value related)
  rel_bind := interrupting_bind
  rel_abort fault := interrupting_ended (still_abort fault) fun _ _ => nofun
  rel_exhausted bounds zero := by
    cases bounds
    rw [zero]
    exact interrupting_ended (still_abort _) fun _ _ => nofun
  rel_early {_ _ _ _ stop} early := by
    refine interrupting_ended (still_halt early.ordinary) fun _ _ ended => ?_
    cases stop <;> cases ended
  rel_fail what owners spans := by
    cases owners
    cases spans
    exact interrupting_ended (still_fail _ _ _) fun _ _ => nofun
  rel_return refs := by
    cases refs
    exact interrupting_ended (still_send _) fun _ _ => nofun
  rel_break _ := interrupting_ended (still_send _) fun _ _ => nofun
  rel_continue _ := interrupting_ended (still_send _) fun _ _ => nofun
  rel_callBody := interrupting_callBody
  rel_round := interrupting_round
  rel_program bodies := interrupting_program (bodies rfl)
  rel_runScript name scripts frames spans := by
    cases frames
    cases spans
    exact interrupting_runScript _ name scripts
  rel_null := interrupting_same (still_pure _)
  rel_fresh objects _ _ := by
    cases objects.eq
    exact interrupting_same (still_withStore _)
  rel_answer _ := interrupting_same (still_withStore _)
  rel_object refs := by
    cases refs
    refine interrupting_of_still (still_fromStore _) fun _ _ _ _ => ?_
    exact .refl (.refl (fun _ => rfl) fun _ _ => rfl) (fun _ => rfl) fun _ => rfl
  rel_takenOver refs spans owners := by
    cases refs
    cases spans
    cases owners
    exact interrupting_same (still_takenOver _ _ _)
  outcomes_access {_ _ x y f _ w v} texts spans frames worlds _ := by
    obtain ⟨text, span⟩ := x
    obtain ⟨text', span'⟩ := y
    cases texts
    cases spans
    cases frames
    exact interrupting_same (still_access _ f) w v worlds
  rel_bindName name frames refs := by
    cases frames
    cases refs
    exact interrupting_same (still_modifyStore _)
  rel_allocStorage lists := by
    cases Pairing.eq_of_forall₂ lists fun _ _ => id
    exact interrupting_same (still_withStore _)
  rel_elements storages := by
    cases storages
    refine interrupting_of_still (still_fromStore _) fun _ _ _ _ => ?_
    exact List.forall₂_same.mpr fun _ _ => rfl
  rel_updateElements {_ r _ _ f g} storages changes := by
    cases storages
    have same : f = g := by
      funext xs
      have lists := changes r xs xs (.refl r) (List.forall₂_same.mpr fun _ _ => rfl)
      exact lists.eq fun _ _ => id
    cases same
    exact interrupting_same (still_modifyStore _)
  rel_snapshot refs := by
    cases refs
    exact interrupting_same (still_fromStore _)
  rel_pushScope name owners spans := by
    cases owners
    cases spans
    exact interrupting_of_still (still_withStore _) fun _ _ _ _ => rfl
  rel_bindArguments names frames lists := by
    cases frames
    cases Pairing.eq_of_forall₂ lists fun _ _ => id
    exact interrupting_same (still_modifyStore _)
  rel_print text := interrupting_same (still_print text)
  rel_readLine := interrupting_same still_readLine
  rel_draw low high := interrupting_same (still_draw low high)
  rel_order isOrder spans := by
    cases spans
    exact interrupting_order isOrder _
  rel_scripts :=
    interrupting_of_still still_scripts fun _ _ _ _ => ⟨rfl, fun _ _ _ => trivial⟩

theorem interruption_plain : interruption.Plain where
  located refs spans := by
    cases refs
    cases spans
    exact interrupting_same (still_located _ _)
  operation op lefts rights := by
    cases lefts
    cases rights
    exact interrupting_same (still_tryStore fun _ _ stopped => Store.ordinary_binary stopped)
  negation refs := by
    cases refs
    exact interrupting_same (still_tryStore fun _ _ stopped => Store.ordinary_negate stopped)
  question direction :=
    have isMove := Robot.isMove_canMove direction
    interrupting_command none isMove.obeys fun _ steady => isMove.not_runnerClosed steady

/-! ## Programs -/

variable {self self' : Evaluator} {pause last : Pause} {b : Bool} {r : Robot}

theorem rel_invokeUntil (agree : interruption.Evaluators self self') (within : last.Within pause)
    {callee callee' : Object} {refs refs' : List Ref}
    (objects : interruption.Objects r callee callee') (lists : interruption.RefLists r refs refs')
    (span : Span) :
    interruption.Rel b r interruption.Refs (self.invokeUntil last callee refs span)
      (self'.invokeUntil pause callee' refs' span) := by
  have spans : interruption.Spans span span := rfl
  cases objects.eq
  cases Pairing.eq_of_forall₂ lists fun _ _ => id
  obtain ⟨datum, place, owner⟩ := callee
  cases datum with
  | builtin builtin =>
      apply interruption.rel_bind
        (rel_enter builtin.name builtin.parameters objects.frames lists spans)
      intro later f g _ frames
      cases frames
      apply interrupting_giveUpIf (within builtin refs)
      exact rel_performed interruption_plain agree builtin lists spans rfl
  | procedure | number | truth | text | list | bare =>
      exact rel_invoke interruption_plain agree objects lists spans

theorem rel_callUntil (agree : interruption.Evaluators self self') (within : last.Within pause)
    (callee : Node) (arguments : List Node) (span : Span) (frame : Frame) :
    interruption.Rel b r interruption.Values (self.callUntil last callee arguments span frame)
      (self'.callUntil pause callee arguments span frame) := by
  apply interruption.rel_bind (agree rfl rfl)
  intro later ref ref' _ refs
  refine rel_callObject refs ?_ ?_ rfl rfl
  · intro later object object' refs refs' _ objects lists
    exact rel_invokeUntil agree within objects lists span
  · intro later _
    exact rel_all agree (List.forall₂_same.mpr fun _ _ => rfl) rfl

/-- One step: a tree over parts that may be given up. -/
theorem rel_stepUntil (agree : interruption.Evaluators self self') (within : last.Within pause)
    (fuel : Nat) (node : Node) (frame : Frame) :
    interruption.Rel b r interruption.Values (self.stepUntil last fuel node frame)
      (self'.stepUntil pause fuel node frame) := by
  have stepped : interruption.Rel b r interruption.Values (self.step fuel node frame)
      (self'.step fuel node frame) := by
    intro w v worlds
    exact outcomes_step agree (interruption_plain.steps agree) rfl rfl rfl worlds rfl
  cases node with
  | call callee arguments span => exact rel_callUntil agree within callee arguments span frame
  | _ => exact stepped

/-- Every run: a run is in accord with itself given up earlier. -/
theorem evaluators_evalUntil (within : last.Within pause) (fuel : Nat) :
    interruption.Evaluators (evalUntil last fuel) (evalUntil pause fuel) := by
  induction fuel with
  | zero =>
      intro b r n m f g nodes frames
      exact interruption.rel_abort .exhausted
  | succ fuel ih =>
      intro b r n m f g nodes frames
      cases nodes
      cases frames
      exact rel_stepUntil ih within fuel n f

end Accord
end Pseudocode
