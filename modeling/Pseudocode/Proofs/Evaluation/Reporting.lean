import Pseudocode.Proofs.Evaluation.Watching
import Pseudocode.Proofs.Evaluation.WellFormed

/-!
# Errors that can be shown

An error can be shown if it has a place.  A run ends in an error without one in two ways only: an
operator is refused on account of the absence of a value while this has no place yet, or a robot
that is not running is asked whether it can move in a direction.
-/

namespace Pseudocode

/-! ## Built-in procedures -/

/-- Whether a value is the procedure that asks the robot for a free way. -/
def Datum.isCanMove : Datum → Bool
  | .builtin .canMove => true
  | _ => false

theorem Datum.eq_of_isCanMove {datum : Datum} (asks : datum.isCanMove = true) :
    datum = .builtin .canMove := by
  unfold isCanMove at asks
  split at asks
  · rfl
  · cases asks

/-- Whether a value is the name of a direction. -/
def Datum.isDirection : Datum → Bool
  | .text name => Builtin.directionNames.contains name
  | _ => false

/-- Whether a call asks the robot for a free way in some direction while it is not running. -/
def World.asksIdle (w : World) (callee : Datum) : List Ref → Bool
  | [direction] =>
      callee.isCanMove && (w.store.datum direction).isDirection && !w.robot.running
  | _ => false

/-- A robot that is running has an answer or a fault. -/
theorem Robot.canMove_of_running {r : Robot} (running : r.running = true) (direction : String) :
    r.canMove direction =
      ⟨(Grid.canMove r.current (Json.ofString direction)).mapError .fault, "", r⟩ := by
  rw [canMove, onGrid, if_pos running]

theorem Robot.canMove_of_idle {r : Robot} (idle : r.running = false) (direction : String) :
    ∃ problem, (r.canMove direction).result = .error (.problem problem) := by
  rw [canMove, onGrid, if_neg (Bool.not_eq_true _ ▸ idle)]
  split
  · exact ⟨_, rfl⟩
  · exact ⟨_, rfl⟩

namespace Builtin

open Eval Comparison

variable {barred : Node → Frame → World → Bool} {w : World}

/-- The question for a free way is answered by a robot that is running; about anything but a
direction it is refused at the call. -/
theorem watched_canMove (runSource watched : Source → Eval Unit) (site : Site) {direction : Ref}
    (sound : w.store.Sound)
    (busy : ((w.store.datum direction).isDirection && !w.robot.running) = false) :
    Watched w.store Store.Within (canMove.perform runSource site [direction] w)
      (canMove.perform watched site [direction] w) := by
  have refused : Watched w.store Store.Within (site.fail (α := Ref) .notDirection w)
      (site.fail .notDirection w) := .now (.refl sound) (.error ⟨rfl, rfl⟩)
  have looked : Eval.object direction w = (.value (w.store.object direction), w) := rfl
  change Watched w.store _ ((Eval.object direction >>= _) w) ((Eval.object direction >>= _) w)
  rw [bind_of_value looked]
  rw [Store.datum] at busy
  cases datum : (w.store.object direction).datum with
  | text name =>
      rw [datum] at busy
      dsimp only
      by_cases known : directionNames.contains name = true
      · rw [if_pos known]
        have running : w.robot.running = true := by
          rw [Datum.isDirection, known, Bool.true_and, Bool.not_eq_false'] at busy
          exact busy
        have asked : Watched w.store (fun _ free free' => free = free')
            (command none (fun robot => robot.canMove name) w)
            (command none (fun robot => robot.canMove name) w) := by
          unfold command
          dsimp only
          rw [Robot.canMove_of_running running]
          cases Grid.canMove w.robot.current (Json.ofString name) with
          | ok free => exact .now (.refl sound) (.value rfl)
          | error fault => exact .now (.refl sound) (.fault fault)
        apply watched_bind asked
        rintro free _ last _ leads rfl
        have new : (Datum.truth free).object.datum ≠ .bare := Datum.ne_bare_of_isScalar rfl
        exact .now ⟨.alloc _ _, leads.sound.alloc new⟩
          (.value ⟨rfl, (Store.holds_alloc _ _).index_lt⟩)
      · rw [if_neg known]
        exact refused
  | number | truth | list | procedure | builtin | bare => exact refused

/-- A built-in procedure, be the number of its arguments right or not. -/
theorem watched_perform {runSource watched : Source → Eval Unit}
    (scripts : ∀ t source, (Accord.watching barred).Rel false t (Accord.watching barred).Same
      (runSource source) (watched source))
    (site : Site) (builtin : Builtin) {arguments : List Ref} (sound : w.store.Sound)
    (lists : (Accord.watching barred).RefLists w.store arguments arguments)
    (busy : w.asksIdle (.builtin builtin) arguments = false) :
    Watched w.store Store.Within (builtin.perform runSource site arguments w)
      (builtin.perform watched site arguments w) := by
  by_cases asks : builtin = .canMove
  · cases asks
    obtain _ | ⟨direction, _ | ⟨_, _⟩⟩ := arguments
    · exact .now (.refl sound) (.fault _)
    · exact watched_canMove runSource watched site sound busy
    · exact .now (.refl sound) (.fault _)
  · have performed := Accord.rel_perform (p := site.span) (f := site.frame) builtin
      (fun later source _ _ => scripts later source) (fun same => absurd same asks) lists rfl rfl
    exact performed w w ⟨rfl, rfl, sound⟩

end Builtin

/-! ## Where a run comes to an error without a place -/

/-- Whether a run ends with a value that passes a test in the world after it. -/
def Ending.valueSatisfies {α : Type} (test : α → World → Bool) : Ending α × World → Bool
  | (.value result, after) => test result after
  | _ => false

theorem Ending.exists_of_valueSatisfies {α : Type} {test : α → World → Bool}
    {outcome : Ending α × World} (passed : valueSatisfies test outcome = true) :
    ∃ result after, outcome = (.value result, after) ∧ test result after = true := by
  obtain ⟨ending, after⟩ := outcome
  cases ending with
  | value result => exact ⟨result, after, rfl, passed⟩
  | signal | error | fault => cases passed

/-- Whether a node comes to an error without a place, once its parts have values: an operator is
refused on account of the absence of a value while this has no place, or a robot that is not running
is asked for a free way in some direction. -/
def unplaced (bound : Nat) : Node → Frame → World → Bool
  | .binary left op _ right _, frame, w =>
      Ending.valueSatisfies (fun l middle =>
        Ending.valueSatisfies (fun r after => after.store.blamesNull op l r)
          (eval bound right frame middle))
        (eval bound left frame w)
  | .unary .not _ operand _, frame, w =>
      Ending.valueSatisfies
        (fun ref after => ref = Store.nullRef && (after.store.object Store.nullRef).span.isNone)
        (eval bound operand frame w)
  | .call callee arguments _, frame, w =>
      Ending.valueSatisfies (fun ref middle =>
        Ending.valueSatisfies (fun refs after => after.asksIdle (middle.store.datum ref) refs)
          (Evaluator.all (eval bound) frame arguments middle))
        (eval bound callee frame w)
  | _, _, _ => false

/-! ## Runs with different bounds -/

section

variable {n bound : Nat} {node : Node} {frame : Frame} {w after : World} {ref : Ref}

/-- A run comes to its bound or is the run with any greater one. -/
theorem eval_exhausted_or_eq (fewer : n ≤ bound) (node : Node) (frame : Frame) (w : World) :
    (eval n node frame w).1 = .fault .exhausted ∨
      eval n node frame w = eval bound node frame w := by
  by_cases ends : (eval n node frame w).1 = .fault .exhausted
  · exact .inl ends
  · rw [← evalUnless_never n] at ends ⊢
    exact .inr (Invariant.eval_eq_evalUnless fewer ends).symm

theorem all_exhausted_or_eq (fewer : n ≤ bound) (frame : Frame) (nodes : List Node) (w : World) :
    (Evaluator.all (eval n) frame nodes w).1 = .fault .exhausted ∨
      Evaluator.all (eval n) frame nodes w = Evaluator.all (eval bound) frame nodes w := by
  induction nodes generalizing w with
  | nil => exact .inr rfl
  | cons node rest ih =>
      change (Eval.bind _ _ w).1 = _ ∨ Eval.bind _ _ w = Eval.bind _ _ w
      unfold Eval.bind
      obtain exhausted | same := eval_exhausted_or_eq fewer node frame w
      · left
        generalize eval n node frame w = outcome at exhausted ⊢
        obtain ⟨ending, after⟩ := outcome
        cases exhausted
        rfl
      · rw [same]
        generalize eval bound node frame w = outcome
        obtain ⟨ending, after⟩ := outcome
        cases ending with
        | signal | error | fault => exact .inr rfl
        | value first =>
            change (Eval.bind _ _ after).1 = _ ∨ Eval.bind _ _ after = Eval.bind _ _ after
            unfold Eval.bind
            obtain exhausted | same := ih after
            · left
              generalize Evaluator.all (eval n) frame rest after = outcome at exhausted ⊢
              obtain ⟨ending, last⟩ := outcome
              cases exhausted
              rfl
            · rw [same]
              exact .inr rfl

theorem eval_of_value (fewer : n ≤ bound) (run : eval n node frame w = (.value ref, after)) :
    eval bound node frame w = (.value ref, after) := by
  obtain exhausted | same := eval_exhausted_or_eq fewer node frame w
  · rw [run] at exhausted
    cases exhausted
  · rw [← same, run]

theorem all_of_value (fewer : n ≤ bound) {nodes : List Node} {refs : List Ref}
    (run : Evaluator.all (eval n) frame nodes w = (.value refs, after)) :
    Evaluator.all (eval bound) frame nodes w = (.value refs, after) := by
  obtain exhausted | same := all_exhausted_or_eq fewer frame nodes w
  · rw [run] at exhausted
    cases exhausted
  · rw [← same, run]

end

/-! ## Runs that cannot be shown -/

/-- A run that ends in a fault or in an error without a place. -/
structure Doomed {α : Type} (s : Store) (o : Ending α × World) : Prop where
  leads : s.Leads o.2.store
  unshown : o.1.Unshown

namespace Doomed

variable {α β : Type} {w after : World}

/-- What follows a run that comes to its bound or to a known value. -/
theorem bind {first : Eval α} {next : α → Eval β} {outcome : Ending α × World} {a : α}
    (leads : w.store.Leads (first w).2.store)
    (known : (first w).1 = .fault .exhausted ∨ first w = outcome)
    (value : outcome = (.value a, after))
    (continues : first w = (.value a, after) → w.store.Leads after.store →
      Doomed after.store (next a after)) : Doomed w.store ((first >>= next) w) := by
  obtain exhausted | same := known
  · change Doomed w.store (Eval.bind first next w)
    unfold Eval.bind
    generalize first w = o at leads exhausted ⊢
    obtain ⟨ending, last⟩ := o
    cases exhausted
    exact ⟨leads, trivial⟩
  · have run := same.trans value
    rw [run] at leads
    rw [Eval.bind_of_value run]
    have doomed := continues run leads
    exact ⟨leads.trans doomed.leads, doomed.unshown⟩

/-- Work on the store that is refused without a place. -/
theorem tryStore {work : Store → Except Stop Ref × Store} {next : Ref → Eval Ref}
    (leads : w.store.Leads (work w.store).2)
    (refused : ∃ diagnostic, (work w.store).1 = .error (.error diagnostic) ∧
      diagnostic.span = none) : Doomed w.store ((Eval.tryStore work >>= next) w) := by
  obtain ⟨diagnostic, stopped, placeless⟩ := refused
  have run : Eval.tryStore work w =
      (.error diagnostic, { w with store := (work w.store).2 }) :=
    Eval.tryStore_of_error (Prod.ext stopped rfl)
  rw [Eval.bind_of_error run]
  exact ⟨leads, placeless⟩

theorem first {first : Eval α} {next : α → Eval β} (doomed : Doomed w.store (first w)) :
    Doomed w.store ((first >>= next) w) := by
  obtain ⟨leads, unshown⟩ := doomed
  change Doomed w.store (Eval.bind first next w)
  unfold Eval.bind
  generalize first w = o at leads unshown ⊢
  obtain ⟨ending, last⟩ := o
  cases ending with
  | value | signal => cases unshown
  | error | fault => exact ⟨leads, unshown⟩

/-- A robot that is not running cannot say where the question was asked. -/
theorem canMove {direction : Ref} (sound : w.store.Sound)
    (asked : (w.store.datum direction).isDirection = true) (idle : w.robot.running = false)
    (runSource : Source → Eval Unit) (site : Site) :
    Doomed w.store (Builtin.canMove.perform runSource site [direction] w) := by
  apply Doomed.bind (.refl sound) (.inr rfl) rfl
  intro _ _
  dsimp only
  rw [Store.datum] at asked
  cases datum : (w.store.object direction).datum with
  | text name =>
      rw [datum, Datum.isDirection] at asked
      dsimp only
      rw [if_pos asked]
      apply Doomed.first
      obtain ⟨problem, refused⟩ := Robot.canMove_of_idle idle name
      unfold Eval.command
      dsimp only
      rw [refused]
      exact ⟨.refl sound, rfl⟩
  | number | truth | list | procedure | builtin | bare =>
      rw [datum] at asked
      cases asked

end Doomed

/-! ## Steps -/

namespace Evaluator

open Eval Comparison

/-- An evaluator that is watched by another one, which gives up where it is barred. -/
abbrev Watches (barred : Node → Frame → World → Bool) (self watched : Evaluator) : Prop :=
  (Accord.watching barred).Evaluators self watched

section

variable {barred : Node → Frame → World → Bool} {self watched : Evaluator} {w after : World}

namespace Watches

theorem run (watches : Watches barred self watched) (sound : w.store.Sound) (node : Node)
    (frame : Frame) : Watched w.store (Comparison.watching barred).Values (self node frame w)
      (watched node frame w) :=
  watches (b := false) rfl rfl w w ⟨rfl, rfl, sound⟩

theorem all (watches : Watches barred self watched) (sound : w.store.Sound)
    (nodes : List Node) (frame : Frame) :
    Watched w.store (Comparison.watching barred).RefLists (self.all frame nodes w)
      (watched.all frame nodes w) :=
  Accord.rel_all watches (b := false) (List.forall₂_same.mpr fun _ _ => rfl) rfl w w
    ⟨rfl, rfl, sound⟩

theorem leads (watches : Watches barred self watched) (sound : w.store.Sound) (node : Node)
    (frame : Frame) : w.store.Leads (self node frame w).2.store :=
  (watches.run sound node frame).leads

theorem inside (watches : Watches barred self watched) (sound : w.store.Sound) {node : Node}
    {frame : Frame} {ref : Ref} (run : self node frame w = (.value ref, after)) :
    ref.index < after.store.objects.size := by
  have ran := watches.run sound node frame
  rw [run] at ran
  obtain ⟨_, within, _⟩ := ran.value
  exact within.2

end Watches

theorem watched_invoke (watches : Watches barred self watched) (callee : Object)
    {arguments : List Ref} (span : Span) (sound : w.store.Sound)
    (lists : (Accord.watching barred).RefLists w.store arguments arguments)
    (busy : w.asksIdle callee.datum arguments = false) :
    Watched w.store Store.Within (self.invoke callee arguments span w)
      (watched.invoke callee arguments span w) := by
  have entered (name : String) (parameters : List String) :
      Watched w.store (fun _ frame frame' => frame = frame')
        (enter callee name parameters arguments span w)
        (enter callee name parameters arguments span w) :=
    Accord.rel_enter (b := false) name parameters (Pairing.rel_refl fun _ _ => rfl) lists rfl w w
      ⟨rfl, rfl, sound⟩
  obtain ⟨datum, place, owner⟩ := callee
  cases datum with
  | procedure procedure =>
      apply watched_bind (entered _ _)
      rintro frame _ after _ leads rfl
      have bodies : (Comparison.watching barred).Rel false after.store (watching barred).Values
          (self procedure.body frame) (watched procedure.body frame) := watches rfl rfl
      exact watching_callBody (b := false) bodies after after ⟨rfl, rfl, leads.sound⟩
  | builtin builtin =>
      apply watched_bind (entered _ _)
      rintro frame _ after run leads rfl
      have robot : after.robot = w.robot := by
        have kept := robot_enter ⟨.builtin builtin, place, owner⟩ builtin.name builtin.parameters
          arguments span w
        rw [run] at kept
        exact kept
      apply Builtin.watched_perform _ _ _ leads.sound
      · exact Accord.refLists_mono leads.toRetains lists
      · -- The arguments are what they were before the procedure was entered.
        rw [← busy]
        unfold World.asksIdle
        split
        · next direction =>
            have held := (List.forall₂_same.mp lists direction (by simp)).2
            rw [leads.data direction held, robot]
        · rfl
      · intro t source
        exact Accord.rel_discard (Accord.rel_runSource watches trivial)
  | number | truth | text | list | bare => exact .now (.refl sound) (.fault _)

/-- Asking a robot that is not running: the number of arguments is right. -/
theorem doomed_invoke {callee : Object} {arguments : List Ref} (span : Span)
    (sound : w.store.Sound)
    (lists : (Accord.watching barred).RefLists w.store arguments arguments)
    (asks : w.asksIdle callee.datum arguments = true) :
    Doomed w.store (self.invoke callee arguments span w) := by
  obtain ⟨datum, place, owner⟩ := callee
  unfold World.asksIdle at asks
  split at asks
  · next direction =>
      rw [Bool.and_eq_true, Bool.and_eq_true, Bool.not_eq_true'] at asks
      obtain ⟨⟨isCanMove, isDirection⟩, idle⟩ := asks
      cases Datum.eq_of_isCanMove isCanMove
      cases owner with
      | none => exact ⟨.refl sound, trivial⟩
      | some caller =>
          let callee : Object := ⟨.builtin .canMove, place, some caller⟩
          have owners : Option.Rel ((Accord.watching barred).Owners w.store) callee.frame
              callee.frame := .some rfl
          have entered := Accord.rel_enter (b := false) Builtin.canMove.name
            Builtin.canMove.parameters owners lists (p := span) rfl w w ⟨rfl, rfl, sound⟩
          apply Doomed.bind entered.leads (.inr rfl) rfl
          intro _ leads
          have held := (List.forall₂_same.mp lists direction (by simp)).2
          apply Doomed.canMove leads.sound
          · rw [leads.data direction held]
            exact isDirection
          · exact idle
  · cases asks

end

variable {n bound : Nat} {watched : Evaluator} {frame : Frame} {w : World}

theorem watched_binary (fewer : n ≤ bound) (watches : Watches (unplaced bound) (eval n) watched)
    (sound : w.store.Sound) {left right : Node} {op : BinaryOp} (mark : Span) {span : Span}
    (free : unplaced bound (.binary left op mark right span) frame w = false) :
    Watched w.store (watching (unplaced bound)).Values
      (Evaluator.binary (eval n) left op right span frame w)
      (watched.binary left op right span frame w) := by
  apply watched_bind (watches.run sound left frame)
  rintro l _ middle runLeft toMiddle ⟨⟨rfl, _⟩, first⟩
  apply watched_bind (watches.run toMiddle.sound right frame)
  rintro r _ after runRight toAfter ⟨⟨rfl, inside⟩, second⟩
  have first := first.mono toAfter.toRetains
  have blameless : after.store.blamesNull op l r = false := by
    rw [unplaced, eval_of_value fewer runLeft] at free
    dsimp only [Ending.valueSatisfies] at free
    rw [eval_of_value fewer runRight] at free
    exact free
  apply watched_operation (fun store => store.binary op l r)
  · exact toAfter.sound.binary op l inside
  · exact fun stop stopped => Store.placed_binary first second blameless stopped

theorem doomed_binary (fewer : n ≤ bound) (watches : Watches (unplaced bound) (eval n) watched)
    (sound : w.store.Sound) {left right : Node} {op : BinaryOp} {mark span : Span}
    (barred : unplaced bound (.binary left op mark right span) frame w = true) :
    Doomed w.store (Evaluator.binary (eval n) left op right span frame w) := by
  rw [unplaced] at barred
  obtain ⟨l, middle, runLeft, rest⟩ := Ending.exists_of_valueSatisfies barred
  obtain ⟨r, after, runRight, blames⟩ := Ending.exists_of_valueSatisfies rest
  apply Doomed.bind (watches.leads sound left frame) (eval_exhausted_or_eq fewer left frame w)
    runLeft
  intro _ toMiddle
  apply Doomed.bind (watches.leads toMiddle.sound right frame)
    (eval_exhausted_or_eq fewer right frame middle) runRight
  intro run toAfter
  have inside := watches.inside toMiddle.sound run
  exact .tryStore (toAfter.sound.binary op l inside).leads (Store.binary_of_blamesNull blames)

/-- A plus is never refused, and a minus only at a value that is no number. -/
theorem watched_unary (fewer : n ≤ bound) (watches : Watches (unplaced bound) (eval n) watched)
    (sound : w.store.Sound) {op : UnaryOp} {operand : Node} (mark : Span) {span : Span}
    (free : unplaced bound (.unary op mark operand span) frame w = false) :
    Watched w.store (watching (unplaced bound)).Values
      (Evaluator.unary (eval n) op operand span frame w)
      (watched.unary op operand span frame w) := by
  apply watched_bind (watches.run sound operand frame)
  rintro ref _ after run leads ⟨⟨rfl, inside⟩, valued⟩
  have sound := leads.sound
  cases op with
  | plus =>
      exact watching_located (b := false) ⟨rfl, inside⟩ span after after ⟨rfl, rfl, sound⟩
  | minus =>
      have one : Watched after.store
          (fun t minusOne minusOne' => minusOne = minusOne' ∧
            t.datum minusOne = .number (.whole (-1)) ∧ minusOne.index < t.objects.size)
          (fresh (Datum.number (.whole (-1))).object after)
          (fresh (Datum.number (.whole (-1))).object after) := by
        have holds := Store.holds_alloc after.store (Datum.number (.whole (-1))).object
        exact .now ⟨.alloc _ _, sound.alloc nofun⟩
          (.value ⟨rfl, holds.datum_eq, holds.index_lt⟩)
      apply watched_bind one
      rintro minusOne _ middle _ toMiddle ⟨rfl, number, inside⟩
      apply watched_operation (fun store => store.binary .mul ref minusOne)
      · exact toMiddle.sound.binary .mul ref inside
      · intro stop stopped
        exact Store.placed_product toMiddle.sound (valued.mono toMiddle.toRetains) number stopped
  | not =>
      have places : after.store.Places ref := by
        obtain rfl | places := valued
        · rw [unplaced, eval_of_value fewer run] at free
          simpa [Ending.valueSatisfies, Store.Places] using free
        · exact places
      apply watched_operation (fun store => store.negate ref)
      · exact sound.negate ref
      · exact fun stop stopped => Store.placed_negate places stopped

theorem doomed_not (fewer : n ≤ bound) (watches : Watches (unplaced bound) (eval n) watched)
    (sound : w.store.Sound) {operand : Node} {mark span : Span}
    (barred : unplaced bound (.unary .not mark operand span) frame w = true) :
    Doomed w.store (Evaluator.unary (eval n) .not operand span frame w) := by
  rw [unplaced] at barred
  obtain ⟨ref, after, found, placeless⟩ := Ending.exists_of_valueSatisfies barred
  rw [Bool.and_eq_true, decide_eq_true_eq, Option.isNone_iff_eq_none] at placeless
  obtain ⟨rfl, placeless⟩ := placeless
  apply Doomed.bind (watches.leads sound operand frame)
    (eval_exhausted_or_eq fewer operand frame w) found
  intro _ leads
  exact .tryStore (leads.sound.negate _).leads (Store.negate_null leads.sound placeless)

theorem watched_call (fewer : n ≤ bound) (watches : Watches (unplaced bound) (eval n) watched)
    (sound : w.store.Sound) {callee : Node} {arguments : List Node} {span : Span}
    (free : unplaced bound (.call callee arguments span) frame w = false) :
    Watched w.store (watching (unplaced bound)).Values
      (Evaluator.call (eval n) callee arguments span frame w)
      (watched.call callee arguments span frame w) := by
  apply watched_bind (watches.run sound callee frame)
  rintro ref _ middle run toMiddle ⟨⟨rfl, _⟩, _⟩
  have looked : Eval.object ref middle = (.value (middle.store.object ref), middle) := rfl
  rw [bind_of_value looked, bind_of_value looked]
  apply watched_bind (watches.all toMiddle.sound arguments frame)
  intro refs refs' after runAll toAfter lists
  cases Pairing.eq_of_forall₂ lists fun _ _ within => within.1
  have busy : after.asksIdle (middle.store.datum ref) refs = false := by
    rw [unplaced, eval_of_value fewer run] at free
    dsimp only [Ending.valueSatisfies] at free
    rw [all_of_value fewer runAll] at free
    exact free
  apply watched_bind (watched_invoke watches _ span toAfter.sound lists busy)
  rintro result _ last _ toLast ⟨rfl, _⟩
  exact watching_takenOver (b := false) result span frame last last ⟨rfl, rfl, toLast.sound⟩

theorem doomed_call (fewer : n ≤ bound) (watches : Watches (unplaced bound) (eval n) watched)
    (sound : w.store.Sound) {callee : Node} {arguments : List Node} {span : Span}
    (barred : unplaced bound (.call callee arguments span) frame w = true) :
    Doomed w.store (Evaluator.call (eval n) callee arguments span frame w) := by
  rw [unplaced] at barred
  obtain ⟨ref, middle, found, rest⟩ := Ending.exists_of_valueSatisfies barred
  obtain ⟨refs, after, foundAll, asks⟩ := Ending.exists_of_valueSatisfies rest
  apply Doomed.bind (watches.leads sound callee frame)
    (eval_exhausted_or_eq fewer callee frame w) found
  intro _ toMiddle
  apply Doomed.bind (.refl toMiddle.sound) (.inr rfl) rfl
  intro _ _
  have listed := watches.all toMiddle.sound arguments frame
  apply Doomed.bind listed.leads (all_exhausted_or_eq fewer frame arguments middle) foundAll
  intro run toAfter
  rw [run] at listed
  obtain ⟨refs', lists⟩ := listed.value
  cases Pairing.eq_of_forall₂ lists fun _ _ within => within.1
  exact (doomed_invoke span toAfter.sound lists asks).first

theorem steps_watching (fewer : n ≤ bound) (watches : Watches (unplaced bound) (eval n) watched) :
    (Accord.watching (unplaced bound)).Steps (eval n) watched where
  binary {_ _ _ _ _ _ mark _ _ _ _ _ _} op lefts rights spans frames worlds free := by
    cases lefts
    cases rights
    cases spans
    cases frames
    obtain ⟨rfl, rfl, sound⟩ := worlds
    exact watched_binary fewer watches sound mark free
  unary {_ _ _ _ mark _ _ _ _ _ _} op nodes spans frames worlds free := by
    cases nodes
    cases spans
    cases frames
    obtain ⟨rfl, rfl, sound⟩ := worlds
    exact watched_unary fewer watches sound mark free
  call callees nodes spans frames worlds free := by
    cases callees
    cases Pairing.eq_of_forall₂ nodes fun _ _ => id
    cases spans
    cases frames
    obtain ⟨rfl, rfl, sound⟩ := worlds
    exact watched_call fewer watches sound free

/-- One step that is barred. -/
theorem doomed_step (fewer : n ≤ bound) (watches : Watches (unplaced bound) (eval n) watched)
    (fuel : Nat) (sound : w.store.Sound) {node : Node}
    (barred : unplaced bound node frame w = true) :
    Doomed w.store (Evaluator.step (eval n) fuel node frame w) := by
  cases node with
  | binary left op mark right span => exact doomed_binary fewer watches sound barred
  | unary op mark operand span =>
      cases op with
      | not => exact doomed_not fewer watches sound barred
      | plus | minus => cases barred
  | call callee arguments span => exact doomed_call fewer watches sound barred
  | _ => cases barred

end Evaluator

/-! ## Runs -/

/-- Every run: it is watched by the run that gives up where an error would have no place. -/
theorem watches_eval {n bound : Nat} (fewer : n ≤ bound) :
    Evaluator.Watches (unplaced bound) (eval n) (evalUnless (unplaced bound) n) := by
  induction n with
  | zero =>
      intro b s node _ frame _ same frames w v worlds
      obtain ⟨rfl, rfl, sound⟩ := worlds
      exact .gaveUp (.refl sound) trivial
  | succ n ih =>
      have less := Nat.le_of_succ_le fewer
      intro b s node _ frame _ same frames w v worlds
      cases same
      cases frames
      obtain ⟨rfl, rfl, sound⟩ := worlds
      rw [eval, evalUnless]
      cases free : unplaced bound node frame w with
      | true =>
          have doomed := Evaluator.doomed_step less (ih less) n sound free
          exact .gaveUp doomed.leads doomed.unshown
      | false =>
          exact Accord.outcomes_step (ih less) (Evaluator.steps_watching less (ih less)) rfl rfl rfl
            ⟨rfl, rfl, sound⟩ free

theorem Store.Sound.start : Store.start.Sound where
  nonempty := by decide
  null := rfl
  solid object member := by
    obtain ⟨binding, listed, rfl⟩ := List.mem_map.mp (List.mem_toArray.mp member)
    rw [startGlobals, List.mem_append, List.mem_cons, List.mem_map, List.mem_singleton] at listed
    obtain (rfl | ⟨builtin, -, rfl⟩) | rfl := listed <;> exact nofun
  elements elements member := by cases Array.not_mem_empty elements member

namespace World

theorem watched_runSource (w : World) (sound : w.store.Sound) (source : Source) (bound : Nat) :
    Watched w.store
      (fun later => Option.Rel ((Comparison.watching (unplaced bound)).Values later))
      (Evaluator.runSource (eval bound) source w)
      (Evaluator.runSource (evalUnless (unplaced bound) bound) source w) :=
  Accord.rel_runSource (watches_eval (Nat.le_refl bound)) (b := false) trivial w w
    ⟨rfl, rfl, sound⟩

theorem Reached.sound {w : World} (reached : w.Reached) : w.store.Sound := by
  induction reached with
  | start => exact Store.Sound.start
  | @run w source input _ _ ih =>
      rw [runStep, World.run, runWithin_world]
      let entered : World := { w with input := input, output := "" }
      exact (watched_runSource entered ih source (limit source)).leads.sound
  | outside _ same ih => exact same ▸ ih

theorem runSource_of_error {w after : World} {source : Source} {d : Diagnostic}
    (failed : w.run source = (.error d, after)) :
    Evaluator.runSource (eval (limit source)) source w = (.error d, after) := by
  unfold run runWithin at failed
  generalize Evaluator.runSource (eval (limit source)) source w = outcome at failed ⊢
  obtain ⟨ending, last⟩ := outcome
  cases ending <;> cases failed
  rfl

/-- In every session an error of a program can be shown exactly if the run that ends in it comes
neither to an operator that is refused on account of the absence of a value while this has no place,
nor to a question for a free way while the robot is not running. -/
theorem error_shown_iff {w : World} (reached : w.Reached) (source : Source) {d : Diagnostic}
    {after : World} (failed : w.run source = (.error d, after)) :
    (∃ report, d.render = .ok report) ↔
      (Evaluator.runSource (evalUnless (unplaced (limit source)) (limit source)) source w).1 ≠
        .fault .exhausted := by
  have watched := watched_runSource w reached.sound source (limit source)
  rw [runSource_of_error failed] at watched
  rw [d.exists_render_iff_placed]
  obtain ⟨gaveUp, unshown⟩ | ⟨_, shown⟩ := watched.outcome
  · have placeless : d.span = none := unshown
    constructor
    · intro placed
      rw [Diagnostic.Placed, placeless] at placed
      cases placed
    · intro ends
      exact absurd gaveUp ends
  · generalize (Evaluator.runSource (evalUnless (unplaced (limit source)) (limit source)) source
      w).1 = ending at shown ⊢
    cases shown with
    | error shown =>
        refine ⟨fun _ exhausted => ?_, fun _ => shown.2⟩
        cases exhausted

end World

/-! ## Two programs -/

/-- Whether a program ends in an error that passes a test. -/
def Conclusion.failsWith (test : Diagnostic → Bool) : Conclusion → Bool
  | .error d => test d
  | _ => false

theorem Conclusion.exists_of_failsWith {test : Diagnostic → Bool} {outcome : Conclusion × World}
    (failed : outcome.1.failsWith test = true) :
    ∃ d after, outcome = (.error d, after) ∧ test d = true := by
  obtain ⟨conclusion, after⟩ := outcome
  cases conclusion with
  | error d => exact ⟨d, after, rfl, failed⟩
  | value | fault => cases failed

namespace World

/-- A program that adds the absence of a value, without a place, to a number and negates the sum. -/
def negatedSum : Source := ⟨promptName, "NOT (1 + (IF (TRUE) {1}))"⟩

/-- A program that asks for a free way where no grid was ever made. -/
def earlyQuestion : Source := ⟨promptName, "CAN_MOVE(FORWARD)"⟩

theorem error_shown_iff_negatedSum :
    ∃ d after, (World.start {} [] (mkStdGen 0)).run negatedSum = (.error d, after) ∧
      ∃ report, d.render = .ok report := by
  have fails : ((World.start {} [] (mkStdGen 0)).run negatedSum).1.failsWith (fun _ => true) =
      true := by decide +kernel
  obtain ⟨d, after, failed, _⟩ := Conclusion.exists_of_failsWith fails
  have finished : (Evaluator.runSource
      (evalUnless (unplaced (limit negatedSum)) (limit negatedSum)) negatedSum
      (World.start {} [] (mkStdGen 0))).1.isExhausted = false := by decide +kernel
  refine ⟨d, after, failed, ?_⟩
  exact (error_shown_iff (.start _ _ _) negatedSum failed).mpr (Ending.ne_exhausted finished)

/-- A question for a free way before there is a grid ends in an error that cannot be shown. -/
theorem error_hidden_earlyQuestion :
    ∃ d after, (World.start {} [] (mkStdGen 0)).run earlyQuestion = (.error d, after) ∧
      d.render = .error .noPosition := by
  have fails : ((World.start {} [] (mkStdGen 0)).run earlyQuestion).1.failsWith
      (fun d => d.span.isNone) = true := by decide +kernel
  obtain ⟨d, after, failed, placeless⟩ := Conclusion.exists_of_failsWith fails
  refine ⟨d, after, failed, ?_⟩
  rw [Diagnostic.render, Option.isNone_iff_eq_none.mp placeless]

end World
end Pseudocode
