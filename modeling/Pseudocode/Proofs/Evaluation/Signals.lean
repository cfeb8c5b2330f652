import Pseudocode.Proofs.Evaluation.Containment
import Pseudocode.Proofs.Evaluation.Growth

/-!
# Signals that leave a call

A call takes what a `RETURN` sends as its value, but it lets the signals for loops pass: a `BREAK`
or a `CONTINUE` that ends the body of a procedure reaches the caller.  This happens exactly if the
body ends with such a signal, and never in a session in which every `BREAK` and `CONTINUE` stands in
a loop of its own procedure.
-/

namespace Pseudocode

/-! ## The exact condition -/

/-- Whether a signal is for a loop. -/
def Signal.isForLoop : Signal → Bool
  | .returning _ => false
  | .breaking => true
  | .continuing => true

namespace Eval

variable {α β : Type} {w : World} {signal : Signal}

/-- An evaluation that sends no signals at all. -/
def Silent (e : Eval α) : Prop :=
  ∀ w signal, (e w).1 ≠ .signal signal

theorem bind_signal_iff {first : Eval α} {next : α → Eval β} (silent : first.Silent) :
    ((first >>= next) w).1 = .signal signal ↔
      ∃ a after, first w = (.value a, after) ∧ (next a after).1 = .signal signal := by
  change (Eval.bind first next w).1 = _ ↔ _
  unfold Eval.bind
  have quiet := silent w
  generalize first w = outcome at quiet ⊢
  obtain ⟨ending, after⟩ := outcome
  cases ending with
  | value a =>
      constructor
      · intro sent
        exact ⟨a, after, rfl, sent⟩
      · rintro ⟨_, _, same, sent⟩
        cases same
        exact sent
  | signal sent => exact absurd rfl (quiet sent)
  | error | fault => simp

theorem bind_silent_iff {first : Eval α} {next : α → Eval β} (silent : ∀ a, (next a).Silent) :
    ((first >>= next) w).1 = .signal signal ↔ (first w).1 = .signal signal := by
  change (Eval.bind first next w).1 = _ ↔ _
  unfold Eval.bind
  generalize first w = outcome
  obtain ⟨ending, after⟩ := outcome
  cases ending with
  | value a => simp [silent a after signal]
  | signal | error | fault => simp

theorem silent_bind {first : Eval α} {next : α → Eval β} (before : first.Silent)
    (later : ∀ a, (next a).Silent) : (first >>= next).Silent := by
  intro w signal sent
  exact before w signal ((bind_silent_iff later).mp sent)

theorem silent_pure (result : α) : Silent (pure result) :=
  fun _ _ sent => by cases sent

theorem silent_raise (diagnostic : Diagnostic) : Silent (raise diagnostic : Eval α) :=
  fun _ _ sent => by cases sent

theorem silent_abort (fault : Fault) : Silent (abort fault : Eval α) :=
  fun _ _ sent => by cases sent

theorem silent_withStore (work : Store → α × Store) : Silent (withStore work) :=
  fun _ _ sent => by cases sent

theorem silent_modifyStore (change : Store → Store) : Silent (modifyStore change) :=
  fun _ _ sent => by cases sent

theorem silent_takenOver (ref : Ref) (span : Span) (frame : Frame) :
    (takenOver ref span frame).Silent := by
  have copied : (copied ref).Silent := by
    apply silent_bind (silent_withStore _)
    intro result
    cases result with
    | ok copy => exact silent_pure copy
    | error fault => exact silent_abort fault
  apply silent_bind copied
  intro copy
  exact silent_bind (silent_modifyStore _) fun _ => silent_pure copy

theorem callBody_signal_iff {body : Eval α} :
    (callBody body w).1 = .signal signal ↔
      signal.isForLoop = true ∧ (body w).1 = .signal signal := by
  unfold callBody
  generalize body w = outcome
  obtain ⟨ending, after⟩ := outcome
  cases ending with
  | value | error | fault => simp
  | signal sent => cases sent <;> cases signal <;> simp [Signal.isForLoop]

end Eval

theorem Evaluator.silent_enter (callee : Object) (name : String) (parameters : List String)
    (arguments : List Ref) (span : Span) :
    (enter callee name parameters arguments span).Silent := by
  unfold enter
  split
  · exact Eval.silent_abort _
  · apply Eval.silent_bind (Eval.silent_withStore _)
    intro scope
    dsimp only
    split
    · exact Eval.silent_raise _
    · split
      · exact Eval.silent_raise _
      · exact Eval.silent_bind (Eval.silent_modifyStore _) fun _ => Eval.silent_pure _

/-- A call whose callee and arguments have values. -/
theorem Evaluator.call_of_values {self : Evaluator} {callee : Node} {arguments : List Node}
    {frame : Frame} {w called ready : World} {ref : Ref} {refs : List Ref}
    (evaluated : self callee frame w = (.value ref, called))
    (handed : self.all frame arguments called = (.value refs, ready)) (span : Span) :
    self.call callee arguments span frame w =
      (self.invoke (called.store.object ref) refs span >>= fun result =>
        Eval.takenOver result span frame) ready := by
  have looked : Eval.object ref called = (.value (called.store.object ref), called) := rfl
  unfold call
  rw [Eval.bind_of_value evaluated, Eval.bind_of_value looked, Eval.bind_of_value handed]

/-- A call of a procedure with given values sends the signals for loops that its body ends with. -/
theorem Evaluator.invoke_signal_iff {self : Evaluator} {callee : Object} {procedure : Procedure}
    (isProcedure : callee.datum = .procedure procedure) (arguments : List Ref) (span : Span)
    (w : World) (signal : Signal) :
    (self.invoke callee arguments span w).1 = .signal signal ↔
      signal.isForLoop = true ∧ ∃ inner entered,
        enter callee procedure.name procedure.parameters arguments span w =
          (.value inner, entered) ∧
        (self procedure.body inner entered).1 = .signal signal := by
  unfold invoke
  rw [isProcedure]
  dsimp only
  rw [Eval.bind_signal_iff (silent_enter _ _ _ _ _)]
  constructor
  · rintro ⟨inner, entered, run, sent⟩
    obtain ⟨isForLoop, ended⟩ := Eval.callBody_signal_iff.mp sent
    exact ⟨isForLoop, inner, entered, run, ended⟩
  · rintro ⟨isForLoop, inner, entered, run, ended⟩
    exact ⟨inner, entered, run, Eval.callBody_signal_iff.mpr ⟨isForLoop, ended⟩⟩

/-- A call of a procedure sends a signal exactly if it is one for a loop and the body of the
procedure ends with it.  Where all procedures enclose their signals, it sends none, and they do so
after the call as well. -/
theorem call_signal_iff (fuel : Nat) {callee : Node} {arguments : List Node} {frame : Frame}
    {w called ready : World} {ref : Ref} {refs : List Ref} {procedure : Procedure} (span : Span)
    (evaluated : eval fuel callee frame w = (.value ref, called))
    (isProcedure : (called.store.object ref).datum = .procedure procedure)
    (handed : Evaluator.all (eval fuel) frame arguments called = (.value refs, ready)) :
    (∀ signal, (eval (fuel + 1) (.call callee arguments span) frame w).1 = .signal signal ↔
      signal.isForLoop = true ∧ ∃ inner entered,
        Evaluator.enter (called.store.object ref) procedure.name procedure.parameters refs span
          ready = (.value inner, entered) ∧
        (eval fuel procedure.body inner entered).1 = .signal signal) ∧
    (w.Enclosed → (Node.call callee arguments span).enclosed true = true →
      (∀ signal, (eval (fuel + 1) (.call callee arguments span) frame w).1 ≠ .signal signal) ∧
      (eval (fuel + 1) (.call callee arguments span) frame w).2.Enclosed) := by
  have exactly (signal : Signal) :
      (eval (fuel + 1) (.call callee arguments span) frame w).1 = .signal signal ↔
        (Evaluator.invoke (eval fuel) (called.store.object ref) refs span ready).1 =
          .signal signal := by
    have run : eval (fuel + 1) (.call callee arguments span) frame w = _ :=
      Evaluator.call_of_values evaluated handed span
    rw [run, Eval.bind_silent_iff fun result => Eval.silent_takenOver result span frame]
  constructor
  · intro signal
    exact (exactly signal).trans
      (Evaluator.invoke_signal_iff isProcedure refs span ready signal)
  · intro before enclosed
    have after := (holds_eval (fuel + 1) enclosed frame w before).1
    refine ⟨fun signal sent => ?_, after⟩
    rw [Node.enclosed, Bool.and_eq_true] at enclosed
    have calledEnclosed := (holds_eval fuel enclosed.1 frame w before).1
    rw [evaluated] at calledEnclosed
    have readyEnclosed := (holds_all fuel enclosed.2 frame called calledEnclosed).1
    rw [handed] at readyEnclosed
    have invoked : (Evaluator.invoke (eval fuel) (called.store.object ref) refs span ready).1.Held
        false Anything :=
      (holds_invoke fuel (calledEnclosed.store.object ref) refs span ready readyEnclosed).2
    have isForLoop := ((Evaluator.invoke_signal_iff isProcedure refs span ready signal).mp
      ((exactly signal).mp sent)).1
    rw [(exactly signal).mp sent] at invoked
    cases signal with
    | returning result => cases isForLoop
    | breaking | continuing => cases invoked

/-- A procedure that leaves a loop of its own and then returns. -/
def leavingOwnLoop : Node :=
  .procedure none [⟨"x", default⟩]
    (.list [
      .whileLoop (.truth true default) (.list [.breaking default] default) default,
      .returning (some (.access ⟨"x", default⟩)) default] default) default

/-- A procedure that leaves a loop of its caller. -/
def leavingCallersLoop : Node :=
  .procedure none [] (.list [.breaking default] default) default

/-- A world at start-up, without scripts. -/
def outset : World := World.start {} [] (mkStdGen 0)

theorem Scripts.read_nil_ne_ok (path content : String) : Scripts.read [] path ≠ .ok content := by
  intro opened
  unfold Scripts.read at opened
  dsimp only [List.lookup_nil] at opened
  repeat' split at opened
  all_goals cases opened

theorem enclosed_outset : outset.Enclosed := by
  apply enclosed_start
  intro name content tree opened
  exact absurd opened (Scripts.read_nil_ne_ok name content)

theorem call_signal_iff_own : outset.Enclosed ∧
    ∀ signal, (eval 10 (.call leavingOwnLoop [.number (.whole 5) default] default)
      (.program Store.globalScope) outset).1 ≠ .signal signal :=
  ⟨enclosed_outset, ((call_signal_iff 9 default rfl rfl rfl).2 enclosed_outset (by decide)).1⟩

/-- A `BREAK` in a procedure is sent on to the caller. -/
theorem call_sends_break : ∃ ref called procedure,
    eval 9 leavingCallersLoop (.program Store.globalScope) outset = (.value ref, called) ∧
    (called.store.object ref).datum = .procedure procedure ∧
    Evaluator.all (eval 9) (.program Store.globalScope) [] called = (.value [], called) ∧
    (eval 10 (.call leavingCallersLoop [] default) (.program Store.globalScope) outset).1 =
      .signal .breaking :=
  ⟨_, _, _, rfl, rfl, rfl, rfl⟩

example :
    (outset.run ⟨"",
      "PROCEDURE f() \x7b BREAK \x7d\nREPEAT 3 TIMES \x7b DISPLAY(1)\nf() \x7d"⟩).2.output =
      "1\n" := by
  decide +kernel

end Pseudocode
