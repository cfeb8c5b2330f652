import Pseudocode.Number.Draw
import Pseudocode.Robot
import Pseudocode.Script
import Pseudocode.Store.Operation

/-!
# Evaluations

An evaluation changes the world and ends in one of four ways: with a value, with a signal for a
surrounding loop or call, with an error of the program, or with a fault.  The world is kept however
it ends.
-/

namespace Pseudocode

/-- All that a running program can see and change. -/
structure World where
  /-- The values. -/
  store : Store
  /-- The lines of input that have not been read yet. -/
  input : List String
  /-- What has been printed. -/
  output : String
  /-- The robot. -/
  robot : Robot
  /-- The scripts in the working directory. -/
  scripts : Scripts
  /-- The source of random draws. -/
  generator : StdGen

/-- A message to a surrounding loop or call. -/
inductive Signal where
  /-- End the call with this value. -/
  | returning (value : Ref)
  /-- Leave the loop. -/
  | breaking
  /-- Go on with the next round of the loop. -/
  | continuing
  deriving DecidableEq, Repr

/-- How an evaluation ends. -/
inductive Ending (α : Type) where
  | value (result : α)
  | signal (signal : Signal)
  | error (diagnostic : Diagnostic)
  | fault (fault : Fault)

/-- An evaluation. -/
def Eval (α : Type) : Type :=
  World → Ending α × World

namespace Eval

variable {α β : Type}

/-- End with a value. -/
@[inline]
protected def pure (result : α) : Eval α :=
  fun w => (.value result, w)

/-- Go on with the value of an evaluation; any other ending is final. -/
@[inline]
protected def bind (first : Eval α) (next : α → Eval β) : Eval β :=
  fun w =>
    match first w with
    | (.value result, after) => next result after
    | (.signal signal, after) => (.signal signal, after)
    | (.error diagnostic, after) => (.error diagnostic, after)
    | (.fault fault, after) => (.fault fault, after)

@[always_inline]
instance : Monad Eval where
  pure := Eval.pure
  bind := Eval.bind

instance : LawfulMonad Eval :=
  LawfulMonad.mk' Eval
    (by
      intro α first
      funext w
      change Eval.bind first (fun result => Eval.pure result) w = first w
      unfold Eval.bind
      cases first w with
      | mk ending after => cases ending <;> rfl)
    (by intro α β result next; rfl)
    (by
      intro α β γ first second third
      funext w
      change Eval.bind (Eval.bind first second) third w =
        Eval.bind first (fun result => Eval.bind (second result) third) w
      unfold Eval.bind
      cases first w with
      | mk ending after => cases ending <;> rfl)

/-- End with a signal. -/
def send (signal : Signal) : Eval α :=
  fun w => (.signal signal, w)

/-- End with an error. -/
def raise (diagnostic : Diagnostic) : Eval α :=
  fun w => (.error diagnostic, w)

/-- End with a fault. -/
def abort (fault : Fault) : Eval α :=
  fun w => (.fault fault, w)

/-- End with what stopped a piece of work. -/
def halt : Stop → Eval α
  | .error diagnostic => raise diagnostic
  | .fault fault => abort fault

/-- End with an error of the running program. -/
def fail (problem : RuntimeProblem) (frame : Option Frame) (span : Option Span) : Eval α :=
  raise ⟨.runtime problem frame, span⟩

/-- The value of a computation that may have a fault. -/
def ofExcept : Except Fault α → Eval α
  | .ok result => pure result
  | .error fault => abort fault

/-! ## The store -/

/-- Work on the store. -/
@[inline]
def withStore (work : Store → α × Store) : Eval α :=
  fun w =>
    let (result, store) := work w.store
    (.value result, { w with store := store })

/-- Change the store. -/
@[inline]
def modifyStore (change : Store → Store) : Eval Unit :=
  fun w => (.value (), { w with store := change w.store })

/-- Look something up in the store. -/
@[inline]
def fromStore (view : Store → α) : Eval α :=
  fun w => (.value (view w.store), w)

/-- Work on the store that may be stopped. -/
def tryStore (work : Store → Except Stop α × Store) : Eval α := do
  match ← withStore work with
  | .ok result => pure result
  | .error stop => halt stop

/-- A new object. -/
def fresh (object : Object) : Eval Ref :=
  withStore fun store => store.alloc object

/-- A copy of an object. -/
def copied (ref : Ref) : Eval Ref := do
  ofExcept (← withStore fun store => store.copy ref)

/-- The object at a reference. -/
def object (ref : Ref) : Eval Object :=
  fromStore fun store => store.object ref

/-- Set the place of an object and give it back. -/
def located (ref : Ref) (span : Span) : Eval Ref := do
  modifyStore fun store => store.setSpan ref span
  return ref

/-- Copy an object for a place in an activation. -/
def takenOver (ref : Ref) (span : Span) (frame : Frame) : Eval Ref := do
  let copy ← copied ref
  modifyStore fun store => (store.setSpan copy span).setFrame copy frame
  return copy

/-! ## Input and output -/

/-- Print a text. -/
def print (text : String) : Eval Unit :=
  fun w => (.value (), { w with output := w.output ++ text })

/-- Read a line. -/
def readLine : Eval String :=
  fun w =>
    match w.input with
    | [] => (.fault .endOfInput, w)
    | line :: rest => (.value line, { w with input := rest })

/-- Draw a random number. -/
def draw (low high : Number) : Eval Int :=
  fun w =>
    match Number.draw w.generator low high with
    | .ok (number, generator) => (.value number, { w with generator := generator })
    | .error fault => (.fault fault, w)

/-- Tell the robot to do something.  A problem is reported at the given place. -/
def command (span : Option Span) (act : Robot → Robot.Answer α) : Eval α :=
  fun w =>
    let answer := act w.robot
    let w := { w with robot := answer.robot, output := w.output ++ answer.output }
    match answer.result with
    | .ok result => (.value result, w)
    | .error (.problem what) => (.error ⟨.grid what, span⟩, w)
    | .error (.fault fault) => (.fault fault, w)

/-! ## Control -/

/-- A call ends with the value that its body returns, and otherwise without a value. -/
def callBody (body : Eval α) : Eval Ref :=
  fun w =>
    match body w with
    | (.value _, after) => (.value Store.nullRef, after)
    | (.signal (.returning result), after) => (.value result, after)
    | (.signal signal, after) => (.signal signal, after)
    | (.error diagnostic, after) => (.error diagnostic, after)
    | (.fault fault, after) => (.fault fault, after)

/-- A round of a loop: whether the loop goes on after it. -/
def round (body : Eval α) : Eval Bool :=
  fun w =>
    match body w with
    | (.value _, after) => (.value true, after)
    | (.signal .continuing, after) => (.value true, after)
    | (.signal .breaking, after) => (.value false, after)
    | (.signal signal, after) => (.signal signal, after)
    | (.error diagnostic, after) => (.error diagnostic, after)
    | (.fault fault, after) => (.fault fault, after)

/-- Make numbered rounds until one of them does not go on, at most `fuel` of them. -/
def rounds (step : Nat → Eval Bool) : Nat → Nat → World → Ending Unit × World
  | 0, _, w => (.fault .exhausted, w)
  | fuel + 1, number, w =>
      match step number w with
      | (.value true, after) => rounds step fuel (number + 1) after
      | (.value false, after) => (.value (), after)
      | (.signal signal, after) => (.signal signal, after)
      | (.error diagnostic, after) => (.error diagnostic, after)
      | (.fault fault, after) => (.fault fault, after)

/-- A loop over numbered rounds, as a value-less evaluation. -/
def loop (fuel : Nat) (step : Nat → Eval Bool) : Eval Ref := do
  (fun w => rounds step fuel 0 w : Eval Unit)
  return Store.nullRef

/-- The value of a program, unless it ends in a signal. -/
def program (body : Eval α) : Eval (Option α) :=
  fun w =>
    match body w with
    | (.value result, after) => (.value (some result), after)
    | (.signal _, after) => (.value none, after)
    | (.error diagnostic, after) => (.error diagnostic, after)
    | (.fault fault, after) => (.fault fault, after)

end Eval
end Pseudocode
