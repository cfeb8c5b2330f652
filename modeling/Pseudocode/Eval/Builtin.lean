import Pseudocode.Eval.Basic
import Pseudocode.Number.Read
import Pseudocode.Store.Snapshot

/-!
# What the built-in procedures do

A procedure gets its arguments after their number has been checked.  Errors are reported at the
call, in the activation of the procedure itself.
-/

namespace Pseudocode

/-- Where a built-in procedure is at work. -/
structure Site where
  /-- The call. -/
  span : Span
  /-- The activation of the procedure. -/
  frame : Frame

namespace Site

/-- End with an error at the call. -/
def fail {α : Type} (site : Site) (problem : RuntimeProblem) : Eval α :=
  Eval.fail problem (some site.frame) (some site.span)

/-- The storage of an argument that should be a list. -/
def listArgument (site : Site) (ref : Ref) (problem : RuntimeProblem) : Eval StorageId := do
  match (← Eval.object ref).datum with
  | .list storage => return storage
  | _ => site.fail problem

/-- An argument that should be a number. -/
def numberArgument (site : Site) (ref : Ref) (problem : RuntimeProblem) : Eval Number := do
  match (← Eval.object ref).datum with
  | .number value => return value
  | _ => site.fail problem

end Site

namespace Builtin

/-- The value of a line of input: a number if it reads as one, which is whole if it can be, and
otherwise the line itself. -/
def inputDatum (line : String) : Datum :=
  match Number.ofLine? line.toList with
  | none => .text line
  | some x =>
      match Number.Binary.ofFloat x with
      | .finite negative mantissa exponent =>
          if Number.isWhole mantissa exponent then
            .number (.whole (Number.truncate negative mantissa exponent))
          else .number (.real x)
      | _ => .number (.real x)

/-- The place before which an insertion at an index puts its value; an index beyond an end of the
list means that end. -/
def insertionPlace (length : Nat) (index : Int) : Nat :=
  if index < 0 then (index + length).toNat else min index.toNat length

/-- An index for an insertion. -/
def insertionIndex : Number → Except Fault Int
  | .whole n => if Datum.fitsIndex n then .ok n else .error .indexTooLarge
  | _ => .error .indexNotWhole

/-- Put a value before a place. -/
def insertAt (elements : Array Ref) (place : Nat) (value : Ref) : Array Ref :=
  elements.insertIdxIfInBounds place value

/-- The directions that a program can ask for. -/
def directionNames : List String := ["FORWARD", "RIGHT", "LEFT", "BACKWARD"]

/-- Run a script and report its failure at the call. -/
def runScript (site : Site) (name : String) (script : Eval Unit) : Eval Unit :=
  fun w =>
    match script w with
    | (.error diagnostic, after) =>
        match diagnostic.render with
        | .ok report => site.fail (.scriptFailed name report) after
        | .error fault => (.fault fault, after)
    | ending => ending

/-- Let a built-in procedure do its work.  `runSource` runs a program in the main scope. -/
def perform (runSource : Source → Eval Unit) (site : Site) : Builtin → List Ref → Eval Ref
  | display, [value] => do
      let snapshot ← Eval.fromStore fun store => store.snapshot value
      Eval.print ((← Eval.ofExcept snapshot.text?) ++ "\n")
      return Store.nullRef
  | input, [] => do
      Eval.fresh (inputDatum (← Eval.readLine)).object
  | random, [low, high] => do
      let low ← site.numberArgument low .firstNotNumber
      let high ← site.numberArgument high .secondNotNumber
      Eval.fresh (Datum.number (.whole (← Eval.draw low high))).object
  | clear, [] => return Store.nullRef
  | append, [list, value] => do
      let storage ← site.listArgument list .firstNotList
      Eval.modifyStore fun store => store.updateElements storage (·.push value)
      return Store.nullRef
  | insert, [list, index, value] => do
      let storage ← site.listArgument list .firstNotList
      let index ← Eval.ofExcept (insertionIndex (← site.numberArgument index .secondNotNumber))
      Eval.modifyStore fun store => store.updateElements storage fun elements =>
        insertAt elements (insertionPlace elements.size index) value
      return Store.nullRef
  | remove, [list, index] => do
      let storage ← site.listArgument list .firstNotList
      let index ← site.numberArgument index .secondNotNumber
      let elements ← Eval.fromStore fun store => store.elements storage
      match listIndex? elements.size index with
      | none => site.fail .removeOutOfBounds
      | some place =>
          match elements[place]? with
          | none => site.fail .removeOutOfBounds
          | some element =>
              Eval.modifyStore fun store =>
                store.updateElements storage (·.eraseIdxIfInBounds place)
              return element
  | length, [list] => do
      let storage ← site.listArgument list .notList
      let elements ← Eval.fromStore fun store => store.elements storage
      Eval.fresh (Datum.number (.whole elements.size)).object
  | createGrid, [] => do
      Eval.command (some site.span) Robot.createGrid
      return Store.nullRef
  | moveForward, [] => do
      Eval.command (some site.span) Robot.moveForward
      return Store.nullRef
  | rotateLeft, [] => do
      Eval.command (some site.span) Robot.rotateLeft
      return Store.nullRef
  | rotateRight, [] => do
      Eval.command (some site.span) Robot.rotateRight
      return Store.nullRef
  | canMove, [direction] => do
      match (← Eval.object direction).datum with
      | .text name =>
          if directionNames.contains name then
            let free ← Eval.command none fun robot => robot.canMove name
            Eval.fresh (Datum.truth free).object
          else site.fail .notDirection
      | _ => site.fail .notDirection
  | run, [name] => do
      match (← Eval.object name).datum with
      | .text name =>
          let scripts : Scripts ← fun w => (.value w.scripts, w)
          match scripts.read name with
          | .error obstacle => site.fail (.scriptNotLoaded name (obstacle.message name))
          | .ok content =>
              runScript site name (runSource ⟨name, content⟩)
              return Store.nullRef
      | _ => site.fail .notText
  | _, _ => Eval.abort .wrongArity

end Builtin
end Pseudocode
