import Pseudocode.Eval.Builtin

/-!
# Operations on scalars

Numbers, truth values and texts are scalars: nothing in the store hangs on them.  An operation that
has no list on its left gives a scalar, if it gives anything, and so does a line of input.
-/

namespace Pseudocode
namespace Datum

/-- Whether a datum is a number, a truth value or a text. -/
def isScalar : Datum → Bool
  | number _ => true
  | truth _ => true
  | text _ => true
  | _ => false

variable {value : Datum}

theorem ne_bare_of_isScalar (scalar : value.isScalar = true) : value ≠ .bare := by
  rintro rfl
  cases scalar

theorem isScalar_ofNumber {result : Except Fault Number} (run : ofNumber result = .ok value) :
    value.isScalar = true := by
  cases result <;> cases run
  rfl

theorem isScalar_ofOrder {result : Except Fault (Option Ordering)} {holds : Ordering → Bool}
    (run : ofOrder result holds = .ok value) : value.isScalar = true := by
  cases result <;> cases run
  rfl

theorem isScalar_repeatText {text : String} {times : Number}
    (run : repeatText text times = .ok value) : value.isScalar = true := by
  unfold repeatText at run
  split at run
  · repeat' split at run
    all_goals cases run
    all_goals rfl
  · cases run

theorem isScalar_numberOperation {a b : Number} {op : BinaryOp}
    (run : numberOperation a b op = .ok value) : value.isScalar = true := by
  cases op with
  | add | sub | mul | pow => exact isScalar_ofNumber run
  | div | mod =>
      rw [numberOperation] at run
      split at run
      · cases run
      · exact isScalar_ofNumber run
  | equal | notEqual =>
      cases run
      rfl
  | less | greater | lessEqual | greaterEqual => exact isScalar_ofOrder run
  | and | or => cases run

theorem isScalar_truthOperation {a b : Bool} {op : BinaryOp}
    (run : truthOperation a b op = .ok value) : value.isScalar = true := by
  cases op with
  | add | sub | mul =>
      rw [truthOperation] at run
      exact isScalar_ofNumber run
  | div =>
      rw [truthOperation] at run
      split at run
      · exact isScalar_ofNumber run
      · cases run
  | equal | notEqual | and | or =>
      cases run
      rfl
  | mod | pow | less | greater | lessEqual | greaterEqual => cases run

theorem isScalar_scalarOperation {d e : Datum} {op : BinaryOp}
    (run : d.scalarOperation op e = .ok value) : value.isScalar = true := by
  unfold scalarOperation at run
  split at run
  · exact isScalar_numberOperation run
  · exact isScalar_truthOperation run
  · split at run <;> cases run
    rfl
  · split at run
    · exact isScalar_repeatText run
    · cases run
  · cases run

end Datum

theorem Builtin.isScalar_inputDatum (line : String) :
    (Builtin.inputDatum line).isScalar = true := by
  unfold Builtin.inputDatum
  repeat' split
  all_goals rfl

end Pseudocode
