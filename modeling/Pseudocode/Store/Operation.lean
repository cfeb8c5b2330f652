import Pseudocode.Diagnostic
import Pseudocode.Number.Power
import Pseudocode.Store

/-!
# Operations on values

Most operations take the data of two values and give a new one, which belongs to the activation of
the left operand.  The operators on lists are different: they change the storage of the left
operand, which the result then shares, or they give an element itself.
-/

namespace Pseudocode

/-- Why an operation has no result. -/
inductive Refusal where
  /-- The operation does not exist; this is reported at the left operand. -/
  | illegal
  /-- The right operand is zero and the place of the error. -/
  | divisionByZero
  /-- The right operand is no index of the list and the place of the error. -/
  | outOfBounds
  /-- A fault. -/
  | fault (fault : Fault)

namespace Datum

/-- Whether a value counts as true. -/
def isTrue : Datum → Bool
  | number value => value.isTrue
  | truth value => value
  | text value => !value.isEmpty
  | _ => false

/-- A truth value as a whole number. -/
def truthNumber (b : Bool) : Number :=
  .whole (if b then 1 else 0)

/-- The greatest index that fits into 64 bits with a sign. -/
def greatestIndex : Int := 9223372036854775807

/-- Whether a number fits into an index. -/
def fitsIndex (n : Int) : Bool :=
  -greatestIndex - 1 ≤ n && n ≤ greatestIndex

/-- A text repeated a number of times; zero and negative numbers give the empty text. -/
def repeatText (s : String) (times : Number) : Except Refusal Datum :=
  match times with
  | .whole n =>
      if !fitsIndex n then .error (.fault .indexTooLarge)
      else if n ≤ 0 || s.isEmpty then .ok (.text "")
      else if greatestIndex < n * s.length then .error (.fault .textTooLong)
      else .ok (.text (String.join (List.replicate n.toNat s)))
  | _ => .error (.fault .textTimesFraction)

/-- A computed number as a value. -/
def ofNumber (result : Except Fault Number) : Except Refusal Datum :=
  match result with
  | .ok value => .ok (.number value)
  | .error fault => .error (.fault fault)

/-- A comparison as a value; numbers that cannot be compared satisfy none. -/
def ofOrder (result : Except Fault (Option Ordering)) (holds : Ordering → Bool) :
    Except Refusal Datum :=
  match result with
  | .ok order => .ok (.truth (order.any holds))
  | .error fault => .error (.fault fault)

/-- The operations on two numbers. -/
def numberOperation (a b : Number) : BinaryOp → Except Refusal Datum
  | .add => ofNumber (a.add b)
  | .sub => ofNumber (a.sub b)
  | .mul => ofNumber (a.mul b)
  | .div => if b.isZero then .error .divisionByZero else ofNumber (a.div b)
  | .mod => if b.isZero then .error .divisionByZero else ofNumber (a.mod b)
  | .pow _ => ofNumber (a.pow b)
  | .equal => .ok (.truth (a.equal b))
  | .notEqual => .ok (.truth (!a.equal b))
  | .less => ofOrder (a.order b) (· == .lt)
  | .greater => ofOrder (a.order b) (· == .gt)
  | .lessEqual => ofOrder (a.order b) (· != .gt)
  | .greaterEqual => ofOrder (a.order b) (· != .lt)
  | .and => .error .illegal
  | .or => .error .illegal

/-- The operations on two truth values; arithmetic takes them for one and zero. -/
def truthOperation (a b : Bool) : BinaryOp → Except Refusal Datum
  | .add => ofNumber ((truthNumber a).add (truthNumber b))
  | .sub => ofNumber ((truthNumber a).sub (truthNumber b))
  | .mul => ofNumber ((truthNumber a).mul (truthNumber b))
  | .div => if b then ofNumber ((truthNumber a).div (truthNumber b)) else .error .divisionByZero
  | .equal => .ok (.truth (a == b))
  | .notEqual => .ok (.truth (a != b))
  | .and => .ok (.truth (a && b))
  | .or => .ok (.truth (a || b))
  | _ => .error .illegal

/-- The operations that do not involve a list on the left. -/
def scalarOperation (op : BinaryOp) : Datum → Datum → Except Refusal Datum
  | number a, number b => numberOperation a b op
  | truth a, truth b => truthOperation a b op
  | text a, text b => if op = .add then .ok (.text (a ++ b)) else .error .illegal
  | text a, number b => if op = .mul then repeatText a b else .error .illegal
  | _, _ => .error .illegal

end Datum

/-- The place in a list of a length that an index stands for; negative ones count from the end. -/
def listIndex? (length : Nat) (index : Number) : Option Nat :=
  match index with
  | .whole n =>
      let fromStart := if n < 0 then n + length else n
      if 0 ≤ fromStart && fromStart < length then some fromStart.toNat else none
  | _ => none

namespace Store

/-- The error that belongs to a refusal. -/
def refuse (left right : Object) : Refusal → Stop
  | .illegal => .error ⟨.runtime .illegalOperation left.frame, left.span⟩
  | .divisionByZero => .error ⟨.runtime .divisionByZero left.frame, right.span⟩
  | .outOfBounds => .error ⟨.runtime .outOfBounds left.frame, right.span⟩
  | .fault fault => .fault fault

/-- A copy of an object; the elements of a list are shared. -/
def copy (s : Store) (ref : Ref) : Except Fault Ref × Store :=
  let object := s.object ref
  match object.datum with
  | .bare => (.error .noCopy, s)
  | _ =>
      let (ref, s) := s.alloc object
      (.ok ref, s)

/-- A new object as the result of an operation. -/
def yield (s : Store) (object : Object) : Except Refusal Ref × Store :=
  let (ref, s) := s.alloc object
  (.ok ref, s)

/-- A list operator on a list with the given storage. -/
def listOperation (s : Store) (op : BinaryOp) (left : Object) (storage : StorageId) (right : Ref) :
    Except Refusal Ref × Store :=
  match op, s.datum right with
  | .add, _ => (s.updateElements storage (·.push right)).yield left
  | .sub, .number index =>
      match listIndex? (s.elements storage).size index with
      | some place => (s.updateElements storage (·.eraseIdxIfInBounds place)).yield left
      | none => (.error .outOfBounds, s)
  | .mul, .list other =>
      let appended := s.elements other
      (s.updateElements storage (· ++ appended)).yield left
  | .div, .number index =>
      match (listIndex? (s.elements storage).size index).bind ((s.elements storage)[·]?) with
      | some element => (.ok element, s)
      | none => (.error .outOfBounds, s)
  | _, _ => (.error .illegal, s)

/-- An operation on two objects.  Without a result the store stays as it is. -/
def operate (s : Store) (op : BinaryOp) (left : Object) (right : Ref) :
    Except Refusal Ref × Store :=
  match left.datum with
  | .list storage => s.listOperation op left storage right
  | datum =>
      match datum.scalarOperation op (s.datum right) with
      | .ok value => s.yield ⟨value, none, left.frame⟩
      | .error refusal => (.error refusal, s)

/-- A binary operation. -/
def binary (s : Store) (op : BinaryOp) (left right : Ref) : Except Stop Ref × Store :=
  let leftObject := s.object left
  let rightObject := s.object right
  let (result, s) := s.operate op leftObject right
  (result.mapError (refuse leftObject rightObject), s)

/-- The negation of a truth value. -/
def negate (s : Store) (ref : Ref) : Except Stop Ref × Store :=
  let object := s.object ref
  match object.datum with
  | .truth value =>
      let (ref, s) := s.alloc ⟨.truth (!value), none, object.frame⟩
      (.ok ref, s)
  | _ => (.error (refuse object object .illegal), s)

/-- Start a value without handing over any arguments: only a procedure knows that some are
missing. -/
def startBare (s : Store) (ref : Ref) : Stop :=
  let object := s.object ref
  match object.datum with
  | .procedure _ => .fault .wrongArity
  | .builtin _ => .fault .wrongArity
  | _ => refuse object object .illegal

end Store
end Pseudocode
