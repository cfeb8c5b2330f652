import Pseudocode.Builtin
import Pseudocode.Scope
import Pseudocode.Tree

/-!
# The store

Values live in a store.  A value is an object with a datum, the stretch of source it was last
computed at and the activation it belongs to; the last two only serve messages and calls, but they
can be changed through every name of the object.  The elements of a list live in a storage of their
own, which a copy of the list shares.
-/

namespace Pseudocode

/-- The number of an object in the store. -/
structure Ref where
  /-- The number. -/
  index : Nat
  deriving DecidableEq, Repr, Inhabited

/-- The number of a storage for elements. -/
structure StorageId where
  /-- The number. -/
  index : Nat
  deriving DecidableEq, Repr, Inhabited

/-- A procedure of a program. -/
structure Procedure where
  name : String
  parameters : List String
  body : Node

/-- The name of a procedure that was given none. -/
def Procedure.unnamed : String := "<anonymous>"

/-- What an object is. -/
inductive Datum where
  | number (value : Number)
  | truth (value : Bool)
  | text (value : String)
  | list (storage : StorageId)
  | procedure (value : Procedure)
  | builtin (value : Builtin)
  /-- A value that is nothing in particular and supports no operation. -/
  | bare

/-- A value in the store. -/
structure Object where
  /-- What it is. -/
  datum : Datum
  /-- Where it was last computed. -/
  span : Option Span
  /-- The activation it belongs to. -/
  frame : Option Frame

/-- An object without a place. -/
def Datum.object (datum : Datum) : Object := ⟨datum, none, none⟩

instance : Inhabited Object := ⟨Datum.bare.object⟩

/-- The objects, the elements of lists and the scopes. -/
structure Store where
  /-- All objects. -/
  objects : Array Object
  /-- The elements of lists. -/
  storages : Array (Array Ref)
  /-- The scopes. -/
  scopes : Scopes Ref

namespace Store

/-- The object at a reference. -/
def object (s : Store) (ref : Ref) : Object :=
  s.objects.getD ref.index default

/-- The datum of an object. -/
def datum (s : Store) (ref : Ref) : Datum :=
  (s.object ref).datum

/-- The elements in a storage. -/
def elements (s : Store) (storage : StorageId) : Array Ref :=
  s.storages.getD storage.index #[]

/-- A new object. -/
def alloc (s : Store) (object : Object) : Ref × Store :=
  (⟨s.objects.size⟩, { s with objects := s.objects.push object })

/-- A new storage. -/
def allocStorage (s : Store) (elements : Array Ref) : StorageId × Store :=
  (⟨s.storages.size⟩, { s with storages := s.storages.push elements })

/-- Change the elements in a storage. -/
def updateElements (s : Store) (storage : StorageId) (change : Array Ref → Array Ref) : Store :=
  { s with storages := s.storages.modify storage.index change }

/-- Set the place of an object. -/
def setSpan (s : Store) (ref : Ref) (span : Span) : Store :=
  { s with objects := s.objects.modify ref.index fun o => { o with span := some span } }

/-- Set the activation of an object. -/
def setFrame (s : Store) (ref : Ref) (frame : Frame) : Store :=
  { s with objects := s.objects.modify ref.index fun o => { o with frame := some frame } }

/-- The value of a name in a scope or its ancestors. -/
def find? (s : Store) (scope : ScopeId) (name : String) : Option Ref :=
  s.scopes.find? scope name

/-- Bind a name in a scope. -/
def bind (s : Store) (scope : ScopeId) (name : String) (ref : Ref) : Store :=
  { s with scopes := s.scopes.set scope name (some ref) }

/-- A new scope inside another one. -/
def pushScope (s : Store) (parent : ScopeId) : ScopeId × Store :=
  let (scope, scopes) := s.scopes.push (some parent)
  (scope, { s with scopes := scopes })

/-! ## The store at start-up -/

/-- The scope of the main program. -/
def globalScope : ScopeId := ⟨0⟩

/-- The number zero that stands for the absence of a value; there is only one such object. -/
def nullRef : Ref := ⟨0⟩

/-- What is bound at start-up. -/
def startGlobals : List (String × Datum) :=
  ("NULL", .number (.whole 0)) ::
    Builtin.all.map (fun b => (b.globalName, .builtin b)) ++ [("FORWARD", .text "FORWARD")]

/-- The names bound at start-up with their objects. -/
def startBindings : List (String × Ref) :=
  startGlobals.zipIdx.map fun (binding, index) => (binding.1, ⟨index⟩)

/-- The store at start-up. -/
def start : Store where
  objects := (startGlobals.map fun binding => binding.2.object).toArray
  storages := #[]
  scopes := #[⟨none, startBindings.map fun binding => (binding.1, some binding.2)⟩]

/-- The names of the main program that are not bound as they were at start-up. -/
def changedGlobals (s : Store) : List (String × Ref) :=
  (s.scopes.own globalScope).filterMap fun (name, bound) =>
    match bound with
    | some ref => if startBindings.lookup name = some ref then none else some (name, ref)
    | none => none

end Store
end Pseudocode
