import Pseudocode.Fault

/-!
# Documents

A document is the data that a grid file holds: null, truth values, whole numbers, doubles, texts,
arrays and objects.  A text is a list of code points, because an escape may name a surrogate that
belongs to no character.  Truth values count as the whole numbers zero and one.
-/

namespace Pseudocode

/-- A document. -/
inductive Json where
  | null
  | bool (value : Bool)
  | int (value : Int)
  | real (value : Float)
  /-- A text, as code points. -/
  | text (points : List Nat)
  | array (items : List Json)
  /-- An object, as its properties in the order in which they first appeared. -/
  | object (properties : List (List Nat × Json))

namespace Json

instance : Inhabited Json := ⟨.null⟩

/-- The code points of a text. -/
def codePoints (s : String) : List Nat :=
  s.toList.map Char.toNat

/-- The document of a text. -/
def ofString (s : String) : Json :=
  .text (codePoints s)

/-- Whether a document is a given text. -/
def isText (s : String) : Json → Bool
  | text points => points = codePoints s
  | _ => false

/-- The kind of a document. -/
def kind : Json → DataKind
  | null => .null
  | bool _ => .boolean
  | int _ => .whole
  | real _ => .real
  | text _ => .text
  | array _ => .array
  | object _ => .object

/-- Whether a document counts as a number. -/
def isNumber : Json → Bool
  | bool _ => true
  | int _ => true
  | real _ => true
  | _ => false

/-- The length of an array, a text or an object. -/
def length : Json → Except Fault Nat
  | text points => .ok points.length
  | array items => .ok items.length
  | object properties => .ok properties.length
  | other => .error (.noLength other.kind)

/-- What a walk over a document meets: the items of an array, the characters of a text or the
property names of an object. -/
def members : Json → Except Fault (List Json)
  | text points => .ok (points.map fun point => .text [point])
  | array items => .ok items
  | object properties => .ok (properties.map fun property => .text property.1)
  | other => .error (.noLength other.kind)

/-- The item at an index.  The properties of an object have names and never an index. -/
def item (j : Json) (index : Nat) : Except Fault Json :=
  match j with
  | text points =>
      match points[index]? with
      | some point => .ok (.text [point])
      | none => .error .textIndex
  | array items =>
      match items[index]? with
      | some value => .ok value
      | none => .error .listIndex
  | object _ => .error (.missingKey (toString index))
  | other => .error (.noItems other.kind)

/-- Replace the item at an index of an array. -/
def setItem (j : Json) (index : Nat) (value : Json) : Except Fault Json :=
  match j with
  | array items =>
      if index < items.length then .ok (.array (items.set index value)) else .error .listIndex
  | other => .error (.noItemAssignment other.kind)

end Json
end Pseudocode
