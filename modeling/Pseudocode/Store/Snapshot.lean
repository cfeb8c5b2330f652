import Pseudocode.Store

/-!
# Snapshots

A snapshot is a value with all that is in it, free of the store.  A list that contains itself is cut
off where it comes round again.  Texts shown to the user are texts of snapshots.
-/

namespace Pseudocode

/-- A value with its contents at every depth. -/
inductive Snapshot where
  | number (value : Number)
  | truth (value : Bool)
  | text (value : String)
  | list (elements : List Snapshot)
  /-- A list that is already being looked at. -/
  | cycle
  | procedure (name : String) (parameters : List String)
  | builtin (value : Builtin)
  | bare

/-- The snapshot of an object, at most `fuel` lists deep; `path` holds the storages of the lists
around it. -/
def Store.snapshotWithin (s : Store) : Nat → List StorageId → Ref → Snapshot
  | 0, _, _ => .cycle
  | fuel + 1, path, ref =>
      match s.datum ref with
      | .number value => .number value
      | .truth value => .truth value
      | .text value => .text value
      | .procedure value => .procedure value.name value.parameters
      | .builtin value => .builtin value
      | .bare => .bare
      | .list storage =>
          if path.contains storage then .cycle
          else
            .list ((s.elements storage).toList.map (s.snapshotWithin fuel (storage :: path)))

/-- The snapshot of an object.  The lists around an object have different storages, so their number
bounds the depth. -/
def Store.snapshot (s : Store) (ref : Ref) : Snapshot :=
  s.snapshotWithin (s.storages.size + 2) [] ref

namespace Snapshot

mutual

/-- Whether a list in a snapshot is cut off. -/
def hasCycle : Snapshot → Bool
  | cycle => true
  | list elements => anyCycle elements
  | _ => false

/-- Whether a list in one of the snapshots is cut off. -/
def anyCycle : List Snapshot → Bool
  | [] => false
  | first :: rest => first.hasCycle || anyCycle rest

end

/-- Join texts with commas between them. -/
def commaJoin (texts : List String) : String :=
  String.intercalate ", " texts

mutual

/-- The text of a value: the elements of a list are not enclosed by anything. -/
def text? : Snapshot → Except Fault String
  | number value => value.text
  | truth value => .ok (truthText value)
  | text value => .ok value
  | list elements => do return commaJoin (← texts elements)
  | cycle => .error .exhausted
  | procedure name _ => .ok s!"<function {name}>"
  | builtin value => .ok s!"<built-in function {value.name}>"
  | bare => .ok "<value>"

/-- The texts of values. -/
def texts : List Snapshot → Except Fault (List String)
  | [] => .ok []
  | first :: rest => do return (← text? first) :: (← texts rest)

end

/-- The text of a result: brackets enclose a list, but not the lists in it. -/
def resultText (snapshot : Snapshot) : Except Fault String :=
  match snapshot with
  | list elements => do return "[" ++ commaJoin (← texts elements) ++ "]"
  | text value => .ok ("\"" ++ value ++ "\"")
  | other => text? other

end Snapshot
end Pseudocode
