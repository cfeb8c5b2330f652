import Pseudocode.Fault
import Pseudocode.Frame

/-!
# Scopes

A scope binds names and may have a parent, in which names are looked up that it does not bind.  A
name can also be bound to nothing, which sends the lookup on to the parent as well.  Scopes live in
an array and are named by their place in it; a parent is always older than its children.
-/

namespace Pseudocode

/-- The bindings of one scope. -/
abbrev Bindings (α : Type) : Type := List (String × Option α)

namespace Bindings

variable {α : Type}

/-- The value bound to a name. -/
def get? (bindings : Bindings α) (name : String) : Option α :=
  (bindings.lookup name).join

/-- Bind a name, in place of an earlier binding of it. -/
def set (bindings : Bindings α) (name : String) (value : Option α) : Bindings α :=
  match bindings with
  | [] => [(name, value)]
  | (other, old) :: rest =>
      if other = name then (name, value) :: rest else (other, old) :: set rest name value

theorem get?_set_self (bindings : Bindings α) (name : String) (value : Option α) :
    (bindings.set name value).get? name = value := by
  induction bindings with
  | nil => simp [set, get?]
  | cons binding rest ih =>
      obtain ⟨other, old⟩ := binding
      by_cases same : other = name
      · simp [set, get?, same]
      · have differs : (name == other) = false := by simpa using fun h => same h.symm
        simpa [set, get?, List.lookup_cons, same, differs] using ih

theorem get?_set_of_ne (bindings : Bindings α) {name other : String} (value : Option α)
    (ne : other ≠ name) : (bindings.set name value).get? other = bindings.get? other := by
  have differs : (other == name) = false := by simpa using ne
  induction bindings with
  | nil => simp [set, get?, List.lookup_cons, differs]
  | cons binding rest ih =>
      obtain ⟨first, old⟩ := binding
      by_cases same : first = name
      · simp [set, get?, List.lookup_cons, same, differs]
      · cases hit : other == first with
        | true => simp [set, get?, List.lookup_cons, same, hit]
        | false => simpa [set, get?, List.lookup_cons, same, hit] using ih

/-- Whether a name is bound, be it to nothing. -/
def has (bindings : Bindings α) (name : String) : Bool :=
  bindings.any fun binding => binding.1 = name

/-- Remove a name. -/
def remove (bindings : Bindings α) (name : String) : Bindings α :=
  bindings.filter fun binding => binding.1 ≠ name

end Bindings

/-- A scope: its bindings and where else to look. -/
structure Scope (α : Type) where
  /-- The scope to look in for names that are not bound here. -/
  parent : Option ScopeId
  /-- The names bound here. -/
  bindings : Bindings α

/-- All scopes. -/
abbrev Scopes (α : Type) : Type := Array (Scope α)

namespace Scopes

variable {α : Type}

/-- A new scope without bindings. -/
def push (scopes : Scopes α) (parent : Option ScopeId) : ScopeId × Scopes α :=
  (⟨scopes.size⟩, Array.push scopes ⟨parent, []⟩)

/-- The names bound in a scope itself. -/
def own (scopes : Scopes α) (id : ScopeId) : Bindings α :=
  match scopes[id.index]? with
  | some scope => scope.bindings
  | none => []

/-- The value of a name, looked up through at most `fuel` scopes. -/
def findWithin (scopes : Scopes α) (name : String) : Nat → ScopeId → Option α
  | 0, _ => none
  | fuel + 1, id =>
      match scopes[id.index]? with
      | none => none
      | some scope =>
          match scope.bindings.get? name with
          | some value => some value
          | none => scope.parent.bind (findWithin scopes name fuel)

/-- The value of a name in a scope or, failing that, in its ancestors. -/
def find? (scopes : Scopes α) (id : ScopeId) (name : String) : Option α :=
  findWithin scopes name scopes.size id

/-- Change the bindings of one scope. -/
def update (scopes : Scopes α) (id : ScopeId) (change : Bindings α → Bindings α) : Scopes α :=
  scopes.modify id.index fun scope => { scope with bindings := change scope.bindings }

/-- Bind a name in a scope. -/
def set (scopes : Scopes α) (id : ScopeId) (name : String) (value : Option α) : Scopes α :=
  scopes.update id fun bindings => bindings.set name value

/-- Remove a name from a scope; it must be bound there. -/
def remove (scopes : Scopes α) (id : ScopeId) (name : String) : Except Fault (Scopes α) :=
  if (scopes.own id).has name then .ok (scopes.update id fun bindings => bindings.remove name)
  else .error (.unboundName name)

end Scopes
end Pseudocode
