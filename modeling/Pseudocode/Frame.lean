import Pseudocode.Source

/-!
# Frames

A frame says in which activation a piece of code runs: in the main program or in a call of a
procedure.  A call remembers the frame it was made from and the place where it was made, so an error
can show the whole way to it.
-/

namespace Pseudocode

/-- The number of a scope in the store. -/
structure ScopeId where
  /-- The number. -/
  index : Nat
  deriving DecidableEq, Repr, Inhabited

/-- An activation: the main program, or a call. -/
inductive Frame where
  /-- The main program with its scope. -/
  | program (scope : ScopeId)
  /-- A call of a procedure, made at a place in another activation. -/
  | call (procedure : String) (entry : Position) (caller : Frame) (scope : ScopeId)
  deriving Repr, Inhabited

namespace Frame

/-- The scope in which the activation looks up names and binds them. -/
def scope : Frame → ScopeId
  | program scope => scope
  | call _ _ _ scope => scope

/-- The name of the activation in messages. -/
def name : Frame → String
  | program _ => "<program>"
  | call procedure _ _ _ => procedure

/-- One line of a trace. -/
def traceLine (place : Position) (name : String) : String :=
  s!"     File {place.source.name}, line {place.line + 1}, in {name}\n"

/-- The way from the main program to a place in the activation, one line each. -/
def trace : Frame → Position → String
  | program _, place => traceLine place "<program>"
  | call procedure entry caller _, place => caller.trace entry ++ traceLine place procedure

end Frame
end Pseudocode
