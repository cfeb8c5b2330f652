/-!
# Built-in procedures

The procedures that every program can call, with the names of their parameters.  Messages use a
procedure's own name; programs call it by the name it is bound to.
-/

namespace Pseudocode

/-- The built-in procedures. -/
inductive Builtin where
  | display
  | input
  | random
  | clear
  | append
  | insert
  | remove
  | length
  | createGrid
  | moveForward
  | rotateLeft
  | rotateRight
  | canMove
  | run
  deriving DecidableEq, Repr, Inhabited

namespace Builtin

/-- All built-in procedures, in the order in which they are bound. -/
def all : List Builtin :=
  [display, input, random, clear, append, insert, remove, length, createGrid, moveForward,
    rotateLeft, rotateRight, canMove, run]

/-- A procedure's own name. -/
def name : Builtin → String
  | display => "display"
  | input => "input"
  | random => "random"
  | clear => "clear"
  | append => "append"
  | insert => "insert"
  | remove => "remove"
  | length => "length"
  | createGrid => "create_grid"
  | moveForward => "move_forward"
  | rotateLeft => "rotate_left"
  | rotateRight => "rotate_right"
  | canMove => "can_move"
  | run => "run"

/-- The name that programs call a procedure by. -/
def globalName : Builtin → String
  | display => "DISPLAY"
  | input => "INPUT"
  | random => "RANDOM"
  | clear => "CLEAR"
  | append => "APPEND"
  | insert => "INSERT"
  | remove => "REMOVE"
  | length => "LENGTH"
  | createGrid => "CREATE_GRID"
  | moveForward => "MOVE_FORWARD"
  | rotateLeft => "ROTATE_LEFT"
  | rotateRight => "ROATE_RIGHT"
  | canMove => "CAN_MOVE"
  | run => "RUN"

/-- The parameters of a procedure. -/
def parameters : Builtin → List String
  | display => ["value"]
  | input => []
  | random => ["min_value", "max_value"]
  | clear => []
  | append => ["list", "value"]
  | insert => ["list", "index", "value"]
  | remove => ["list", "index"]
  | length => ["list"]
  | createGrid => []
  | moveForward => []
  | rotateLeft => []
  | rotateRight => []
  | canMove => ["direction"]
  | run => ["fn"]

end Builtin
end Pseudocode
