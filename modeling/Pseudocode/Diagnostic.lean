import Pseudocode.Fault
import Pseudocode.Frame
import Pseudocode.Source.Underline

/-!
# Errors of a program

An error has a cause and usually a place.  The causes are grouped by the part of the interpreter
that finds them: the scanner, the parser, the evaluator and the robot.  Their wording is kept in
one function per group.
-/

namespace Pseudocode

/-- What the parser was looking for. -/
inductive Expectation where
  /-- Something that continues an expression. -/
  | operator
  /-- The word that starts a branch. -/
  | branch (spelling : String)
  /-- A word. -/
  | word (spelling : String)
  /-- One bracket or brace. -/
  | bracket (symbol : String)
  /-- A name. -/
  | name
  /-- A count of repetitions. -/
  | count
  /-- A procedure's name or its parameters. -/
  | procedureHead
  /-- Another parameter after a comma. -/
  | parameter
  /-- The end of the parameters or another one. -/
  | parametersEnd
  /-- A parameter or the end of the parameters. -/
  | parametersStart
  /-- The first element of a list or its end. -/
  | firstElement
  /-- Another element of a list or its end. -/
  | listEnd
  /-- Another argument of a call or its end. -/
  | argumentsEnd
  /-- A simple expression. -/
  | atom
  /-- A comparison. -/
  | comparison
  /-- An expression. -/
  | expression
  /-- A statement. -/
  | statement
  /-- A first statement. -/
  | program
  deriving DecidableEq, Repr

/-- The wording of an expectation. -/
def Expectation.message : Expectation → String
  | .operator => "Expected '+', '-', '*', or '/'"
  | .branch spelling => s!"Expected {spelling}"
  | .word spelling => s!"Expected '{spelling}'"
  | .bracket symbol => s!"Expected '{symbol}'"
  | .name => "Expected identifier"
  | .count => "Expected 'UNTIL' or int"
  | .procedureHead => "Expected identifier or '('"
  | .parameter => "Espected identifier"
  | .parametersEnd => "Expected ',' or ')"
  | .parametersStart => "Expected identifier or ')"
  | .firstElement => "Expected ']', int, float, identifier, expression, '[', or '('"
  | .listEnd => "Expected ',' or ']'"
  | .argumentsEnd => "Expected ',' or ')'"
  | .atom => "Expected int, float, identifier, '[', '(', or expression"
  | .comparison => "Expected int, float, identifier, '+', '-', '(', '[', or 'NOT')"
  | .expression => "Expected int, float, identifier, '+', '-', '[', '(', or 'NOT'"
  | .statement =>
      "Expected 'RETURN', 'CONTINUE', 'BREAK', 'IF', 'WHILE', FOR', 'PROCEDURE', int, float, " ++
        "identifier, '+', '-', '[', '(', or 'NOT'"
  | .program => "Expected 'int, float, identifier, procedure call, or expression'"

/-- What can go wrong while a program runs. -/
inductive RuntimeProblem where
  /-- The operation does not exist for these operands. -/
  | illegalOperation
  /-- The divisor is zero. -/
  | divisionByZero
  /-- A list operator with an index outside the list. -/
  | outOfBounds
  /-- A name without a value. -/
  | undefined (name : String)
  /-- Only lists can be iterated over. -/
  | notIterable
  /-- A call with more arguments than parameters. -/
  | tooManyArguments (excess : Nat) (procedure : String)
  /-- A call with fewer arguments than parameters. -/
  | tooFewArguments (missing : Nat) (procedure : String)
  /-- The first argument should be a number. -/
  | firstNotNumber
  /-- The second argument should be a number. -/
  | secondNotNumber
  /-- The first argument should be a list. -/
  | firstNotList
  /-- The argument should be a list. -/
  | notList
  /-- An element outside the list was to be removed. -/
  | removeOutOfBounds
  /-- The argument should be a direction. -/
  | notDirection
  /-- The argument should be a text. -/
  | notText
  /-- A script that could not be opened. -/
  | scriptNotLoaded (name reason : String)
  /-- A script that ended in an error. -/
  | scriptFailed (name report : String)
  deriving DecidableEq, Repr

/-- The wording of a problem while a program runs. -/
def RuntimeProblem.message : RuntimeProblem → String
  | .illegalOperation => "Illegal operation"
  | .divisionByZero => "Division by zero"
  | .outOfBounds => "Element could not be removed from list because index is out of bounds."
  | .undefined name => s!"'{name}' is not defined"
  | .notIterable => "For loop can only iterate over a list"
  | .tooManyArguments excess procedure =>
      s!"{excess} too many arguments passed into '{procedure}'"
  | .tooFewArguments missing procedure =>
      s!"{missing} too few arguments passed into '{procedure}'"
  | .firstNotNumber => "First argument must be an integer"
  | .secondNotNumber => "Second argument must be an integer"
  | .firstNotList => "First argument must be a list"
  | .notList => "Argument must be a list"
  | .removeOutOfBounds =>
      "Element at this index couldn't be removed because index is out of bounds"
  | .notDirection =>
      "Argument must be one of these valid directions: FORWARD, RIGHT, LEFT, BACKWARD"
  | .notText => "Argument must be a string"
  | .scriptNotLoaded name reason => s!"Failed to load script {name}\n{reason}"
  | .scriptFailed name report => s!"Failed to finish executing script \"{name}\"\n{report}"

/-- What can go wrong with the robot. -/
inductive GridProblem where
  /-- No grid has been confirmed yet. -/
  | notCreated
  /-- The window of the grid was closed. -/
  | runnerClosed
  /-- The grid maker was closed without a grid. -/
  | makerClosed
  /-- The grid has no turtle. -/
  | noTurtle
  /-- The move leaves the grid. -/
  | outOfBounds
  /-- Another turtle is in the way. -/
  | occupied
  /-- The move ends on a wall. -/
  | wall
  deriving DecidableEq, Repr

/-- The wording of a problem with the robot. -/
def GridProblem.message : GridProblem → String
  | .notCreated =>
      "Grid has not yet been created. To create the grid, try calling the function " ++
        "'CREATE_GRID()' at beginning of the file. "
  | .runnerClosed => "User closed grid runner"
  | .makerClosed => "User closed grid maker"
  | .noTurtle => "No turtle found on grid."
  | .outOfBounds => "Robot is trying to move out of bounds."
  | .occupied => "Target occupied by another turtle."
  | .wall => "Robot ran into a wall."

/-- The cause of an error. -/
inductive Problem where
  /-- A character that starts no token. -/
  | illegalCharacter (c : Char)
  /-- An exclamation mark without an equals sign. -/
  | loneExclamation
  /-- The parser found something else than it looked for. -/
  | expected (what : Expectation)
  /-- The program ends inside an expression. -/
  | endOfFile
  /-- The program failed in an activation; operations outside any have none. -/
  | runtime (what : RuntimeProblem) (frame : Option Frame)
  /-- The robot failed. -/
  | grid (what : GridProblem)
  deriving Repr

namespace Problem

/-- The name of the kind of error. -/
def kind : Problem → String
  | illegalCharacter _ => "Illegal Character"
  | loneExclamation => "Expected Character"
  | expected _ => "Invalid Syntax"
  | endOfFile => "End of File"
  | runtime _ _ => "Runtime Error"
  | grid _ => "Grid Error"

/-- The wording of the cause. -/
def details : Problem → String
  | illegalCharacter c => s!"'{c}'"
  | loneExclamation => "'=' (after '!')"
  | expected what => what.message
  | endOfFile => "Reached end of file"
  | runtime what _ => what.message
  | grid what => what.message

end Problem

/-- An error of a program. -/
structure Diagnostic where
  /-- The cause. -/
  problem : Problem
  /-- The place, unless the error arose outside any source. -/
  span : Option Span
  deriving Repr

namespace Diagnostic

/-- The whole message: the kind of error, its cause, its place and the underlined source.  An error
of a running program starts with the way to it instead of naming its place. -/
def render (d : Diagnostic) : Except Fault String :=
  match d.span with
  | none => .error .noPosition
  | some span =>
      let headline := s!"{d.problem.kind}: {d.problem.details}\n"
      match d.problem with
      | .runtime _ frame =>
          let way := (frame.map fun f => f.trace span.start).getD ""
          let opening := "Traceback (most recent call last):\n"
          .ok (opening ++ way ++ headline ++ "\n\n" ++ span.underline)
      | _ =>
          let place := s!"File {span.start.source.name}, line {span.start.line + 1}"
          .ok (headline ++ place ++ "\n\n" ++ span.underline)

/-- An error of the parser. -/
def expected (what : Expectation) (span : Span) : Diagnostic :=
  ⟨.expected what, some span⟩

end Diagnostic

/-- Why a piece of work ends without a result. -/
inductive Stop where
  /-- An error of the program. -/
  | error (diagnostic : Diagnostic)
  /-- A fault. -/
  | fault (fault : Fault)
  deriving Repr

end Pseudocode
