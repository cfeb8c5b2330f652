import Pseudocode.Eval.Node

/-!
# Sessions

A session runs programs one after another in one world.  Between programs the values, the robot and
the scripts stay; every program has its own lines of input and its own output.
-/

namespace Pseudocode

/-- How a program ends. -/
inductive Conclusion where
  /-- With a value, or without one if it ended in a signal. -/
  | value (result : Option Ref)
  | error (diagnostic : Diagnostic)
  | fault (fault : Fault)

namespace World

/-- The world at start-up. -/
def start (robot : Robot) (scripts : Scripts) (generator : StdGen) : World where
  store := Store.start
  input := []
  output := ""
  robot := robot
  scripts := scripts
  generator := generator

/-- The bound on the nesting and on the rounds of loops in a program.  It is out of reach for a
running program, and a program is never nested more deeply than it is long. -/
def limit (source : Source) : Nat :=
  1000000000000000 + source.text.length

/-- Run a program, with a bound on the nesting and on the rounds of loops. -/
def runWithin (fuel : Nat) (w : World) (source : Source) : Conclusion × World :=
  match Evaluator.runSource (eval fuel) source w with
  | (.value result, after) => (.value result, after)
  | (.signal _, after) => (.value none, after)
  | (.error diagnostic, after) => (.error diagnostic, after)
  | (.fault fault, after) => (.fault fault, after)

/-- Run a program. -/
def run (w : World) (source : Source) : Conclusion × World :=
  w.runWithin (limit source) source

/-- Run a program with its own lines of input and an empty output. -/
def runStep (w : World) (source : Source) (input : List String) : Conclusion × World :=
  { w with input := input, output := "" }.run source

/-! ## The prompt -/

/-- What the prompt shows. -/
def prompt : String := ">>>"

/-- The name of what is typed at the prompt. -/
def promptName : String := "<stdn>"

/-- Print a text. -/
def print (w : World) (text : String) : World :=
  { w with output := w.output ++ text }

/-- Run a line typed at the prompt and print its error; a blank line does nothing. -/
def enterLine (w : World) (line : String) : Except Fault Unit × World :=
  if (Text.strip line.toList).isEmpty then (.ok (), w)
  else
    match w.run ⟨promptName, line⟩ with
    | (.value _, after) => (.ok (), after)
    | (.fault fault, after) => (.error fault, after)
    | (.error diagnostic, after) =>
        match diagnostic.render with
        | .ok report => (.ok (), after.print (report ++ "\n"))
        | .error fault => (.error fault, after)

/-- Prompt for a line and run it, again and again, for at most so many lines.  Only a fault ends
this, and the end of the input is one. -/
def converse : Nat → World → Fault × World
  | 0, w => (.endOfInput, w.print prompt)
  | bound + 1, w =>
      let w := w.print prompt
      match w.input with
      | [] => (.endOfInput, w)
      | line :: rest =>
          match enterLine { w with input := rest } line with
          | (.ok (), after) => converse bound after
          | (.error fault, after) => (fault, after)

/-- A conversation over the lines of input; every prompt takes at least one of them. -/
def conversation (w : World) (lines : List String) : Fault × World :=
  converse (lines.length + 1) { w with input := lines, output := "" }

end World
end Pseudocode
