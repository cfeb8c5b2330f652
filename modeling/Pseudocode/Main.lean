import Pseudocode.Session

/-!
# The prompt on the command line

Prompts for programs on standard input and runs them in one session.  The files named on the command
line are the scripts that programs can run.

A program that asks for a line which has not been typed yet is run again once the line is there.  It
then does the same as before up to that place, and only what it prints beyond is shown.
-/

namespace Pseudocode
namespace Prompt

/-- Read a line without its end; nothing at the end of the input. -/
def nextLine (input : IO.FS.Stream) : IO (Option String) := do
  let line ← input.getLine
  if line.isEmpty then return none
  else if line.endsWith "\n" then return some (line.dropEnd 1).toString
  else return some line

/-- Show what has been printed beyond what is shown already. -/
def showBeyond (output : IO.FS.Stream) (shown : Nat) (printed : String) : IO Unit := do
  output.putStr (String.ofList (printed.toList.drop shown))
  output.flush

/-- Run a line; `typed` are the lines it may read, and `shown` counts what is shown of its output.
-/
partial def runLine (input output : IO.FS.Stream) (w : World) (line : String)
    (typed : List String) (shown : Nat) : IO (Except Fault Unit × World) := do
  let (result, after) := { w with input := typed, output := "" }.enterLine line
  showBeyond output shown after.output
  match result with
  | .error .endOfInput =>
      match ← nextLine input with
      | some next => runLine input output w line (typed ++ [next]) after.output.length
      | none => return (result, after)
  | _ => return (result, after)

/-- Prompt for lines until a fault ends the session. -/
partial def converse (input output : IO.FS.Stream) (w : World) : IO Fault := do
  output.putStr World.prompt
  output.flush
  match ← nextLine input with
  | none => return .endOfInput
  | some line =>
      match ← runLine input output w line [] 0 with
      | (.ok (), after) => converse input output after
      | (.error fault, _) => return fault

end Prompt
end Pseudocode

/-- Run a session on standard input, with the named files as scripts. -/
def main (names : List String) : IO UInt32 := do
  let scripts ← names.mapM fun (name : String) => do return (name, ← IO.FS.readFile name)
  let generator := mkStdGen (← IO.monoNanosNow)
  let world := Pseudocode.World.start {} scripts generator
  let fault ← Pseudocode.Prompt.converse (← IO.getStdin) (← IO.getStdout) world
  IO.eprintln ("\n" ++ fault.message)
  return 1
