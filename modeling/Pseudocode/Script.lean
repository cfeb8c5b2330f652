import Pseudocode.Text.Lines
import Pseudocode.Text.Quoted

/-!
# Scripts

Programs can run scripts from the working directory, which holds files and no other directory.  A
script is named by a path; dots for the working directory itself and extra slashes do not matter.
-/

namespace Pseudocode

/-- The scripts in the working directory: names with contents. -/
abbrev Scripts : Type := List (String × String)

namespace Scripts

/-- Why a script cannot be opened. -/
inductive Obstacle where
  /-- There is no such file. -/
  | missing
  /-- The path leads to a directory. -/
  | directory
  /-- The path goes on after a file. -/
  | notDirectory
  /-- A name in the path is too long. -/
  | nameTooLong
  /-- The path holds a null character. -/
  | nullCharacter
  deriving DecidableEq, Repr

/-- The words for an obstacle on a path. -/
def Obstacle.message (path : String) : Obstacle → String
  | missing => "[Errno 2] No such file or directory: " ++ Text.quoted path
  | directory => "[Errno 21] Is a directory: " ++ Text.quoted path
  | notDirectory => "[Errno 20] Not a directory: " ++ Text.quoted path
  | nameTooLong => "[Errno 36] File name too long: " ++ Text.quoted path
  | nullCharacter => "embedded null byte"

/-- The names between the slashes of a path. -/
def pathNames : List Char → List (List Char)
  | [] => [[]]
  | c :: rest =>
      match c, pathNames rest with
      | '/', names => [] :: names
      | c, name :: names => (c :: name) :: names
      | c, [] => [[c]]

/-- Whether a name in a path stands for the directory reached so far. -/
def staysHere (name : List Char) : Bool :=
  name.isEmpty || name = ['.']

/-- The greatest number of bytes in a name. -/
def nameLimit : Nat := 255

/-- The greatest number of bytes in a path. -/
def pathLimit : Nat := 4095

/-- The content of the script at a path. -/
def read (scripts : Scripts) (path : String) : Except Obstacle String :=
  let names := pathNames path.toList
  let steps := names.filter (!staysHere ·)
  if path.toList.contains '\x00' then .error .nullCharacter
  else if path.isEmpty then .error .missing
  else if pathLimit < path.utf8ByteSize then .error .nameTooLong
  else if names.any fun name => nameLimit < (String.ofList name).utf8ByteSize then
    .error .nameTooLong
  else if steps.all (· = ['.', '.']) then .error .directory
  else if path.toList.head? = some '/' then .error .missing
  else
    match steps with
    | [] => .error .directory
    | name :: further =>
        match scripts.lookup (String.ofList name) with
        | none => .error .missing
        | some content =>
            if further.isEmpty && !(names.getLast?.any staysHere) then
              .ok (String.ofList (Text.normalizeLines content.toList))
            else .error .notDirectory

end Scripts
end Pseudocode
