import Playground.Text.Blank
/-!
File names. Two names denote the same file when they agree after normalisation: outer blanks
removed, backslashes read as slashes, leading `./` steps dropped.
-/

namespace Playground.FileName

/-- Drops every leading `./`. -/
def dropDotSteps : List Char → List Char
  | '.' :: '/' :: rest => dropDotSteps rest
  | cs => cs

/-- Reads a backslash as a slash. -/
def slashed (c : Char) : Char :=
  if c = '\\' then '/' else c

/-- The normal form of a name, on characters. -/
def normalChars (cs : List Char) : List Char :=
  dropDotSteps ((Text.trim cs).map slashed)

/-- The normal form of a name. -/
def normalize (name : String) : String :=
  String.ofList (normalChars name.toList)

/-- Whether two names denote the same file. -/
def same (a b : String) : Bool :=
  normalize a == normalize b

/-- Whether `path` ends in the file `name`: it is that name, or has it behind a slash. No path ends
in the empty name. -/
def endsPath (path name : String) : Bool :=
  let path := normalChars path.toList
  let name := normalChars name.toList
  !name.isEmpty && (path == name || ('/' :: name).isSuffixOf path)

end Playground.FileName
