import Playground.Shell.Token
import Playground.Shell.Variable
import Playground.Text.Split
/-!
Finding commands: those of the shell itself, functions, and programs along the search path.
-/

namespace Playground.Shell

/-- What is special about a command of the shell itself. -/
structure Standing where
  /-- Its errors stop the script, and assignments before it last. -/
  isSpecial : Bool := false
  /-- Its arguments may be assignments, which are not parted. -/
  assigns : Bool := false
deriving DecidableEq, Repr

/-- The special commands of the shell. -/
def specialNames : List String :=
  [".", ":", "break", "continue", "eval", "exec", "exit", "return", "set", "shift", "times", "trap",
    "unset"]

/-- The special commands of the shell that assign values. -/
def assigningNames : List String :=
  ["export", "local", "readonly"]

/-- The other commands of the shell. -/
def regularNames : List String :=
  ["[", "bg", "cd", "chdir", "command", "echo", "false", "fg", "getopts", "hash", "jobs", "kill",
    "printf", "pwd", "read", "test", "true", "type", "ulimit", "umask", "unalias", "wait"]

/-- The standing of the command of the shell that has a name. -/
def standing? (name : String) : Option Standing :=
  if specialNames.contains name then some { isSpecial := true }
  else if assigningNames.contains name then some { isSpecial := true, assigns := true }
  else if name = "alias" then some { assigns := true }
  else if regularNames.contains name then some {}
  else none

/-- What a name stands for as a command. -/
inductive Meaning where
  | builtin (s : Standing)
  | function (body : Command)
  /-- A program at a path. -/
  | program (path : String)
  | unknown

/-- The directories to look for programs in. -/
def searchPath (p : Process) : String :=
  (p.valueOf? "PATH").getD ""

/-- The directories that are searched by default. -/
def standardPath : String :=
  "/usr/local/sbin:/usr/local/bin:/usr/sbin:/usr/bin:/sbin:/bin"

/-- The paths at which a name may be found. -/
def candidates (path name : String) : List String :=
  (Text.splitAll (· == ':') path.toList).map fun directory =>
    if directory.isEmpty then name
    else String.ofList directory ++ "/" ++ name

/-- The path of the file that a name is found at. -/
def locate? (t : FileTree) (path name : String) : Option String :=
  (candidates path name).find? fun file => t.isFile (Narrow.widen file)

/-- What a name stands for; functions do not count if `isPlain`. -/
def meaning (p : Process) (isPlain : Bool) (path name : String) : Meaning :=
  if name.toList.contains '/' then .program name
  else match if isPlain then none else p.functions.lookup name with
    | some body => .function body
    | none =>
        match standing? name with
        | some s => .builtin s
        | none =>
            match locate? p.world.tree path name with
            | some file => .program file
            | none => .unknown

/-- Says what a name is, in words or by the text that stands for it. Gives the status. -/
def describe (isVerbose : Bool) (path? : Option String) (name : String) : Act Nat := do
  let p ← get
  let say (words short : String) : Act Nat := do
    print ((if isVerbose then name ++ words else short) ++ "\n")
    return 0
  if (Token.ofKeyword? name).isSome then say " is a shell keyword" name
  else match p.aliases.lookup name with
    | some value =>
        say (" is an alias for " ++ value) ("alias " ++ name ++ "=" ++ quoted value)
    | none =>
        match meaning p false (path?.getD (searchPath p)) name with
        | .builtin s =>
            say (if s.isSpecial then " is a special shell builtin" else " is a shell builtin") name
        | .function .. => say " is a shell function" name
        | .program file =>
            if name.toList.contains '/' && !(p.world.tree.look true (Narrow.widen name)).isOk then
              missing isVerbose name
            else
              let isTracked := path?.isNone && p.tracked.contains name
              say (" is " ++ (if isTracked then "a tracked alias for " else "") ++ file) file
        | .unknown => missing isVerbose name
where
  /-- Says that a name is not found. -/
  missing (isVerbose : Bool) (name : String) : Act Nat := do
    if isVerbose then print (name ++ ": not found\n")
    return 127

end Playground.Shell
