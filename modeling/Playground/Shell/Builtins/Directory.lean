import Playground.Shell.Mask
import Playground.Shell.Options
import Playground.Shell.Variable
import Playground.Text.Split
/-!
Commands of the shell about the working directory and the rights of new files. The directory has a
path as the script has come to it, in which steps upwards undo steps before them.
-/

namespace Playground.Shell.Builtins

/-- The steps of a path after others, the last one first. -/
def walkSteps (sofar : List (List Char)) (path : String) : List (List Char) :=
  (Text.splitAll (· == '/') path.toList).foldl (fun steps s =>
    if s = [] ∨ s = ['.'] then steps
    else if s = ['.', '.'] then steps.drop 1
    else s :: steps) sofar

/-- The path that another one comes to from a directory. -/
def pathFrom (directory path : String) : String :=
  let start := if path.startsWith "/" then [] else walkSteps [] directory
  "/" ++ String.ofList (['/'].intercalate (walkSteps start path).reverse)

/-- The path of the working directory from the root, without links. -/
def physicalPath (t : FileTree) : String :=
  Narrow.narrow ("/" ++ "/".intercalate t.workDir)

/-- Goes to a directory. Gives whether that can be done. -/
def goTo (isPhysical : Bool) (path : String) : Act Bool := do
  let p ← get
  let logical := pathFrom p.directory path
  match p.world.tree.look true (Narrow.widen (if isPhysical then path else logical)) with
  | .ok (place, .directory) => do
      let t := { p.world.tree with workDir := place }
      let directory := if isPhysical then physicalPath t else logical
      set { p with world := { p.world with tree := t }, directory }
      mark ("OLDPWD=" ++ p.directory) true false
      mark ("PWD=" ++ directory) true false
      return true
  | _ => return false

/-- Whether a path starts with a step to the directory itself or upwards. -/
def isDotted (path : String) : Bool :=
  match Text.splitAll (· == '/') path.toList with
  | first :: _ => first == ['.'] || first == ['.', '.']
  | [] => false

/-- Changes the working directory. -/
def cd (arguments : List String) : Act Nat := do
  let (options, operands) ← Options.ofCommand "LP" arguments
  let isPhysical := (options.getLast?).any (·.1 == 'P')
  let p ← get
  let (goal, shows) := match operands.head? with
    | none => ((p.valueOf? "HOME").getD "", false)
    | some "-" => ((p.valueOf? "OLDPWD").getD "", true)
    | some path => (path, false)
  let around :=
    if goal.startsWith "/" || isDotted goal then []
    else ((p.valueOf? "CDPATH").map fun s =>
      (Text.splitAll (· == ':') s.toList).map String.ofList).getD []
  let step := if goal.isEmpty then "." else goal
  let candidates := around.map fun directory =>
    (directory, if directory.isEmpty then step else directory ++ "/" ++ step)
  let chosen := candidates.find? fun c => p.world.tree.isDirectory (Narrow.widen c.2)
  let path := (chosen.map (·.2)).getD (if goal.startsWith "/" || isDotted goal then goal else step)
  if ← goTo isPhysical path then
    if shows || chosen.any fun c => !c.1.isEmpty then print ((← get).directory ++ "\n")
    return 0
  else fail ("can't cd to " ++ goal)

/-- Prints the working directory. -/
def pwd (arguments : List String) : Act Nat := do
  let (options, _) ← Options.ofCommand "LP" arguments
  let p ← get
  let isPhysical := (options.getLast?).any (·.1 == 'P')
  print ((if isPhysical then physicalPath p.world.tree else p.directory) ++ "\n")
  return 0

/-- Shows or sets the mask of the rights of new files. -/
def umask (arguments : List String) : Act Nat := do
  let (options, operands) ← Options.ofCommand "S" arguments
  let mask := (← get).mask
  match operands.head? with
  | none => do
      print ((if options.isEmpty then Mask.digitsText mask else Mask.lettersText mask) ++ "\n")
      return 0
  | some s => do
      let cs := s.toList
      let mask? :=
        if cs.head?.any Char.isDigit then Mask.ofDigits? cs else Mask.changed? cs mask
      match mask? with
      | some mask => modify fun p => { p with mask }
      | none => if cs.head?.any Char.isDigit then illegalNumber s else fail ("Illegal mode: " ++ s)
      return 0

end Playground.Shell.Builtins
