import Playground.Files.Tree
import Playground.Shell.Narrow
import Playground.Shell.Pattern
import Playground.Text.Split
/-!
The paths that a pattern stands for. Names that start with a point need one in the pattern; the
steps `.` and `..` are found like names.
-/

namespace Playground.Shell.Glob

/-- Whether brackets that start before the pattern are closed in it; `first` is set before the first
character in them. -/
def isClosed : Bool → Pattern → Bool
  | _, [] => false
  | first, g :: rest => (!first && g == ⟨']', false⟩) || isClosed false rest

/-- Whether a step of a path has to be compared with names. -/
def isOpen : Pattern → Bool
  | [] => false
  | ⟨'*', false⟩ :: _ => true
  | ⟨'?', false⟩ :: _ => true
  | ⟨'[', false⟩ :: ⟨'!', false⟩ :: rest => isClosed true rest || isOpen rest
  | ⟨'[', false⟩ :: rest => isClosed true rest || isOpen rest
  | _ :: rest => isOpen rest

/-- The characters of a pattern. -/
def chars (p : Pattern) : List Char :=
  p.map (·.char)

/-- The names in a directory that a step stands for. -/
def namesIn (t : FileTree) (directory : List Char) (step : Pattern) : List String :=
  let path := if directory.isEmpty then "." else Narrow.widen (String.ofList directory)
  match t.look true path with
  | .ok (place, .directory) =>
      (["." , ".."] ++ (t.names place).map Narrow.narrow).filter fun name =>
        (name.toList.head? != some '.' || (step.head?).any (·.char == '.')) &&
          step.fits name.toList
  | _ => []

/-- The paths that the steps of a pattern stand for after the path `lead`. -/
def paths (t : FileTree) (lead : List Char) : List Pattern → List String
  | [] => []
  | step :: rest =>
      if isOpen step then
        (namesIn t lead step).flatMap fun name =>
          if rest.isEmpty then [String.ofList (lead ++ name.toList)]
          else paths t (lead ++ name.toList ++ ['/']) rest
      else if rest.any isOpen then paths t (lead ++ chars step ++ ['/']) rest
      else if lead.isEmpty then []
      else
        let path := lead ++ ['/'].intercalate ((step :: rest).map chars)
        if (t.look false (Narrow.widen (String.ofList path))).isOk then [String.ofList path]
        else []

/-- The paths that a pattern stands for, in the order of their bytes. -/
def expand (t : FileTree) (p : Pattern) : List String :=
  let steps := Text.splitAll (·.char == '/') p.settle
  if steps.any isOpen then (paths t [] steps).mergeSort fun a b => decide (a ≤ b) else []

end Playground.Shell.Glob
