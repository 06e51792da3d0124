import Playground.Text.Blank
import Playground.Text.Split
/-!
Paths as text. Paths are kept as they are written; joining and taking the part below a directory
work on the text, and comparison works on components: repeated slashes and inner `.` steps do not
count.
-/

namespace Playground

/-- A path as written. -/
abbrev Path := String

namespace Path

/-- Whether the path starts at the root. -/
def isAbsolute (p : Path) : Bool :=
  p.toList.head? == some '/'

/-- The path `b` seen from the directory `a`. -/
def join (a b : Path) : Path :=
  if isAbsolute b then b
  else match a.toList.getLast? with
    | none => b
    | some '/' => a ++ b
    | some _ => a ++ "/" ++ b

/-- One step of a path. -/
inductive Component where
  | root
  | here
  | up
  | name (n : String)
deriving DecidableEq, Repr

/-- The texts between the slashes. -/
def segments (p : Path) : List String :=
  (Text.splitAll (· == '/') p.toList).map String.ofList

/-- The path without the slashes at its end; the root stays the root. -/
def withoutSlashes (p : Path) : Path :=
  match Text.dropEndWhile (· == '/') p.toList with
  | [] => if isAbsolute p then "/" else ""
  | cs => String.ofList cs

/-- The step that a segment stands for; empty segments and inner `.` stand for none. -/
def component? (segment : String) : Option Component :=
  if segment = "" ∨ segment = "." then none
  else if segment = ".." then some .up
  else some (.name segment)

/-- The steps of a path. A `.` counts only at the start of a relative path. -/
def components (p : Path) : List Component :=
  let segs := segments p
  let lead := if isAbsolute p then [.root] else if segs.head? = some "." then [.here] else []
  lead ++ segs.filterMap component?

/-- Whether `dir` is `p` or an ancestor of it, step by step. -/
def isWithin (p dir : Path) : Bool :=
  (components dir).isPrefixOf (components p)

/-- Drops slashes and `.` steps at the start. -/
def trimLead : List String → List String
  | s :: rest => if s = "" ∨ s = "." then trimLead rest else s :: rest
  | [] => []

/-- Drops slashes and `.` steps at both ends. -/
def trimSegments (segs : List String) : List String :=
  (trimLead (trimLead segs).reverse).reverse

/-- Drops segments until `n` steps have gone. -/
def dropSteps : Nat → List String → List String
  | 0, segs => segs
  | _ + 1, [] => []
  | n + 1, s :: rest =>
      match component? s with
      | some _ => dropSteps n rest
      | none => dropSteps (n + 1) rest

/-- The part of `p` below the directory `dir`, spelled as in `p` apart from its ends. -/
def below? (p dir : Path) : Option Path :=
  if isWithin p dir then
    let steps := (components dir).filter fun c => c != .root && c != .here
    let rest := trimSegments (dropSteps steps.length (segments p))
    if components dir = [] then
      let rest := (trimLead (segments p).reverse).reverse
      if isAbsolute p && rest.isEmpty then some "/" else some ("/".intercalate rest)
    else some ("/".intercalate rest)
  else none

end Path

end Playground
