import Playground.Files.Action
import Playground.Files.Listing
/-!
Copying a directory tree. Entries with one given name are left out at every level. The destination
must not lie inside the source, which is decided on the destination's absolute form with `.` and
`..` folded and links followed as far as it exists. Entries are copied in the order of their
listing, so that a copy that fails leaves those copied that come before the failure.
-/

namespace Playground

namespace FileTree

/-- Folds a step into a place: `..` goes up, and the root stays the root. -/
def foldStep (p : Place) (segment : String) : Place :=
  if segment = "" ∨ segment = "." then p
  else if segment = ".." then p.dropLast
  else p ++ [segment]

/-- The absolute form of a path with `.` and `..` folded, without looking at the tree. -/
def lexical (t : FileTree) (p : Path) : Except FileError Place :=
  if p = "" then .error .emptyPath
  else .ok (p.segments.foldl foldStep (if p.isAbsolute then [] else t.workDir))

/-- The place that the names lead to from the root, links followed. -/
def canonical (t : FileTree) (p : Place) : Except FileError Place :=
  match t.walkLinks true maxLinks [] p with
  | .found place _ => .ok place
  | .failed e => .error e
  | .vacant .. => .error .notFound
  | .link .. => .error .tooManyLinks

/-- Follows links along `base` as far as it exists; the names in `missing` come after it. -/
def canonicalPart (t : FileTree) (whole : Place) : Nat → Place → Place → Except FileError Place
  | 0, _, _ => .ok whole
  | depth + 1, base, missing =>
      match t.canonical base with
      | .ok place => .ok (place ++ missing)
      | .error .notFound =>
          match base.getLast? with
          | some name => t.canonicalPart whole depth base.dropLast (name :: missing)
          | none => .ok whole
      | .error e => .error e

/-- The place a path leads to, or would lead to once its missing part is made. -/
def resolve (t : FileTree) (p : Path) : Except FileError Place := do
  let place ← t.lexical p
  t.canonicalPart place (place.length + 1) place []

end FileTree

namespace FileAction

/-- Copies one regular file. The destination is emptied before the source is read. -/
def copyFile (source target : Path) : FileAction Unit := do
  match ← ask (·.look true source) with
  | (place, .file _ bytes) => do
      write target []
      match (← get).seek true target with
      | .found copy _ => if copy = place then return () else write target bytes
      | _ => write target bytes
  | _ => throw .notRegular

/-- How deep a path can go before its text is too long for the operating system. -/
def maxDepth : Nat := 2048

/-- Copies a directory tree without the entries named `omitted`. -/
def copyDirectory (omitted : String) : Nat → Path → Path → FileAction Unit
  | 0, _, _ => throw .nameTooLong
  | depth + 1, source, target => do
      makeDirectoryAll target
      match ← ask (·.look true source) with
      | (place, .directory) =>
          ((← get).listing place).forM fun name => do
            if name = omitted then return ()
            else match (← get).entryAt? (place ++ [name]) with
              | some .directory => copyDirectory omitted depth (source.join name) (target.join name)
              | some _ => copyFile (source.join name) (target.join name)
              | none => return ()
      | _ => throw .notDirectory

/-- Copies a directory tree to a destination outside it. -/
def copyOutside (omitted : String) (source target : Path) : FileAction Unit := do
  let destination ← ask (·.resolve target)
  let (place, _) ← ask (·.look true source)
  if place.isPrefixOf destination then throw .insideSource
  else copyDirectory omitted maxDepth source target

end FileAction

end Playground
