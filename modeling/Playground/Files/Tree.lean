import Playground.Files.Error
import Playground.Files.Path
/-!
A tree of files as a value: regular files, directories and symbolic links, keyed by the names that
lead to them from the root. Every regular file has a number of its own, which tells a file from
another one that was put in its place.
-/

namespace Playground

/-- The names from the root to a place in the tree. -/
abbrev Place := List String

/-- What is found at a place. -/
inductive Entry where
  | file (number : Nat) (bytes : List UInt8)
  | directory
  | link (target : Path)
deriving DecidableEq, Repr

/-- A file tree, and the directory that relative paths start from. -/
structure FileTree where
  entries : List (Place × Entry)
  workDir : Place
  nextNumber : Nat
deriving DecidableEq, Repr

namespace FileTree

/-- The tree that holds an empty working directory and nothing else. -/
def empty : FileTree :=
  ⟨[(["work"], .directory)], ["work"], 0⟩

/-- What is found at a place, without following a link there. -/
def entryAt? (t : FileTree) (p : Place) : Option Entry :=
  match p with
  | [] => some .directory
  | p => (t.entries.find? (·.1 == p)).map (·.2)

/-- Puts an entry at a place. -/
def put (t : FileTree) (p : Place) (e : Entry) : FileTree :=
  if t.entries.any (·.1 == p) then
    { t with entries := t.entries.map fun x => if x.1 == p then (p, e) else x }
  else { t with entries := t.entries ++ [(p, e)] }

/-- Removes a place and everything below it. -/
def prune (t : FileTree) (p : Place) : FileTree :=
  { t with entries := t.entries.filter fun x => !p.isPrefixOf x.1 }

/-- Removes everything below a place. -/
def pruneBelow (t : FileTree) (p : Place) : FileTree :=
  { t with entries := t.entries.filter fun x => !p.isPrefixOf x.1 || x.1 == p }

/-- Names of the entries of a directory, in byte order. -/
def names (t : FileTree) (p : Place) : List String :=
  let inside := t.entries.filterMap fun x =>
    if x.1.dropLast == p && x.1 != [] then x.1.getLast? else none
  inside.mergeSort fun a b => decide (a ≤ b)

/-- Where a walk along a path ends. -/
inductive Stop where
  /-- At something that exists. -/
  | found (p : Place) (e : Entry)
  /-- In an existing directory that lacks the last name. -/
  | vacant (dir : Place) (name : String) (slash : Bool)
  | failed (e : FileError)
  /-- At a link, met in a directory, with the rest of the path still to go. -/
  | link (dir : Place) (target : Path) (rest : List String)
deriving Repr

/-- How many bytes a name may have. -/
def maxName : Nat := 255

/-- How many bytes a path may have. -/
def maxPath : Nat := 4095

/-- Walks along a path without following links. The segments left empty by slashes at the end ask
for a directory. A link at the very end is left alone unless `follow` is set. -/
def walk (t : FileTree) (follow : Bool) : Place → List String → Stop
  | dir, [] => .found dir .directory
  | dir, segment :: rest =>
      if segment = "" ∨ segment = "." then walk t follow dir rest
      else if segment = ".." then walk t follow dir.dropLast rest
      else if maxName < segment.utf8ByteSize then .failed .nameTooLong
      else
        let p := dir ++ [segment]
        match t.entryAt? p with
        | none =>
            if rest.all (· == "") then .vacant dir segment !rest.isEmpty else .failed .notFound
        | some .directory => walk t follow p rest
        | some (.file n bytes) =>
            if rest.isEmpty then .found p (.file n bytes) else .failed .notDirectory
        | some (.link target) =>
            if rest.isEmpty && !follow then .found p (.link target)
            else .link dir target rest

/-- How many links a walk may follow. -/
def maxLinks : Nat := 40

/-- Walks along a path and follows at most `links` links. -/
def walkLinks (t : FileTree) (follow : Bool) : Nat → Place → List String → Stop
  | 0, dir, segments =>
      match t.walk follow dir segments with
      | .link .. => .failed .tooManyLinks
      | other => other
  | links + 1, dir, segments =>
      match t.walk follow dir segments with
      | .link dir target rest =>
          walkLinks t follow links (if target.isAbsolute then [] else dir)
            (target.segments ++ rest)
      | other => other

/-- Walks along a path from the working directory. -/
def seek (t : FileTree) (follow : Bool) (p : Path) : Stop :=
  if p = "" then .failed .notFound
  else if p.toList.contains '\x00' then .failed .nulInPath
  else if maxPath < p.utf8ByteSize then .failed .nameTooLong
  else t.walkLinks follow maxLinks (if p.isAbsolute then [] else t.workDir) p.segments

/-- Walks to where a new entry of this path goes. Slashes at the end do not ask for a directory, but they
count for the length of the path. -/
def seekNew (t : FileTree) (p : Path) : Stop :=
  if maxPath < p.utf8ByteSize && !p.toList.contains '\x00' then .failed .nameTooLong
  else t.seek false p.withoutSlashes

/-- What a path leads to. -/
def look (t : FileTree) (follow : Bool) (p : Path) : Except FileError (Place × Entry) :=
  match t.seek follow p with
  | .found place e => .ok (place, e)
  | .failed e => .error e
  | .vacant .. => .error .notFound
  | .link .. => .error .tooManyLinks

/-- Whether the path leads to a regular file. -/
def isFile (t : FileTree) (p : Path) : Bool :=
  match t.look true p with
  | .ok (_, .file ..) => true
  | _ => false

/-- Whether the path leads to a directory. -/
def isDirectory (t : FileTree) (p : Path) : Bool :=
  match t.look true p with
  | .ok (_, .directory) => true
  | _ => false

/-- Whether the path leads to anything. -/
def exists? (t : FileTree) (p : Path) : Except FileError Bool :=
  match t.look true p with
  | .ok _ => .ok true
  | .error .notFound => .ok false
  | .error e => .error e

/-- The bytes of the file that the path leads to. -/
def read (t : FileTree) (p : Path) : Except FileError (List UInt8) :=
  match t.look true p with
  | .ok (_, .file _ bytes) => .ok bytes
  | .ok _ => .error .isDirectory
  | .error e => .error e

/-- Everything below a place, as paths relative to it; directories end in a slash. -/
def listBelow (t : FileTree) (p : Place) : List String :=
  let relative := t.entries.filterMap fun x =>
    if p.isPrefixOf x.1 && x.1 != p then
      let name := "/".intercalate (x.1.drop p.length)
      some (if x.2 = .directory then name ++ "/" else name)
    else none
  relative.mergeSort fun a b => decide (a ≤ b)

/-- Everything below the directory that the path leads to, or nothing if it leads to none. -/
def list (t : FileTree) (p : Path) : List String :=
  match t.look true p with
  | .ok (place, .directory) => t.listBelow place
  | _ => []

end FileTree

end Playground
