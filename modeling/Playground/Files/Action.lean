import Playground.Files.Tree
/-!
Changes to a file tree. An action may fail half-way; what it did before stays done.
-/

namespace Playground

/-- A change to a file tree that may fail. -/
abbrev FileAction (α : Type) := ExceptT FileError (StateM FileTree) α

namespace FileAction

/-- Runs an action on a tree. -/
def run {α : Type} (a : FileAction α) (t : FileTree) : Except FileError α × FileTree :=
  StateT.run (ExceptT.run a) t

/-- Asks something of the tree. -/
def ask {α : Type} (question : FileTree → Except FileError α) : FileAction α := do
  match question (← get) with
  | .ok a => return a
  | .error e => throw e

/-- Puts a new file at a place and gives its number. -/
def addFile (p : Place) (bytes : List UInt8) : FileAction Nat := do
  let t ← get
  set { t.put p (.file t.nextNumber bytes) with nextNumber := t.nextNumber + 1 }
  return t.nextNumber

/-- Opens a file for writing, making it if there is none, and gives its number. Its bytes stay. -/
def openFile (p : Path) : FileAction Nat := do
  match (← get).seek true p with
  | .found _ (.file n _) => return n
  | .found .. => throw .isDirectory
  | .vacant dir name slash => if slash then throw .isDirectory else addFile (dir ++ [name]) []
  | .failed e => throw e
  | .link .. => throw .tooManyLinks

/-- Writes a file, in place of what it held or as a new one. -/
def write (p : Path) (bytes : List UInt8) : FileAction Unit := do
  match (← get).seek true p with
  | .found place (.file n _) => modify (·.put place (.file n bytes))
  | .found .. => throw .isDirectory
  | .vacant dir name slash =>
      if slash then throw .isDirectory
      else let _ ← addFile (dir ++ [name]) bytes
  | .failed e => throw e
  | .link .. => throw .tooManyLinks

/-- Removes a file or a link. -/
def removeFile (p : Path) : FileAction Unit := do
  match ← ask (·.look false p) with
  | (_, .directory) => throw .isDirectory
  | (place, _) => modify (·.prune place)

/-- Removes an empty directory. A path that ends in a step to the directory itself or upwards does
not name the directory to remove. -/
def removeDirectory (p : Path) : FileAction Unit := do
  let p := p.withoutSlashes
  match p.segments.getLast? with
  | some "." => do
      let _ ← ask (·.look true p)
      throw .invalidArgument
  | some ".." => do
      let _ ← ask (·.look true p)
      throw .notEmpty
  | _ =>
      match ← ask (·.look false p) with
      | (place, .directory) =>
          if ((← get).names place).isEmpty then modify (·.prune place) else throw .notEmpty
      | _ => throw .notDirectory

/-- Removes a file or link, or a directory after everything in it. A directory that has gone with
what was in it is no failure. -/
def removeAll (p : Path) : FileAction Unit := do
  match ← ask (·.look false p) with
  | (place, .directory) => do
      modify (·.pruneBelow place)
      match (removeDirectory p).run (← get) with
      | (.ok (), t) => set t
      | (.error e, _) => if e = .notFound then return () else throw e
  | (place, _) => modify (·.prune place)

/-- Makes a directory. -/
def makeDirectory (p : Path) : FileAction Unit := do
  match (← get).seekNew p with
  | .found .. => throw .alreadyExists
  | .vacant dir name _ => modify (·.put (dir ++ [name]) .directory)
  | .failed e => throw e
  | .link .. => throw .alreadyExists

/-- Makes a symbolic link. What it leads to need not exist. -/
def makeLink (target p : Path) : FileAction Unit := do
  if target = "" then throw .notFound
  if target.toList.contains '\x00' then throw .nulInPath
  if FileTree.maxPath < target.utf8ByteSize then throw .nameTooLong
  match (← get).seekNew p with
  | .found .. => throw .alreadyExists
  | .vacant dir name _ =>
      if p.withoutSlashes = p then modify (·.put (dir ++ [name]) (.link target))
      else throw .notFound
  | .failed e => throw e
  | .link .. => throw .alreadyExists

/-- The nonempty ends of a list of segments that start with a step, the longest first. -/
def stepTails : List String → List (List String)
  | [] => []
  | s :: rest => if s = "" ∨ s = "." then stepTails rest else (s :: rest) :: stepTails rest

/-- A path and its ancestors, the path as it is written first: each is the one before without its
last step. The root and the empty path are left out. -/
def ancestors (p : Path) : List Path :=
  match stepTails p.segments.reverse with
  | [] => if p = "" ∨ p.isAbsolute = true then [] else [p]
  | _ :: above => p :: above.map fun segs => "/".intercalate segs.reverse

/-- Makes the directories of the list from its end to its start. One that is there already is left
alone. -/
def makeDirectories : List Path → FileAction Unit
  | [] => return ()
  | p :: above => do
      makeDirectories above
      match (makeDirectory p).run (← get) with
      | (.ok (), t) => set t
      | (.error e, _) => if e = .alreadyExists ∧ (← get).isDirectory p then return () else throw e

/-- The leading paths of the list that lack their parent, when the list goes from a directory to its
ancestors; the first that can be made, is. -/
def findBase (missing : List Path) : List Path → FileAction (List Path)
  | [] => return missing
  | p :: above => do
      match (makeDirectory p).run (← get) with
      | (.ok (), t) => do
          set t
          return missing
      | (.error .notFound, _) => findBase (missing ++ [p]) above
      | (.error e, _) =>
          if e = .alreadyExists ∧ (← get).isDirectory p then return missing else throw e

/-- Makes a directory together with the ancestors it lacks. -/
def makeDirectoryAll (p : Path) : FileAction Unit := do
  makeDirectories (← findBase [] (ancestors p))

/-- Writes a file and makes the directories it lies in. -/
def writeWithParents (p : Path) (bytes : List UInt8) : FileAction Unit := do
  match (ancestors p)[1]? with
  | some parent => makeDirectoryAll parent
  | none => pure ()
  write p bytes

/-- Runs an action and gives whether it went well. -/
def attempt (a : FileAction Unit) (t : FileTree) : FileTree × Bool :=
  match a.run t with
  | (.ok (), t) => (t, true)
  | (.error _, t) => (t, false)

end FileAction

/-- A working directory with the given directories and files. -/
def FileTree.populated (directories : List Path) (files : List (Path × List UInt8)) : FileTree :=
  let t := directories.foldl (fun t d => ((FileAction.makeDirectoryAll d).attempt t).1) empty
  files.foldl (fun t f => ((FileAction.writeWithParents f.1 f.2).attempt t).1) t

end Playground
