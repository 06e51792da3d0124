import Playground.Shell.Program
/-!
Programs that work on files: they make, remove, copy, move, link and list them.
-/

namespace Playground.Shell.Programs

open Program

/-- Does something to the file tree for an operand, and says why it has failed. -/
def onPath (what operand : String) (a : FileAction Unit) : Act Bool := do
  match ← onTree a with
  | .ok () => return true
  | .error e => do
      complain (what ++ " " ++ named operand ++ ": " ++ e.reason)
      return false

/-- The path in a directory for the last step of another path. -/
def inDirectory (directory path : Path) : Path :=
  directory.join ((path.withoutSlashes.segments.getLast?).getD "")

/-- Makes directories. -/
def mkdir : Program :=
  let usage : Usage := ⟨"m:pvZ", [("parents", 'p'), ("verbose", 'v')], 1⟩
  ofUsage usage fun a => do
    if a.operands.isEmpty then misused usage "missing operand"
    else forEach (fun operand => do
      let path := Narrow.widen operand
      if a.has 'p' then
        let t ← tree
        let above := ((FileAction.ancestors path).drop 1).reverse
        match above.find? fun p => (t.look true p).isOk && !t.isDirectory p with
        | some p => do
            complain ("cannot create directory " ++ named (Narrow.narrow p) ++
              ": " ++ FileError.notDirectory.reason)
            return false
        | none => onPath "cannot create directory" operand (FileAction.makeDirectoryAll path)
      else
        let done ← onPath "cannot create directory" operand (FileAction.makeDirectory path)
        if done && a.has 'v' then print ("mkdir: created directory " ++ named operand ++ "\n")
        return done) a.operands

/-- Makes empty files where there are none. -/
def touch : Program :=
  let usage : Usage := ⟨"acd:fhmr:t:", [("no-create", 'c')], 1⟩
  ofUsage usage fun a => do
    if a.operands.isEmpty then misused usage "missing file operand"
    else forEach (fun operand => do
      let path := Narrow.widen operand
      match (← tree).look true path with
      | .ok _ => return true
      | .error e =>
          if a.has 'c' && e = .notFound then return true
          onPath "cannot touch" operand (do let _ ← FileAction.openFile path)) a.operands

/-- Removes files, and directories if asked to. -/
def rm : Program :=
  let usage : Usage := ⟨"dfiIrRv", [("force", 'f'), ("recursive", 'r'), ("dir", 'd')], 1⟩
  ofUsage usage fun a => do
    if a.operands.isEmpty then
      if a.has 'f' then return 0 else misused usage "missing operand"
    else forEach (fun operand => do
      let path := Narrow.widen operand
      let last := (Path.withoutSlashes path).segments.getLast?
      match (← tree).look false path with
      | .error e =>
          if a.has 'f' && (e = .notFound || e = .notDirectory) then return true
          complain ("cannot remove " ++ named operand ++ ": " ++ e.reason)
          return false
      | .ok (_, .directory) =>
          if a.has 'r' || a.has 'R' then
            if last = some "." ∨ last = some ".." then
              complain ("refusing to remove '.' or '..' directory: skipping " ++ named operand)
              return false
            else onPath "cannot remove" operand (FileAction.removeAll path)
          else if a.has 'd' then
            onPath "cannot remove" operand (FileAction.removeDirectory path)
          else
            complain ("cannot remove " ++ named operand ++ ": Is a directory")
            return false
      | .ok _ => onPath "cannot remove" operand (FileAction.removeFile path)) a.operands

/-- Removes empty directories. -/
def rmdir : Program :=
  let usage : Usage := ⟨"pv", [("parents", 'p')], 1⟩
  ofUsage usage fun a => do
    if a.operands.isEmpty then misused usage "missing operand"
    else forEach (fun operand => do
      let paths := if a.has 'p' then FileAction.ancestors (Narrow.widen operand)
        else [Narrow.widen operand]
      let results ← paths.mapM fun path =>
        onPath "failed to remove" (Narrow.narrow path) (FileAction.removeDirectory path)
      return results.all id) a.operands

/-- Where an operand that is copied, moved or linked goes to. -/
def destination (t : FileTree) (source target : Path) : Path :=
  if t.isDirectory target then inDirectory target source else target

/-- Splits operands into sources and the target, or says what is missing. -/
def sourcesAndTarget (u : Usage) (operands : List String) :
    Act (Except Nat (List String × String)) := do
  match operands.reverse with
  | [] => return .error (← misused u "missing file operand")
  | [one] => return .error (← misused u ("missing destination file operand after " ++ named one))
  | target :: sources => do
      if 1 < sources.length then
        match (← tree).look true (Narrow.widen target) with
        | .ok (_, .directory) => return .ok (sources.reverse, target)
        | .ok _ => do
            complain ("target " ++ named target ++ ": Not a directory")
            return .error 1
        | .error e => do
            complain ("target " ++ named target ++ ": " ++ e.reason)
            return .error 1
      else return .ok (sources.reverse, target)

/-- Puts a copy of a file in a place of its own. -/
def copyFile (source target : Path) : FileAction Unit := do
  FileAction.write target (← FileAction.ask (·.read source))

/-- Everything below a directory, with what it is, in the order of the paths. -/
def below (t : FileTree) (p : Place) : List (Place × Entry) :=
  (t.entries.filter fun x => p.isPrefixOf x.1 && x.1 != p).map fun x => (x.1.drop p.length, x.2)

/-- Copies a directory with everything in it. -/
def copyAll (source target : Path) : FileAction Unit := do
  match ← FileAction.ask (·.look true source) with
  | (place, .directory) => do
      let inside := below (← get) place
      if !(← get).isDirectory target then FileAction.makeDirectory target
      for (steps, e) in inside do
        let path := target.join ("/".intercalate steps)
        match e with
        | .directory => FileAction.makeDirectoryAll path
        | .file _ bytes => FileAction.write path bytes
        | .link goal => FileAction.makeLink goal path
  | _ => copyFile source target

/-- Whether two paths lead to one file. -/
def isSame (t : FileTree) (a b : Path) : Bool :=
  match t.look true a, t.look true b with
  | .ok (p, _), .ok (q, _) => p == q
  | _, _ => false

/-- Lets a copy be run if the file itself can be run. -/
def keepRunnable (source target : Path) : Act Unit :=
  modify fun p =>
    match p.world.tree.look true source, p.world.tree.look true target with
    | .ok (_, .file n _), .ok (_, .file m _) =>
        if p.world.runnable.contains n then
          { p with world := { p.world with runnable := m :: p.world.runnable } }
        else p
    | _, _ => p

/-- Copies files, and directories if asked to. -/
def cp : Program :=
  let usage : Usage := ⟨"aabdfilLnprRsTuvxP", [("recursive", 'r'), ("force", 'f')], 1⟩
  ofUsage usage fun a => do
    match ← sourcesAndTarget usage a.operands with
    | .error status => return status
    | .ok (sources, target) =>
        forEach (fun operand => do
          let source := Narrow.widen operand
          let t ← tree
          let goal := destination t source (Narrow.widen target)
          let shown := Narrow.narrow goal
          match t.look true source with
          | .error e => do
              complain ("cannot stat " ++ named operand ++ ": " ++ e.reason)
              return false
          | .ok (_, .directory) =>
              if a.has 'r' || a.has 'R' || a.has 'a' then
                if (t.look true goal).toOption.any fun x => !decide (x.2 = .directory) then
                  complain ("cannot overwrite non-directory " ++ named shown ++
                    " with directory " ++ named operand)
                  return false
                else onPath "cannot create directory" shown (copyAll source goal)
              else
                complain ("-r not specified; omitting directory " ++ named operand)
                return false
          | .ok _ =>
              if isSame t source goal then
                complain (named operand ++ " and " ++ named shown ++ " are the same file")
                return false
              else if a.has 'n' && (t.look false goal).isOk then return true
              else
                let done ← onPath "cannot create regular file" shown (copyFile source goal)
                keepRunnable source goal
                return done) sources

/-- Gives an entry another place. -/
def moveEntry (source target : Place) : FileAction Unit := do
  let t ← get
  match t.entryAt? source with
  | none => throw .notFound
  | some e => do
      let inside := below t source
      let t := (t.prune source).prune target
      let t := t.put target e
      set (inside.foldl (fun t x => t.put (target ++ x.1) x.2) t)

/-- Moves a path to another one. -/
def movePath (source target : Path) : FileAction Unit := do
  let (place, e) ← FileAction.ask (·.look false source)
  match (← get).seek false target.withoutSlashes with
  | .found goal old =>
      match e, old with
      | .directory, .directory =>
          if ((← get).names goal).isEmpty then moveEntry place goal else throw .notEmpty
      | .directory, _ => throw .notDirectory
      | _, .directory => throw .isDirectory
      | _, _ => moveEntry place goal
  | .vacant dir name _ =>
      if target.withoutSlashes ≠ target && e ≠ .directory then throw .notDirectory
      else moveEntry place (dir ++ [name])
  | .failed e => throw e
  | .link .. => throw .tooManyLinks

/-- Moves files and directories. -/
def mv : Program :=
  let usage : Usage := ⟨"bfinuvT", [("force", 'f')], 1⟩
  ofUsage usage fun a => do
    match ← sourcesAndTarget usage a.operands with
    | .error status => return status
    | .ok (sources, target) =>
        forEach (fun operand => do
          let source := Narrow.widen operand
          let t ← tree
          let goal := destination t source (Narrow.widen target)
          let shown := Narrow.narrow goal
          match t.look false source, t.seek false goal.withoutSlashes with
          | .error e, _ => do
              complain ("cannot stat " ++ named operand ++ ": " ++ e.reason)
              return false
          | .ok (place, e), found =>
              let spot := match found with
                | .found p _ => p
                | .vacant dir name _ => dir ++ [name]
                | _ => []
              if place = spot then
                complain (named operand ++ " and " ++ named shown ++ " are the same file")
                return false
              else if e = .directory && place.isPrefixOf spot then
                complain ("cannot move " ++ named operand ++ " to a subdirectory of itself, " ++
                  named shown)
                return false
              else if a.has 'n' && (t.look false goal).isOk then return true
              else
                match ← onTree (movePath source goal) with
                | .ok () => return true
                | .error e => do
                    complain ("cannot move " ++ named operand ++ " to " ++ named shown ++
                      ": " ++ e.reason)
                    return false) sources

/-- Gives a file another name. -/
def hardLink (source target : Path) : FileAction Unit := do
  let (_, e) ← FileAction.ask (·.look false source)
  match (← get).seek false target with
  | .found .. => throw .alreadyExists
  | .vacant dir name _ => modify (·.put (dir ++ [name]) e)
  | .failed e => throw e
  | .link .. => throw .tooManyLinks

/-- Makes links, which are symbolic if asked to. -/
def ln : Program :=
  let usage : Usage := ⟨"bfinrsvTL", [("symbolic", 's'), ("force", 'f')], 1⟩
  ofUsage usage fun a => do
    let operands := match a.operands with
      | [one] => [one, "."]
      | operands => operands
    match ← sourcesAndTarget usage operands with
    | .error status => return status
    | .ok (sources, target) =>
        forEach (fun operand => do
          let source := Narrow.widen operand
          let t ← tree
          let isKept := a.has 'n' && (t.look false (Narrow.widen target)).toOption.any fun x =>
            match x.2 with
            | .link _ => true
            | _ => false
          let goal := if isKept then Narrow.widen target
            else destination t source (Narrow.widen target)
          let shown := Narrow.narrow goal
          let kind := if a.has 's' then "symbolic link" else "hard link"
          match t.look false source, a.has 's' with
          | .error e, false => do
              complain ("failed to access " ++ named operand ++ ": " ++ e.reason)
              return false
          | .ok (_, .directory), false => do
              complain (Program.shown operand ++ ": hard link not allowed for directory")
              return false
          | _, isSymbolic => do
              if a.has 'f' then
                let _ ← onTree (FileAction.removeFile goal)
              match ← onTree (if isSymbolic then FileAction.makeLink source goal
                  else hardLink source goal) with
              | .ok () => return true
              | .error e => do
                  let origin := if isSymbolic then "" else " => " ++ named operand
                  complain ("failed to create " ++ kind ++ " " ++ named shown ++
                    (if e = .alreadyExists then "" else origin) ++ ": " ++ e.reason)
                  return false) sources

/-- The names in a directory that are listed. -/
def listed (a : Arguments) (t : FileTree) (place : Place) : List String :=
  let names := (t.names place).map Narrow.narrow
  let names :=
    if a.has 'a' then "." :: ".." :: names
    else if a.has 'A' then names
    else names.filter fun n => n.toList.head? != some '.'
  let names := names.mergeSort fun x y => decide (x ≤ y)
  if a.has 'r' then names.reverse else names

/-- Lists the entries of directories, and the files among the operands. -/
def ls : Program :=
  let usage : Usage := ⟨"aAbBcCdfFgGhHiklLmnNopqQrRsStuUvxX1", [("all", 'a')], 2⟩
  ofUsage usage fun a => do
    let operands := if a.operands.isEmpty then ["."] else a.operands
    let sorted := operands.mergeSort fun x y => decide (x ≤ y)
    let t ← tree
    let look (operand : String) := t.look true (Narrow.widen operand)
    let mut status := 0
    for operand in operands do
      match look operand with
      | .error e => do
          complain ("cannot access " ++ named operand ++ ": " ++ e.reason)
          status := 2
      | .ok _ => pure ()
    let isListed (operand : String) : Bool :=
      match look operand with
      | .ok (_, .directory) => !a.has 'd'
      | _ => false
    let files := sorted.filter fun operand => (look operand).isOk && !isListed operand
    let directories := sorted.filter isListed
    printLines files
    let blocks := directories.map fun operand =>
      match look operand with
      | .ok (place, _) =>
          let lead := if 1 < operands.length then [operand ++ ":"] else []
          lead ++ listed a t place
      | .error _ => []
    let blocks := if files.isEmpty then blocks else [] :: blocks
    printLines ([""].intercalate blocks)
    return status

/-- Whether a mode as text lets files be run, or forbids it, if it says anything about that. -/
def modeRuns? (mode : String) : Option (Option Bool) :=
  let cs := mode.toList
  if !cs.isEmpty && cs.all fun c => '0' ≤ c && c ≤ '7' then
    some (some (cs.any fun c => (c.toNat - '0'.toNat) % 2 == 1))
  else
    match cs.dropWhile fun c => "ugoa".toList.contains c with
    | '+' :: what =>
        if what.all fun c => "rwxXst".toList.contains c then
          some (if what.contains 'x' then some true else none)
        else none
    | '-' :: what =>
        if what.all fun c => "rwxXst".toList.contains c then
          some (if what.contains 'x' then some false else none)
        else none
    | '=' :: what =>
        if what.all fun c => "rwxXst".toList.contains c then some (some (what.contains 'x'))
        else none
    | _ => none

/-- Changes whether files can be run. -/
def chmod : Program := fun arguments => do
  let usage : Usage := {}
  let isOption (s : String) : Bool := s = "-R" || s = "-f" || s = "-v"
  match arguments.filter fun s => !isOption s with
  | [] => misused usage "missing operand"
  | [mode] => misused usage ("missing operand after " ++ named mode)
  | mode :: operands =>
      match modeRuns? mode with
      | none => misused usage ("invalid mode: " ++ named mode)
      | some change =>
          forEach (fun operand => do
            match (← tree).look true (Narrow.widen operand) with
            | .ok (_, .file n _) => do
                modify fun p =>
                  let others := p.world.runnable.filter (· != n)
                  match change with
                  | some true => { p with world := { p.world with runnable := n :: others } }
                  | some false => { p with world := { p.world with runnable := others } }
                  | none => p
                return true
            | .ok _ => return true
            | .error e => do
                complain ("cannot access " ++ named operand ++ ": " ++ e.reason)
                return false) operands

end Playground.Shell.Programs
