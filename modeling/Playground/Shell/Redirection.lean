import Playground.Shell.Expansion
/-!
Redirections: opening files, and making descriptors stand for them. All names are expanded before
anything is opened.
-/

namespace Playground.Shell

/-- A redirection whose words have been expanded. -/
inductive Target where
  | file (descriptor : Nat) (opening : Opening) (name : String)
  /-- The same as another descriptor, or nothing. -/
  | same (descriptor : Nat) (source : Option Nat)
  | document (descriptor : Nat) (text : Word)

/-- The descriptor that a redirection changes. -/
def Target.descriptor : Target → Nat
  | file d _ _ => d
  | same d _ => d
  | document d _ => d

/-- What a path stands for that leads to no file. -/
inductive Device where
  | void
  /-- Nothing can be written to it. -/
  | full
  | terminal
  | descriptor (n : Nat)
deriving DecidableEq, Repr

/-- The device that a path leads to. -/
def device? (path : String) : Option Device :=
  let numbered := ["/dev/fd/", "/proc/self/fd/"].findSome? fun lead =>
    if path.startsWith lead then (path.drop lead.length).toString.toNat? else none
  match path with
  | "/dev/null" => some .void
  | "/dev/zero" => some .void
  | "/dev/full" => some .full
  | "/dev/tty" => some .terminal
  | "/dev/stdin" => some (.descriptor 0)
  | "/dev/stdout" => some (.descriptor 1)
  | "/dev/stderr" => some (.descriptor 2)
  | _ => numbered.map .descriptor

namespace Redirection

/-- Why nothing can be opened. -/
inductive Fault where
  | file (e : FileError)
  | noDevice
deriving DecidableEq, Repr

/-- The wording of a fault for something that was to be read, or made. -/
def Fault.message (isMade : Bool) : Fault → String
  | noDevice => "No such device or address"
  | file .notFound | file .notDirectory =>
      if isMade then "Directory nonexistent" else "No such file"
  | file e => e.reason

/-- An open file of a channel that nothing has been read from or written to. -/
def fresh (channel : Channel) (canRead canWrite appends : Bool) : Opened :=
  ⟨channel, 0, canRead, canWrite, appends, #[]⟩

/-- The open file for something that has been found. -/
def ofOpening (channel : Channel) (o : Opening) : Opened :=
  match o with
  | .read => fresh channel true false false
  | .readWrite => fresh channel true true false
  | .write | .overwrite => fresh channel false true false
  | .append => fresh channel false true true

/-- Opens something. Gives its number. -/
def hold (o : Opened) : Act Nat := do
  let (p, i) := (← get).opening o
  set p
  return i

/-- Opens a file that has a number; it is emptied if it is opened for writing from its start. -/
def openNumbered (n : Nat) (o : Opening) : Act Nat := do
  if o = .write ∨ o = .overwrite then
    modify fun p => { p with world := p.world.changeFile n fun _ => [] }
  hold (ofOpening (.file n) o)

/-- Opens a device. -/
def openDevice (d : Device) (o : Opening) : Act (Except Fault Nat) := do
  match d with
  | .void => return .ok (← hold (ofOpening .void o))
  | .full => return .ok (← hold { ofOpening .void o with canWrite := false })
  | .terminal => return .error .noDevice
  | .descriptor n => do
      let p ← get
      match p.fileOf? n with
      | none => return .error (.file .notFound)
      | some i =>
          match p.world.opened[i]? with
          | some { channel := .file number, .. } => return .ok (← openNumbered number o)
          | _ => return .ok i

/-- Opens a path. -/
def openPath (name : String) (o : Opening) : Act (Except Fault Nat) := do
  let path := Narrow.widen name
  match device? path with
  | some d => openDevice d o
  | none =>
      if o = .read then
        match (← tree).look true path with
        | .ok (_, .file n _) => return .ok (← hold (ofOpening (.file n) o))
        | .ok _ => return .ok (← hold (ofOpening .directory o))
        | .error e => return .error (.file e)
      else
        match ← onTree (FileAction.openFile path) with
        | .ok n => return .ok (← openNumbered n o)
        | .error e => return .error (.file e)

/-- Opens what a redirection names. -/
def openNamed (name : String) (o : Opening) : Act Nat := do
  let give (isMade : Bool) (result : Except Fault Nat) : Act Nat := do
    match result with
    | .ok i => return i
    | .error f =>
        fail ((if isMade then "cannot create " else "cannot open ") ++ name ++ ": " ++
          f.message isMade)
  let path := Narrow.widen name
  if o = .write && (← get).has 'C' && (device? path).isNone then
    match (← tree).look true path with
    | .ok (_, .file ..) => give true (.error (.file .alreadyExists))
    | .ok _ => give false (.error (.file .isDirectory))
    | .error _ =>
        if ((← tree).look false path).isOk then give true (.error (.file .alreadyExists))
        else give true (← openPath name o)
  else give (o != .read) (← openPath name o)

/-- Opens a text for reading. -/
def openText (s : String) : Act Nat :=
  hold { fresh .pipe true false false with content := (Narrow.toBytes s).toArray }

/-- Complains about a word that names no descriptor, where the script has been read to. -/
def badDescriptor {α : Type} : Act α := do
  modify fun p => { p with errorLine := p.readLine }
  fail "Syntax error: Bad fd number"

/-- Expands the words of redirections. -/
def expand (capture : Capture) : List Redirect → Act (List Target)
  | [] => return []
  | r :: rest => do
      let target ← match r with
        | .file d o name => do
            let name ← Expansion.text capture name
            pure (Target.file d o name)
        | .duplicate d source => do
            let source ← Expansion.text capture source
            match source.toList with
            | [c] =>
                if c.isDigit then pure (Target.same d (some (c.toNat - '0'.toNat)))
                else if c = '-' then pure (Target.same d none)
                else badDescriptor
            | _ => badDescriptor
        | .document d n => do
            pure (Target.document d (((← get).documents.lookup n).getD []))
      return target :: (← expand capture rest)

/-- Makes redirections. -/
def make (capture : Capture) : List Target → Act Unit
  | [] => return ()
  | t :: rest => do
      match t with
      | .file d o name => do
          let i ← openNamed name o
          modify (·.point d (some i))
      | .same d none => modify (·.point d none)
      | .same d (some source) => do
          if source ≠ d then
            match (← get).fileOf? source with
            | some i => modify (·.point d (some i))
            | none => fail (toString source ++ ": Bad file descriptor")
      | .document d text => do
          let i ← openText (← Expansion.quotedText capture text)
          modify (·.point d (some i))
      make capture rest

/-- Makes redirections, where an error does not stop the script. Gives whether all went well. -/
def attempt (capture : Capture) (targets : List Target) : Act Bool :=
  tryCatch (do make capture targets; return true) fun stop =>
    match stop with
    | .error => return false
    | stop => throw stop

/-- Makes descriptors stand for what they stood for before redirections. -/
def undo (before : Process) (targets : List Target) (p : Process) : Process :=
  targets.foldl (fun p t => p.point t.descriptor (before.fileOf? t.descriptor)) p

/-- Does something, and after it undoes redirections, however it ends. -/
def within {α : Type} (before : Process) (targets : List Target) (act : Act α) : Act α := do
  let result ← tryCatch act fun stop => do
    modify (undo before targets)
    throw stop
  modify (undo before targets)
  return result

end Redirection

end Playground.Shell
