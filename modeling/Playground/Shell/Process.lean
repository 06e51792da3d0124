import Playground.Files.Action
import Playground.Shell.Narrow
import Playground.Shell.Signal
import Playground.Shell.Syntax
/-!
A running shell: the world that it shares with its subshells, and what is its own. Texts are narrow;
paths are wide.
-/

namespace Playground.Shell

/-- What an open file is. -/
inductive Channel where
  /-- It takes everything and holds nothing. -/
  | void
  | output
  | errors
  | file (number : Nat)
  /-- It holds what has been written to it until that is read. -/
  | pipe
  | directory
deriving DecidableEq, Repr

/-- An open file. -/
structure Opened where
  channel : Channel
  offset : Nat
  canRead : Bool
  canWrite : Bool
  appends : Bool
  /-- What a pipe holds. -/
  content : Array UInt8
deriving Repr

/-- How a process has ended. -/
inductive Ending where
  | exited (status : Nat)
  | killed (signal : Nat)
deriving DecidableEq, Repr

/-- What a shell shares with its subshells. -/
structure World where
  tree : FileTree
  opened : Array Opened
  output : Array UInt8
  errors : Array UInt8
  nextProcess : Nat
  /-- The numbers of the files that can be run. -/
  runnable : List Nat
  /-- Signals for processes that wait for the present one. -/
  sent : List (Nat × Nat)
  /-- How much time has passed, in nanoseconds. Nothing but sleeping takes time. -/
  clock : Nat
  /-- How processes in the background have ended. -/
  ended : List (Nat × Ending)

/-- A variable. One without value is unset, but may have properties. -/
structure Variable where
  name : String
  value : Option String
  isExported : Bool
  isReadOnly : Bool
deriving DecidableEq, Repr

/-- What is left out at the moment, because a loop, a function or a file is being left. -/
inductive Skip where
  | nothing
  | leave (loops : Nat)
  | again (loops : Nat)
  /-- Back to the caller; `isPlain` if no status was given. -/
  | back (isPlain : Bool)
deriving DecidableEq, Repr

/-- Processes in the background that belong together. -/
structure Job where
  /-- The number that scripts call it by. -/
  slot : Nat
  /-- The numbers of its first process and of its last one. -/
  first : Nat
  number : Nat
  /-- How many processes it has. -/
  size : Nat
  /-- How the last process has ended, if the shell has learnt of it. -/
  ending : Option Ending
  /-- The script has waited for it. -/
  isAwaited : Bool
deriving Repr

/-- A process in the background, as it is when it sleeps. -/
structure Sleeper (P : Type) where
  number : Nat
  /-- When it goes on. -/
  due : Nat
  process : P
  /-- What it will do then. -/
  rest : List Command

/-- A running shell. -/
structure Process where
  world : World
  number : Nat
  /-- The number of the shell that this one is a subshell of, or its own. -/
  rootNumber : Nat
  /-- The processes that wait for this one. -/
  ancestors : List Nat
  /-- The open files that descriptors stand for. -/
  descriptors : List (Nat × Nat)
  bindings : List Variable
  /-- What variables were before they became local, innermost first. -/
  frames : List (List (String × Option Variable))
  functions : List (String × Command)
  aliases : List (String × String)
  /-- Programs whose place is known. -/
  tracked : List String
  options : List Char
  traps : List (Nat × String)
  pending : List Nat
  name : String
  arguments : List String
  /-- The argument that is looked through for options, and the place in it. -/
  optionIndex : Nat
  optionOffset : Option Nat
  status : Nat
  /-- The status of the last command whose output became part of a word. -/
  outputStatus : Nat
  /-- The status to go back to after a trap. -/
  savedStatus : Option Nat
  /-- The line that complaints name. -/
  errorLine : Nat
  /-- The line up to which the script has been read. -/
  readLine : Nat
  /-- How many functions are being carried out. -/
  depth : Nat
  /-- The command in whose name the shell complains. -/
  command : Option String
  /-- Whether output has failed to be written. -/
  hasLostOutput : Bool
  skip : Skip
  loops : Nat
  documents : List (Nat × Word)
  nextDocument : Nat
  /-- The path of the working directory as the script sees it. -/
  directory : String
  mask : Nat
  jobs : List Job
  lastJob : Option Nat
  /-- The processes in the background; subshells share them. -/
  sleepers : List (Sleeper Process)

/-- Why a script stops before its end. -/
inductive Stop where
  /-- An error that only some commands survive. -/
  | error
  /-- The last command has been carried out. -/
  | finish
  /-- The script asks for it. -/
  | exit
  /-- Another program has taken the place of the shell, and has ended. -/
  | replaced
  | killed (signal : Nat)
  /-- It runs longer than anybody waits. -/
  | exhausted
deriving DecidableEq, Repr

/-- What a shell does; it may stop the script. -/
abbrev Act (α : Type) := ExceptT Stop (StateM Process) α

/-! ## Files -/

/-- Changes the bytes of the file with a number. -/
def World.changeFile (w : World) (number : Nat) (f : List UInt8 → List UInt8) : World :=
  let entries := w.tree.entries.map fun (place, e) =>
    match e with
    | .file n bytes => if n = number then (place, .file n (f bytes)) else (place, e)
    | e => (place, e)
  { w with tree := { w.tree with entries } }

/-- The bytes of the file with a number. -/
def World.fileBytes (w : World) (number : Nat) : List UInt8 :=
  (w.tree.entries.findSome? fun (_, e) =>
    match e with
    | .file n bytes => if n = number then some bytes else none
    | _ => none).getD []

/-- Puts bytes into others from an offset on; zeros fill a gap. -/
def overwrite (old : List UInt8) (offset : Nat) (bytes : List UInt8) : List UInt8 :=
  old.take offset ++ List.replicate (offset - old.length) 0 ++ bytes ++
    old.drop (offset + bytes.length)

/-- Changes an open file. -/
def World.setOpened (w : World) (i : Nat) (o : Opened) : World :=
  { w with opened := w.opened.setIfInBounds i o }

/-- Writes to an open file. Gives whether that can be done. -/
def World.write (w : World) (i : Nat) (bytes : List UInt8) : World × Bool :=
  match w.opened[i]? with
  | none => (w, false)
  | some o =>
      if !o.canWrite then (w, false)
      else match o.channel with
        | .void => (w, true)
        | .output => ({ w with output := w.output ++ bytes.toArray }, true)
        | .errors => ({ w with errors := w.errors ++ bytes.toArray }, true)
        | .pipe => (w.setOpened i { o with content := o.content ++ bytes.toArray }, true)
        | .directory => (w, false)
        | .file n =>
            let size := (w.fileBytes n).length
            let offset := if o.appends then size else o.offset
            let w := w.changeFile n fun old => overwrite old offset bytes
            (w.setOpened i { o with offset := offset + bytes.length }, true)

/-- The bytes that can still be read from an open file. -/
def World.unread (w : World) (i : Nat) : Option (List UInt8) :=
  match w.opened[i]? with
  | none => none
  | some o =>
      if !o.canRead then none
      else match o.channel with
        | .pipe => some (o.content.toList.drop o.offset)
        | .file n => some ((w.fileBytes n).drop o.offset)
        | .directory => none
        | _ => some []

/-- Counts bytes of an open file as read. -/
def World.advance (w : World) (i n : Nat) : World :=
  match w.opened[i]? with
  | some o => w.setOpened i { o with offset := o.offset + n }
  | none => w

namespace Process

/-- The open file that a descriptor stands for. -/
def fileOf? (p : Process) (descriptor : Nat) : Option Nat :=
  p.descriptors.lookup descriptor

/-- Makes a descriptor stand for an open file, or for none. -/
def point (p : Process) (descriptor : Nat) (file : Option Nat) : Process :=
  let others := p.descriptors.filter (·.1 != descriptor)
  { p with descriptors := match file with
      | some i => (descriptor, i) :: others
      | none => others }

/-- Opens something. Gives its number. -/
def opening (p : Process) (o : Opened) : Process × Nat :=
  ({ p with world := { p.world with opened := p.world.opened.push o } }, p.world.opened.size)

/-- Writes to a descriptor. Gives whether that can be done. -/
def write (p : Process) (descriptor : Nat) (s : String) : Process × Bool :=
  match p.fileOf? descriptor with
  | none => (p, false)
  | some i =>
      let (world, done) := p.world.write i (Narrow.toBytes s)
      ({ p with world }, done)

/-- Whether an option is set. -/
def has (p : Process) (option : Char) : Bool :=
  p.options.contains option

/-- The variable with a name. -/
def binding? (p : Process) (name : String) : Option Variable :=
  p.bindings.find? (·.name == name)

/-- The value of a variable. -/
def valueOf? (p : Process) (name : String) : Option String :=
  (p.binding? name).bind (·.value)

/-- Puts a variable in place of the one with its name. -/
def put (p : Process) (v : Variable) : Process :=
  { p with bindings := v :: p.bindings.filter (·.name != v.name) }

/-- Takes a variable away. -/
def without (p : Process) (name : String) : Process :=
  { p with bindings := p.bindings.filter (·.name != name) }

end Process

/-! ## Acting -/

/-- Writes to a descriptor, without regard to whether that can be done. -/
def writeTo (descriptor : Nat) (s : String) : Act Unit :=
  modify fun p => (p.write descriptor s).1

/-- Says something in the name of the shell, and of the command that is being carried out. -/
def warn (message : String) : Act Unit := do
  let p ← get
  let lead := p.name ++ ": " ++ toString p.errorLine ++ ": "
  let lead := match p.command with
    | some c => lead ++ c ++ ": "
    | none => lead
  writeTo 2 (lead ++ message ++ "\n")

/-- Sets the exit status. -/
def setStatus (n : Nat) : Act Unit :=
  modify fun p => { p with status := n }

/-- Stops with a complaint and a status. -/
def failWith {α : Type} (status : Nat) (stop : Stop) (message : String) : Act α := do
  warn message
  setStatus status
  throw stop

/-- Stops with a complaint. -/
def fail {α : Type} (message : String) : Act α :=
  failWith 2 .error message

/-- Complains about a number. -/
def illegalNumber {α : Type} (s : String) : Act α :=
  fail ("Illegal number: " ++ s)

/-- The count that a word must write. -/
def count (s : String) : Act Nat := do
  match count? s with
  | some n => return n
  | none => illegalNumber s

/-- Prints. -/
def print (s : String) : Act Unit := do
  if !s.isEmpty then
    let (p, done) := (← get).write 1 s
    set { p with hasLostOutput := p.hasLostOutput || !done }

/-- Changes the file tree. -/
def onTree {α : Type} (a : FileAction α) : Act (Except FileError α) := do
  let p ← get
  let (result, tree) := a.run p.world.tree
  set { p with world := { p.world with tree } }
  return result

/-- The file tree. -/
def tree : Act FileTree := do
  return (← get).world.tree

end Playground.Shell
