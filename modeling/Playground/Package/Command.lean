import Playground.Package.Builder
import Playground.Shell.Eval
import Playground.Text.Line
/-!
Building by command. The command runs in the package directory; it has built the package when it
ends well and the entry point is there.
-/

namespace Playground

/-- How a command ended. -/
inductive CommandEnd where
  | exited (status : Nat)
  | killed (signal : Nat)
deriving DecidableEq, Repr

/-- A command that builds a package. -/
structure BuildCommand where
  program : String
  arguments : List String
  /-- The entry point relative to the package directory. -/
  entryPoint : Path
deriving DecidableEq, Repr

namespace CommandEnd

/-- The wording of an end. Signals with a meaning of their own are named. -/
def message : CommandEnd → String
  | exited status => "exit status: " ++ toString status
  | killed signal =>
      "signal: " ++ toString signal ++
        (match Shell.Signal.table[signal]? with
          | some (name, _) => " (SIG" ++ name ++ ")"
          | none => "")

end CommandEnd

namespace BuildCommand

/-- How many lines of its output the report on a failed command keeps. -/
def reportLines : Nat := 20

/-- The command with the given words. -/
def ofList (words : List String) (entryPoint : Path) : Except String BuildCommand :=
  match words with
  | program :: arguments => .ok ⟨program, arguments, entryPoint⟩
  | [] => .error "build command is empty"

/-- The number of the process of the command. -/
def processNumber : Nat := 4711

/-- A process that has just started in a file tree. Its input is empty. -/
def process (t : FileTree) : Shell.Process where
  world :=
    let (tree, runnable) := Shell.Programs.install t
    { tree, runnable
      opened := #[Shell.Redirection.fresh .void true false false,
        Shell.Redirection.fresh .output false true false,
        Shell.Redirection.fresh .errors false true false]
      output := #[]
      errors := #[]
      nextProcess := processNumber + 1
      sent := []
      clock := 0
      ended := [] }
  number := processNumber
  rootNumber := processNumber
  ancestors := []
  descriptors := [(0, 0), (1, 1), (2, 2)]
  bindings := [⟨"PATH", some Shell.standardPath, true, false⟩, ⟨"HOME", some "/root", true, false⟩]
  frames := []
  functions := []
  aliases := []
  tracked := []
  options := []
  traps := []
  pending := []
  name := ""
  arguments := []
  optionIndex := 1
  optionOffset := none
  status := 0
  outputStatus := 0
  savedStatus := none
  errorLine := 0
  readLine := 0
  depth := 0
  command := none
  hasLostOutput := false
  skip := .nothing
  loops := 0
  documents := []
  nextDocument := 0
  directory := Shell.Narrow.narrow ("/" ++ "/".intercalate t.workDir)
  mask := 18
  jobs := []
  lastJob := none
  sleepers := []

/-- The path of the file of a program: where its name leads, or along the search path. Where there
is none, something else of the name hides that. -/
def programFile (t : FileTree) (name : String) : Except FileError String :=
  if name.toList.contains '/' then .ok name
  else if name = "" then .error .notFound
  else if FileTree.maxName < name.utf8ByteSize then .error .nameTooLong
  else
    let paths := Shell.candidates Shell.standardPath name
    match paths.find? fun path => t.isFile path with
    | some path => .ok path
    | none => .error (if paths.any fun path => (t.look true path).isOk then .denied else .notFound)

/-- What a command has printed, on its output and about its errors. -/
structure Printed where
  output : List UInt8
  errors : List UInt8
deriving DecidableEq, Repr

/-- Runs the command in a directory. Gives how it ended, what it printed, and the tree it left;
there is no end if it would go on for ever. -/
def run (c : BuildCommand) (directory : Path) (t : FileTree) :
    Except FileError (Option CommandEnd × Printed × FileTree) := do
  if (directory :: c.program :: c.arguments).any (·.toList.contains '\x00') then
    throw .nulInCommand
  match ← t.look true directory with
  | (place, .directory) => do
      let start := process { t with workDir := place }
      let file ← programFile start.world.tree c.program
      let act := Shell.Eval.start (Shell.Narrow.narrow file) (Shell.Narrow.narrow c.program)
        (c.arguments.map Shell.Narrow.narrow)
      let (outcome, p) := act.run.run start
      let printed : Printed := ⟨p.world.output.toList, p.world.errors.toList⟩
      let left := { Shell.Programs.remove p.world.tree with workDir := t.workDir }
      match outcome with
      | .ok (.error e) => throw e
      | .error (.killed signal) => return (some (.killed signal), printed, left)
      | .error .exhausted => return (none, printed, left)
      | _ => return (some (.exited (p.status % 256)), printed, left)
  | _ => throw .notDirectory

/-- The last lines of what was printed. The output and the errors are read as texts of their own, so
that a character that is cut off in one does not go on in the other. -/
def report (printed : Printed) : String :=
  let lines := Text.bareLines
    (Text.Utf8.decodeLossy printed.output ++ Text.Utf8.decodeLossy printed.errors)
  "\n".intercalate ((lines.drop (lines.length - reportLines)).map String.ofList)

/-- What an entry point comes to after the command has ended well. -/
def verify (t : FileTree) (entry : Path) : BuildResult :=
  match t.exists? entry with
  | .ok true => .built entry
  | .ok false => .failed ("entry point " ++ entry ++ " was not produced")
  | .error e => .failed ("failed to check entry point " ++ entry ++ ": " ++ e.message)

/-- Builds the package in a directory. -/
def build (c : BuildCommand) (directory : Path) (t : FileTree) : BuildResult × FileTree :=
  match c.run directory t with
  | .error e => (.failed ("failed to run " ++ c.program ++ ": " ++ e.message), t)
  | .ok (some (.exited 0), _, t) => (verify t (directory.join c.entryPoint), t)
  | .ok (some ending, printed, t) =>
      (.failed (c.program ++ " exited with " ++ ending.message ++ "\n" ++ report printed), t)
  | .ok (none, _, t) => (.broken, t)

/-- The builder that runs the command. -/
def builder (c : BuildCommand) : Builder :=
  fun _ directory => ⟨some 0, c.build directory⟩

end BuildCommand

end Playground
