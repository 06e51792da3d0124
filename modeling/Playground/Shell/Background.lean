import Playground.Shell.Jobs
import Playground.Shell.Options
import Playground.Shell.Programs.Text
import Playground.Shell.Redirection
import Playground.Shell.Subshell
/-!
Processes beside the script. One in the background sleeps from its start on: it goes on when the
script has to wait for something, in the order in which such processes are due.
-/

namespace Playground.Shell

/-- The time that a command lets pass, if it does nothing else. -/
def pause? (c : Command) : Act (Option Nat) := do
  match c with
  | .simple _ (w :: ws) [] [] => do
      if Word.plain? w ≠ some "sleep" || (← get).has 'x' then return none
      let arguments := (← ws.mapM (Expansion.fields fun _ => return "")).flatten
      if arguments.isEmpty then return none
      return (arguments.mapM Programs.interval?).map (·.foldl (· + ·) 0)
  | _ => return none

/-- The commands that come one after another in a command. -/
def sequenceOf : Command → List Command
  | .sequence a b => sequenceOf a ++ sequenceOf b
  | c => [c]

/-- What a process in the background is to do for a command. -/
def stepsOf : Command → List Command
  | .subshell _ body [] => sequenceOf body
  | c => sequenceOf c

/-- Carries out commands up to the end or the next pause. Gives how long that is, and the commands
after it. -/
def upToPause (run : Runner) : List Command → Act (Nat × List Command)
  | [] => do
      runTraps run
      throw .finish
  | c :: rest => do
      match ← pause? c with
      | some pause => do
          runTraps run
          setStatus 0
          return (pause, rest)
      | none => do
          let _ ← run (.command { isLast := rest.isEmpty } c)
          if (← get).skip ≠ .nothing then throw .finish
          upToPause run rest

/-- The world of a process that goes on in its own working directory. -/
def World.inPlace (w : World) (place : World) : World :=
  { w with tree := { w.tree with workDir := place.tree.workDir } }

/-- Lets a process in the background go on up to its end or its next pause. -/
def wake (run : Runner) (s : Sleeper Process) : Act Unit := do
  let before ← get
  let world := { before.world with clock := max before.world.clock s.due }
  let act : Act (Option (Nat × List Command)) :=
    tryCatch (do return some (← upToPause run s.rest)) fun stop => do
      toEnd run (throw stop)
      return none
  let (result, after) := act.run.run { s.process with
    world := world.inPlace s.process.world
    sleepers := [] }
  let world := after.world.inPlace before.world
  let sleepers := before.sleepers.filter (·.number != s.number) ++ after.sleepers
  let ended (e : Ending) : Act Unit := do
    let ended := (s.number, e) :: world.ended
    set { before with world := { world with ended }, sleepers }
    receiveSent
    receive childSignal
  match result with
  | .ok (some (pause, rest)) =>
      let due := world.clock + pause
      let sleeper := ⟨s.number, due, { after with sleepers := [] }, rest⟩
      set { before with world, sleepers := sleepers ++ [sleeper] }
  | .error .exhausted => throw .exhausted
  | .error (.killed signal) => ended (.killed signal)
  | _ => ended (.exited (after.status % 256))

/-- The process in the background that goes on first. -/
def Process.nextSleeper? (p : Process) : Option (Sleeper Process) :=
  p.sleepers.foldl (fun first s =>
    match first with
    | some f => if s.due < f.due then some s else some f
    | none => some s) none

/-- Lets processes in the background go on one after another, at most `n` times, as long as the next
one satisfies a condition. -/
def wakeWhile (run : Runner) (condition : Process → Sleeper Process → Bool) : Nat → Act Unit
  | 0 => throw .exhausted
  | n + 1 => do
      let p ← get
      match p.nextSleeper? with
      | some s =>
          if condition p s then
            wake run s
            wakeWhile run condition n
      | none => return ()

/-- How often processes in the background may go on while something is waited for. -/
def maxWakes : Nat := 100000

/-- Lets the processes go on that are due. -/
def wakeDue (run : Runner) : Act Unit :=
  wakeWhile run (fun p s => s.due ≤ p.world.clock) maxWakes

/-- Waits until no process in the background has an open file at hand any more. -/
def awaitRelease (run : Runner) (file : Nat) : Act Unit :=
  wakeWhile run (fun p _ => p.sleepers.any fun s => s.process.descriptors.any (·.2 == file))
    maxWakes

/-- Waits for all processes in the background, after the end of the script. -/
def awaitOutput (run : Runner) : Act Unit := do
  modify fun p => { p with number := 0, ancestors := [], traps := [] }
  wakeWhile run (fun _ _ => true) maxWakes

/-- Does something in a process of its own, as a job in the foreground. Says if a signal ends it. -/
def inForeground (run : Runner) (body : Act Unit) : Act Ending := do
  let _ ← Jobs.takePlace
  wakeDue run
  let ending ← fork body
  wakeDue run
  Jobs.learn
  tellEnding ending
  return ending

/-- What a command prints, carried out in a process of its own. -/
def captured (run : Runner) : Capture := fun c => do
  let i ← Redirection.hold (Redirection.fresh .pipe true true false)
  let ending ← inForeground run (toEnd run do
    modify (·.point 1 (some i))
    let _ ← run (.command { isLast := true } c))
  awaitRelease run i
  modify fun p => { p with outputStatus := ending.status }
  return match (← get).world.opened[i]? with
    | some o => Narrow.ofBytes o.content.toList
    | none => ""

/-- Starts a command of so many processes that nobody waits for, under redirections. -/
def startBeside (run : Runner) (size : Nat) (c : Command) (targets : List Target) : Act Unit := do
  let slot ← Jobs.takePlace
  let before ← get
  let child := before.child
  let prepare : Act Unit := do
    let i ← Redirection.hold (Redirection.fresh .void true false false)
    modify (·.point 0 (some i))
    Redirection.make (captured run) targets
  let (result, after) := prepare.run.run child
  let number := child.number
  let job : Job := ⟨slot, number, number, size, none, false⟩
  let world := after.world.inPlace before.world
  let p := { before with world, jobs := job :: before.jobs, lastJob := some number }
  match result with
  | .ok _ =>
      let sleeper := ⟨number, world.clock, { after with sleepers := [] }, stepsOf c⟩
      set { p with sleepers := after.sleepers ++ [sleeper] }
  | .error _ =>
      let ended := (number, .exited after.status) :: world.ended
      set { p with world := { world with ended }, sleepers := after.sleepers }

/-- Waits for a job. Gives how it has ended. -/
def awaitJob (run : Runner) (j : Job) : Act Ending := do
  let isOver (p : Process) : Bool := p.world.ended.any (·.1 == j.number)
  if j.ending.isNone then wakeWhile run (fun p _ => !isOver p) maxWakes
  let ending := j.ending.getD (((← get).world.ended.lookup j.number).getD (.exited 0))
  Jobs.change fun jobs => jobs.map fun x =>
    if x.slot == j.slot then { x with ending := some ending, isAwaited := true } else x
  Jobs.learn
  return ending

/-- Waits for each of the jobs. Gives the status of the last one that is known. -/
def awaitEach (run : Runner) : List String → Nat → Act Nat
  | [], status => return status
  | word :: words, status => do
      match ← Jobs.find? word with
      | some j => do
          let ending ← awaitJob run j
          if j.ending.isNone then tellEnding ending
          awaitEach run words ending.status
      | none => awaitEach run words status

/-- Waits for jobs, or for all of them. -/
def wait (run : Runner) (arguments : List String) : Act Nat := do
  let (_, operands) ← Options.ofCommand "" arguments
  if operands.isEmpty then
    for j in (← get).jobs do
      let _ ← awaitJob run j
    return 0
  else awaitEach run operands 127

end Playground.Shell
