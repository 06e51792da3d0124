import Playground.Shell.Jobs
import Playground.Shell.Options
import Playground.Shell.Variable
/-!
Commands of the shell that change the course of a script: they leave loops and functions, end the
script, and send and catch signals.
-/

namespace Playground.Shell

/-- The process gets a signal: it is noted where a trap waits for it, and may be the end. -/
def receive (signal : Nat) : Act Unit := do
  let p ← get
  match if Signal.isCatchable signal then p.traps.lookup signal else none with
  | some action =>
      if !action.isEmpty && !p.pending.contains signal then
        set { p with pending := signal :: p.pending }
  | none => if signal ≠ 0 && !Signal.isHarmless signal then throw (.killed signal)

/-- Gets the signals that were sent while another process was running. -/
def receiveSent : Act Unit := do
  let p ← get
  let (own, others) := p.world.sent.partition fun s => s.1 == p.number
  set { p with world := { p.world with sent := others } }
  for s in own do receive s.2

/-- A process in the background gets a signal. -/
def receiveAsleep (signal : Nat) (s : Sleeper Process) : Act Unit := do
  let p ← get
  let others := p.sleepers.filter (·.number != s.number)
  match if Signal.isCatchable signal then s.process.traps.lookup signal else none with
  | some action =>
      if !action.isEmpty then
        let pending := signal :: s.process.pending.filter (· != signal)
        set { p with sleepers := others ++ [{ s with process := { s.process with pending } }] }
  | none =>
      if signal ≠ 0 && !Signal.isHarmless signal then
        let ended := (s.number, .killed signal) :: p.world.ended
        set { p with sleepers := others, world := { p.world with ended } }

/-- Sends a signal to a process. Gives whether there is one. -/
def send (number signal : Nat) : Act Bool := do
  let p ← get
  if number = p.number then
    receive signal
    return true
  else if p.ancestors.contains number then
    set { p with world := { p.world with sent := p.world.sent ++ [(number, signal)] } }
    return true
  else
    match p.sleepers.find? (·.number == number) with
    | some s => do
        receiveAsleep signal s
        return true
    | none => return p.jobs.any fun j => j.number == number && j.ending.isNone

namespace Builtins

/-- Leaves loops, or goes on with the next round of one. -/
def leaveLoops (goesOn : Bool) (arguments : List String) : Act Nat := do
  let wanted ← match arguments with
    | a :: _ => do
        let n ← count a
        if n = 0 then illegalNumber a
        pure n
    | [] => pure 1
  let n := min wanted (← get).loops
  if 0 < n then modify fun p => { p with skip := if goesOn then .again n else .leave n }
  return 0

/-- Goes back to the caller of a function, or ends the reading of a file. -/
def return_ (arguments : List String) : Act Nat := do
  match arguments with
  | a :: _ => do
      let n ← count a
      modify fun p => { p with skip := .back false }
      return n
  | [] => do
      modify fun p => { p with skip := .back true }
      return (← get).status

/-- Ends the script. -/
def exit (arguments : List String) : Act Nat := do
  match arguments with
  | a :: _ => do
      let n ← count a
      modify fun p => { p with savedStatus := some n }
  | [] => pure ()
  throw .exit

/-- Sets what is done when signals come, or shows it. -/
def trap (arguments : List String) : Act Nat := do
  let (_, operands) ← Options.ofCommand "" arguments
  match operands with
  | [] => do
      let traps := (← get).traps.mergeSort fun a b => a.1 ≤ b.1
      print (String.join (traps.map fun (n, action) =>
        "trap -- " ++ quoted action ++ " " ++ Signal.name n ++ "\n"))
      return 0
  | first :: rest => do
      let isReset := rest.isEmpty || (!first.isEmpty && first.toList.all Char.isDigit &&
        (Signal.ofWord? 0 first).isSome)
      let action := if isReset || first = "-" then none else some first
      setTraps action (if isReset then operands else rest)
where
  /-- Sets what is done when each of the named signals comes. -/
  setTraps (action : Option String) : List String → Act Nat
    | [] => return 0
    | word :: words => do
        match Signal.ofWord? 0 word with
        | none => do
            writeTo 2 ("trap: " ++ word ++ ": bad trap\n")
            return 1
        | some n => do
            modify fun p =>
              let others := p.traps.filter (·.1 != n)
              { p with traps := match action with
                | some s => (n, s) :: others
                | none => others }
            setTraps action words

/-- How signals are sent. -/
def killUsage : String :=
  "Usage: kill [-s sigspec | -signum | -sigspec] [pid | job]... or\nkill -l [exitstatus]"

/-- Lists the names of signals, or names the one of a status. -/
def listSignals (operands : List String) : Act Nat := do
  match operands with
  | [] => do
      print ("0\n" ++ String.join ((List.range Signal.bound).tail.map fun n =>
        Signal.name n ++ "\n"))
      return 0
  | word :: _ => do
      let n ← count word
      let n := if 128 < n then n - 128 else n
      if 0 < n ∧ n < Signal.bound then
        print (Signal.name n ++ "\n")
        return 0
      else fail ("invalid signal number or exit status: " ++ word)

/-- Sends a signal to processes. Gives status 1 if there is none of a number. -/
def sendAll (signal : Nat) : List String → Act Nat
  | [] => return 0
  | word :: words => do
      let isFound ← do
        if word.startsWith "%" then
          let _ ← Jobs.named word
          pure false
        else if word.startsWith "-" then
          let _ ← count (word.drop 1).toString
          pure false
        else send (← count word) signal
      if !isFound then warn "No such process\n"
      let later ← sendAll signal words
      return if isFound then later else 1

/-- Sends signals. -/
def kill (arguments : List String) : Act Nat := do
  match arguments with
  | [] => fail killUsage
  | first :: rest => do
      let direct := if first.startsWith "-" then Signal.ofWord? 1 (first.drop 1).toString else none
      match direct with
      | some signal => deliver (some signal) false rest
      | none => do
          let (options, operands) ← if first.startsWith "-" then
              Options.ofCommand "ls:" arguments
            else pure ([], arguments)
          let mut signal : Option Nat := none
          for (c, word) in options do
            if c = 's' then
              match Signal.ofWord? 1 word with
              | some n => signal := some n
              | none => fail ("invalid signal number or name: " ++ word)
          deliver signal (options.any (·.1 == 'l')) operands
where
  /-- Sends a signal, or lists signals. -/
  deliver (signal : Option Nat) (lists : Bool) (operands : List String) : Act Nat := do
    let signal := if lists then signal else some (signal.getD 15)
    if (signal.isNone || operands.isEmpty) != lists then fail killUsage
    else if lists then listSignals operands
    else sendAll (signal.getD 15) operands

end Builtins

end Playground.Shell
