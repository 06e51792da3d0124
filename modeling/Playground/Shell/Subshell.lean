import Playground.Shell.Builtins.Control
/-!
Processes of their own: subshells and programs. They share the world with the process that waits for
them, and nothing else.
-/

namespace Playground.Shell

/-- How the parts of a script are carried out that others consist of. -/
structure Mode where
  /-- A failure does not end a strict script. -/
  isTested : Bool := false
  /-- Nothing comes after it. -/
  isLast : Bool := false

/-- Something to be carried out. -/
inductive Task where
  | command (mode : Mode) (c : Command)
  /-- The lines of a script; those of a file may be shown. -/
  | script (isTested isFile : Bool) (text : String)

/-- Carrying out. It gives the exit status. -/
abbrev Runner := Task → Act Nat

/-- The process that starts beside another one, with the same open files. -/
def Process.child (p : Process) : Process :=
  { p with
    world := { p.world with nextProcess := p.world.nextProcess + 1 }
    number := p.world.nextProcess
    ancestors := p.number :: p.ancestors
    traps := p.traps.filter fun t => t.2.isEmpty
    pending := []
    jobs := [] }

/-- The number of the signal that tells of the end of a child. -/
def childSignal : Nat := 17

/-- Does something in a process of its own up to its end. -/
def forkAside (body : Act Unit) : Act Ending := do
  let before ← get
  let (result, after) := body.run.run before.child
  let tree := { after.world.tree with workDir := before.world.tree.workDir }
  set { before with world := { after.world with tree }, sleepers := after.sleepers }
  match result with
  | .error (.killed signal) => return .killed signal
  | .error .exhausted => throw .exhausted
  | _ => return .exited (after.status % 256)

/-- Does something in a process of its own, and waits for its end. -/
def fork (body : Act Unit) : Act Ending := do
  let ending ← forkAside body
  receiveSent
  receive childSignal
  return ending

/-- What comes back after a script has stopped: the status to end with counts, where the script asks
for one. -/
def settle (stop : Stop) (p : Process) : Process :=
  let status :=
    if stop = .exit ∨ p.skip = .back true then p.savedStatus.getD p.status else p.status
  { p with status, savedStatus := none, skip := .nothing, loops := 0 }

/-- Does something, and gives why it stopped before its end, if the process itself goes on. -/
def stopOf (body : Act Unit) : Act (Option Stop) :=
  tryCatch (do body; return none) fun stop =>
    match stop with
    | .killed _ | .exhausted | .replaced => throw stop
    | stop => return some stop

/-- Does something as a shell that ends with it: at last comes what the script has set for its end,
which may change the status by ending in its own way. -/
def toEnd (run : Runner) (body : Act Unit) : Act Unit := do
  match ← stopOf body with
  | some stop => modify (settle stop)
  | none => pure ()
  let p ← get
  match p.traps.lookup 0 with
  | none => return ()
  | some action => do
      let status := p.status
      set { p with
        traps := p.traps.filter (·.1 != 0)
        savedStatus := some status
        skip := .nothing }
      match ← stopOf (do let _ ← run (.script false false action)) with
      | none => modify fun p => { p with status := p.savedStatus.getD status }
      | some .exit => modify fun p => { p with status := p.savedStatus.getD status }
      | some _ => pure ()

/-- Carries out what was set for signals that have come, those with lower numbers first. -/
def runTraps (run : Runner) : Act Unit := do
  let p ← get
  if p.pending.isEmpty then return ()
  let status := p.savedStatus.getD p.status
  set { p with savedStatus := some status, pending := [] }
  go status (p.pending.mergeSort fun a b => a ≤ b)
  modify fun q => { q with savedStatus := p.savedStatus }
where
  /-- Carries out the traps of signals in turn. -/
  go (status : Nat) : List Nat → Act Unit
    | [] => return ()
    | n :: rest => do
        let p ← get
        if p.skip ≠ .nothing then set { p with pending := p.pending ++ n :: rest }
        else
          match p.traps.lookup n with
          | some action => do
              let _ ← run (.script false false action)
              if (← get).skip ≠ .back false then setStatus status
          | none => pure ()
          go status rest

/-- Whether something has been set to be done for a signal or at the end. -/
def Process.hasTraps (p : Process) : Bool :=
  p.traps.any fun t => !t.2.isEmpty

end Playground.Shell
