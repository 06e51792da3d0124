import Playground.Shell.Process
/-!
The processes in the background that a shell knows of. Those in the foreground are jobs too while
they run: they take a place, for which one that the script has waited for may be forgotten.
-/

namespace Playground.Shell

/-- The exit status that tells how a process has ended. -/
def Ending.status : Ending → Nat
  | exited status => status
  | killed signal => 128 + signal

/-- How a process has ended, for a list of jobs. -/
def Ending.text : Ending → String
  | exited 0 => "Done"
  | exited status => "Done(" ++ toString status ++ ")"
  | killed signal => Signal.description signal

/-- Says how a process has ended if a signal was the reason. -/
def tellEnding (e : Ending) : Act Unit :=
  match e with
  | .killed signal =>
      if Signal.isQuiet signal then return ()
      else writeTo 2 (Signal.description signal ++ "\n")
  | .exited _ => return ()

namespace Jobs

/-- Changes the jobs. -/
def change (f : List Job → List Job) : Act Unit :=
  modify fun p => { p with jobs := f p.jobs }

/-- Finds a place for one more job, among `n` from `slot` on. The job there is forgotten. -/
def place (jobs : List Job) : Nat → Nat → Nat
  | 0, slot => slot
  | n + 1, slot =>
      match jobs.find? (·.slot == slot) with
      | some j => if j.isAwaited then slot else place jobs n (slot + 1)
      | none => slot

/-- Takes a place for one more job. -/
def takePlace : Act Nat := do
  let jobs := (← get).jobs
  let slot := place jobs jobs.length 1
  change fun jobs => jobs.filter (·.slot != slot)
  return slot

/-- Learns which jobs have ended. -/
def learn : Act Unit := do
  let ended := (← get).world.ended
  change fun jobs => jobs.map fun j => { j with ending := j.ending.or (ended.lookup j.number) }

/-- The job that a word stands for, which starts with a percent sign. -/
def named (word : String) : Act Job := do
  let jobs := (← get).jobs
  let name := (word.drop 1).toString
  let (job?, complaint) :=
    if name = "" || name = "%" || name = "+" then (jobs.head?, "No current job")
    else if name = "-" then (jobs[1]?, "No previous job")
    else
      (if name.toList.all Char.isDigit then jobs.find? (·.slot == digitsValue 10 name.toList)
        else none, "No such job: " ++ word)
  match job? with
  | some j => return j
  | none => fail complaint

/-- The job whose last process has a number, or that a word stands for. -/
def find? (word : String) : Act (Option Job) := do
  if word.startsWith "%" then return some (← named word)
  else
    let number ← count word
    return (← get).jobs.find? (·.number == number)

/-- What the list of jobs says of them. -/
inductive Listing where
  | states
  /-- With the numbers of the processes. -/
  | processes
  /-- Nothing but the number of the first process. -/
  | numbers
deriving DecidableEq, Repr

/-- The line about a job; `rank` is its place in the list. -/
def line (listing : Listing) (rank : Nat) (j : Job) : String :=
  if listing = .numbers then toString j.first ++ "\n"
  else
    let sign := if rank = 0 then "+" else if rank = 1 then "-" else " "
    let lead := "[" ++ toString j.slot ++ "] " ++ sign ++ " "
    let lead := if listing = .processes then lead ++ toString j.first ++ " " else lead
    let text := lead ++ (j.ending.map Ending.text).getD "Running"
    let padded (s : String) : String :=
      s ++ String.ofList (List.replicate (max 1 (33 - s.length)) ' ')
    let further := (List.range j.size).tail
    if listing = .processes then
      let indent := String.ofList (List.replicate (lead.length - (toString j.first).length - 1) ' ')
      padded text ++ String.join (further.map fun i =>
        let s := " |\n" ++ indent ++ toString (j.first + i) ++ " "
        s ++ String.ofList (List.replicate (max 1 (36 - s.length)) ' ')) ++ "\n"
    else padded text ++ String.join (further.map fun _ => " | ") ++ "\n"

/-- Prints the line about a job. One that has ended is forgotten. -/
def tell (listing : Listing) (j : Job) : Act Unit := do
  let jobs := (← get).jobs
  print (line listing (jobs.findIdx (·.slot == j.slot)) j)
  if j.ending.isSome && listing ≠ .numbers then
    change fun jobs => jobs.filter (·.slot != j.slot)

end Jobs

end Playground.Shell
