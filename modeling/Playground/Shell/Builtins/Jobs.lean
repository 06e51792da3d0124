import Playground.Shell.Jobs
import Playground.Shell.Options
/-!
Commands of the shell about jobs: they list them, and fail to bring them to the front.
-/

namespace Playground.Shell.Builtins

/-- Prints what is known of jobs. -/
def jobs (arguments : List String) : Act Nat := do
  let (options, operands) ← Options.ofCommand "lp" arguments
  let listing : Jobs.Listing := match options.getLast? with
    | some (c, _) => if c = 'l' then .processes else .numbers
    | none => .states
  if operands.isEmpty then
    for j in (← get).jobs do Jobs.tell listing j
  else
    for word in operands do
      if word.startsWith "%" then Jobs.tell listing (← Jobs.named word)
      else fail ("No such job: " ++ word)
  return 0

/-- Complains that there is no job to go on with. -/
def resume (arguments : List String) : Act Nat := do
  let (_, operands) ← Options.ofCommand "" arguments
  let word := operands.headD "(null)"
  let _ ← if operands.isEmpty then Jobs.named "%"
    else if word.startsWith "%" then Jobs.named word
    else fail ("No such job: " ++ word)
  fail ("job " ++ word ++ " not created under job control")

end Playground.Shell.Builtins
