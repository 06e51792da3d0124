import Playground.Shell.Builtins.Control
import Playground.Shell.Builtins.Directory
import Playground.Shell.Builtins.Input
import Playground.Shell.Builtins.Jobs
import Playground.Shell.Builtins.Names
import Playground.Shell.Builtins.Variables
import Playground.Shell.Format
import Playground.Shell.Test
/-!
The commands of the shell that carry out no other commands, by name.
-/

namespace Playground.Shell.Builtins

/-- Prints arguments as a format says. -/
def printf (arguments : List String) : Act Nat := do
  let (_, operands) ← Options.ofCommand "" arguments
  match operands with
  | [] => fail "usage: printf format [arg ...]"
  | format :: rest => do
      let outcome := Format.printf format rest
      for complaint in outcome.complaints do warn complaint
      print (String.ofList outcome.output)
      match outcome.fault with
      | some fault => fail fault
      | none => return if outcome.complaints.isEmpty then 0 else 1

/-- Prints arguments. -/
def echo (arguments : List String) : Act Nat := do
  print (String.ofList (Format.echo arguments))
  return 0

/-- Shows the limit of what processes may use, or takes one that they do not come near. -/
def ulimit (arguments : List String) : Act Nat := do
  let (options, operands) ← Options.ofCommand "HSatfdscmlpnvwr" arguments
  match operands with
  | [] => print "unlimited\n"
  | word :: rest => do
      if !rest.isEmpty || options.any (·.1 == 'a') then fail "too many arguments"
      if word ≠ "unlimited" && !word.toList.all Char.isDigit then fail "bad number"
  return 0

/-- The command of the shell with a name. -/
def ofName? (name : String) : Option (List String → Act Nat) :=
  match name with
  | ":" | "true" => some fun _ => return 0
  | "false" => some fun _ => return 1
  | "[" => some (Test.command "[")
  | "test" => some (Test.command "test")
  | "alias" => some alias_
  | "break" => some (leaveLoops false)
  | "continue" => some (leaveLoops true)
  | "cd" | "chdir" => some cd
  | "command" => some command
  | "echo" => some echo
  | "exit" => some exit
  | "export" | "readonly" => some (markAll name)
  | "fg" | "bg" => some resume
  | "getopts" => some getopts
  | "hash" => some hash
  | "jobs" => some jobs
  | "kill" => some kill
  | "local" => some local_
  | "printf" => some printf
  | "pwd" => some pwd
  | "read" => some read
  | "return" => some return_
  | "set" => some set_
  | "shift" => some shift
  | "times" => some fun _ => do
      print "0m0.000000s 0m0.000000s\n0m0.000000s 0m0.000000s\n"
      return 0
  | "trap" => some trap
  | "type" => some type
  | "ulimit" => some ulimit
  | "umask" => some umask
  | "unalias" => some unalias
  | "unset" => some unsetAll
  | _ => none

end Playground.Shell.Builtins
