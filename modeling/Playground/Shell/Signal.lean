import Playground.Shell.Number
/-!
Signals: their numbers, names and descriptions, and what becomes of a process that gets one.
-/

namespace Playground.Shell.Signal

/-- The names of the first signals, and how the end of a process by one is described. Number 0 is
the end of the shell itself. -/
def table : List (String × String) :=
  [("EXIT", "EXIT"), ("HUP", "Hangup"), ("INT", "Interrupt"), ("QUIT", "Quit"),
    ("ILL", "Illegal instruction"), ("TRAP", "Trace/breakpoint trap"), ("ABRT", "Aborted"),
    ("BUS", "Bus error"), ("FPE", "Floating point exception"), ("KILL", "Killed"),
    ("USR1", "User defined signal 1"), ("SEGV", "Segmentation fault"),
    ("USR2", "User defined signal 2"), ("PIPE", "Broken pipe"), ("ALRM", "Alarm clock"),
    ("TERM", "Terminated"), ("STKFLT", "Stack fault"), ("CHLD", "Child exited"),
    ("CONT", "Continued"), ("STOP", "Stopped (signal)"), ("TSTP", "Stopped"),
    ("TTIN", "Stopped (tty input)"), ("TTOU", "Stopped (tty output)"),
    ("URG", "Urgent I/O condition"), ("XCPU", "CPU time limit exceeded"),
    ("XFSZ", "File size limit exceeded"), ("VTALRM", "Virtual timer expired"),
    ("PROF", "Profiling timer expired"), ("WINCH", "Window changed"), ("IO", "I/O possible"),
    ("PWR", "Power failure"), ("SYS", "Bad system call")]

/-- The number of the first signal without a meaning of its own. -/
def firstFree : Nat := 34

/-- One more than the number of the last signal. -/
def bound : Nat := 65

/-- The name of a signal without a meaning of its own, counted from the nearer end. -/
def freeName (n : Nat) : String :=
  if n = firstFree then "RTMIN"
  else if n = bound - 1 then "RTMAX"
  else if n < 50 then "RTMIN+" ++ toString (n - firstFree)
  else "RTMAX-" ++ toString (bound - 1 - n)

/-- The number of the signal for a fault of a coprocessor's stack, which the shell has no name for.
-/
def stackFault : Nat := 16

/-- The name of a signal to the shell; its number if it has none. -/
def name (n : Nat) : String :=
  if n = stackFault then toString n
  else match table[n]? with
    | some entry => entry.1
    | none => if n < firstFree then toString n else freeName n

/-- How the end of a process by a signal is described. -/
def description (n : Nat) : String :=
  match table[n]? with
  | some entry => entry.2
  | none =>
      if n < firstFree then "Unknown signal " ++ toString n
      else "Real-time signal " ++ toString (n - firstFree)

/-- The signal that a word stands for, with at least the given number if it is a name. -/
def ofWord? (least : Nat) (word : String) : Option Nat :=
  if !word.isEmpty && word.toList.all Char.isDigit then
    let n := digitsValue 10 word.toList
    if n < bound then some n else none
  else
    let word := word.toList.map Char.toUpper
    ((List.range bound).drop least).find? fun n => (name n).toList == word

/-- Whether a process that has made no arrangements goes on. -/
def isHarmless (n : Nat) : Bool :=
  n == 17 || n == 18 || n == 23 || n == 28

/-- Whether a process can make arrangements for the signal. -/
def isCatchable (n : Nat) : Bool :=
  n != 9 && n != 19

/-- Whether the shell says nothing about the end of a process by the signal. -/
def isQuiet (n : Nat) : Bool :=
  n == 2 || n == 13

end Playground.Shell.Signal
