import Playground.BufferId
/-!
Compiler messages, as the compiler reports them against files on disk and as the editor receives
them against buffers.
-/

namespace Playground

/-- How serious a message is. -/
inductive Severity where
  | hidden
  | info
  | warning
  | error
deriving DecidableEq, Repr, Inhabited

namespace Severity

/-- The word for a severity. -/
def word : Severity → String
  | hidden => "hidden"
  | info => "info"
  | warning => "warning"
  | error => "error"

/-- The severity with the given word. -/
def ofWord? : String → Option Severity
  | "hidden" => some hidden
  | "info" => some info
  | "warning" => some warning
  | "error" => some error
  | _ => none

/-- Whether the message is an error. -/
def isError (s : Severity) : Bool :=
  s == error

end Severity

/-- A message of the compiler, located by the path of a file and byte offsets in it. -/
structure RawDiagnostic where
  filePath : Option String
  start : Nat
  stop : Nat
  severity : Severity
  id : String
  message : String
deriving DecidableEq, Repr, Inhabited

/-- A message for the editor, located in a buffer. -/
structure Diagnostic where
  start : Nat
  stop : Nat
  message : String
  severity : Severity
  id : String
  bufferId : Option BufferId
deriving DecidableEq, Repr, Inhabited

namespace Diagnostic

/-- An error without a place. -/
def failure (id message : String) : Diagnostic :=
  ⟨0, 0, message, .error, id, none⟩

/-- Whether the message is an error. -/
def isError (d : Diagnostic) : Bool :=
  d.severity.isError

end Diagnostic

end Playground
