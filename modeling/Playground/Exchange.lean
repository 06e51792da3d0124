import Playground.Diagnostic
import Playground.Workspace
/-!
What a client sends and what it gets back: one request, and a result for each of the five services.
-/

namespace Playground

/-- A request: a workspace, the buffer the client works in, and an id to echo. -/
structure Request where
  workspace : Workspace
  activeBufferId : BufferId
  requestId : String
  runArgs : Option String
deriving DecidableEq, Repr

/-- Answer to a compile request. -/
structure CompileResult where
  succeeded : Bool
  diagnostics : List Diagnostic
  assemblyBase64 : Option String
  requestId : String
deriving DecidableEq, Repr

/-- Answer to a run request: the lines printed, and the exception that ended the program. -/
structure RunResult where
  succeeded : Bool
  output : List String
  exception : Option String
  diagnostics : List Diagnostic
  requestId : String
deriving DecidableEq, Repr

/-- Answer to a diagnostics request. -/
structure DiagnosticResult where
  diagnostics : List Diagnostic
  requestId : String
deriving DecidableEq, Repr

/-- A candidate for completing the text at the cursor. -/
structure CompletionItem where
  displayText : String
  kind : String
  insertText : Option String
  documentation : Option String
deriving DecidableEq, Repr

/-- Answer to a completion request. -/
structure CompletionResult where
  items : List CompletionItem
  diagnostics : List Diagnostic
  requestId : String
deriving DecidableEq, Repr

/-- A parameter of a signature. -/
structure Parameter where
  label : String
  documentation : Option String
deriving DecidableEq, Repr

/-- A signature that fits the call at the cursor. -/
structure Signature where
  label : String
  documentation : Option String
  parameters : List Parameter
deriving DecidableEq, Repr

/-- Answer to a signature help request. -/
structure SignatureResult where
  signatures : List Signature
  activeSignature : Nat
  activeParameter : Nat
  diagnostics : List Diagnostic
  requestId : String
deriving DecidableEq, Repr

/-- A failed compile. -/
def CompileResult.failed (requestId : String) (diagnostics : List Diagnostic) : CompileResult :=
  ⟨false, diagnostics, none, requestId⟩

/-- A failed run without output. -/
def RunResult.failed (requestId : String) (exception : Option String)
    (diagnostics : List Diagnostic) : RunResult :=
  ⟨false, [], exception, diagnostics, requestId⟩

end Playground
