import Playground.Compiler
import Playground.DiagnosticMap
import Playground.Text.Base64
import Playground.Text.Line
/-!
What clients are told about a compile. A compile succeeds when there is an assembly and no error.
When it fails and no error is shown in the active buffer, all errors are reported, wherever they
are; if there is none, the failure itself is.
-/

namespace Playground

/-- A compile: the output of the compiler, and its diagnostics for the client. -/
structure Compiled where
  output : CompileOutput
  mapped : MappedDiagnostics
deriving DecidableEq, Repr

/-- A line that tells of an error. -/
def Diagnostic.line (d : Diagnostic) : String :=
  let text := d.severity.word ++ " " ++ d.id ++ ": " ++ d.message
  match d.bufferId with
  | some id => id.render ++ ": " ++ text
  | none => text

namespace Compiled

/-- Whether the compile succeeded. -/
def succeeded (c : Compiled) : Bool :=
  c.output.assembly.isSome && !c.output.diagnostics.any (·.severity.isError)

/-- The assembly of a compile that succeeded. -/
def assembly? (c : Compiled) : Option (List UInt8) :=
  if c.succeeded then c.output.assembly else none

/-- A compile that failed for no reason it tells. -/
def unexplained : Diagnostic :=
  .failure "CompilationFailed" "compilation produced no assembly"

/-- The errors to report in addition to what is shown in the active buffer. -/
def errorsElsewhere (c : Compiled) : List Diagnostic :=
  if c.succeeded || c.mapped.inActiveBuffer.any (·.isError) then []
  else
    let errors := c.mapped.all.filter (·.isError)
    if errors.isEmpty then [unexplained] else errors

/-- The diagnostics to report. -/
def reported (c : Compiled) : List Diagnostic :=
  c.mapped.inActiveBuffer ++ c.errorsElsewhere

/-- The answer to a compile request. -/
def compileResult (c : Compiled) (requestId : String) : CompileResult :=
  ⟨c.succeeded, c.reported, c.assembly?.map fun bytes => String.ofList (Text.Base64.encode bytes),
    requestId⟩

/-- The answer to a diagnostics request. -/
def diagnosticResult (c : Compiled) (requestId : String) : DiagnosticResult :=
  ⟨c.reported, requestId⟩

/-- The answer to a run request when there is nothing to run. -/
def failedRun (c : Compiled) (requestId : String) : RunResult :=
  { RunResult.failed requestId none c.mapped.inActiveBuffer with
    output := c.errorsElsewhere.map (·.line) }

/-- The answer to a run request when the program has ended. -/
def ranResult (c : Compiled) (ran : RunOutput) (requestId : String) : RunResult :=
  ⟨ran.exception.isNone, Text.linesOf ran.stdout ++ Text.linesOf ran.stderr, ran.exception,
    c.mapped.inActiveBuffer, requestId⟩

end Compiled

end Playground
