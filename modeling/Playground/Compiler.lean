import Playground.Exchange
import Playground.Package.Artifact
/-!
Compilers. A compiler turns files into an assembly, runs assemblies, and answers questions about a
place in a file. It works on whole files and reports absolute offsets; each of its answers takes a
while or never comes.
-/

namespace Playground

/-- What a compiler gets to compile. -/
structure CompileInput where
  files : List SourceFile
  usings : List String
  packageDirectory : Path
  package : Artifact
  includeInstrumentation : Bool
deriving DecidableEq, Repr

/-- What a compile yields; there is no assembly when it failed. -/
structure CompileOutput where
  diagnostics : List RawDiagnostic
  assembly : Option (List UInt8)
deriving DecidableEq, Repr

/-- What a compiler gets to run. -/
structure RunInput where
  assembly : List UInt8
  args : Option String
  /-- How long the program may take. -/
  timeout : Option Duration
  package : Artifact
deriving DecidableEq, Repr

/-- What a program printed, and the exception that ended it. -/
structure RunOutput where
  stdout : String
  stderr : String
  exception : Option String
deriving DecidableEq, Repr

/-- A question about a place in a file. -/
structure CursorInput where
  files : List SourceFile
  usings : List String
  package : Artifact
  fileName : String
  offset : Nat
deriving DecidableEq, Repr

/-- The signatures that fit a call, and which of them and of its parameters is meant. -/
structure SignatureHelp where
  signatures : List Signature
  activeSignature : Nat
  activeParameter : Nat
deriving DecidableEq, Repr

/-- An answer and how long it takes; without a duration it never comes. A failure has a reason. -/
structure Reaction (α : Type) where
  duration : Option Duration
  result : Except String α

namespace Reaction

/-- An answer that is there at once. -/
def instant {α : Type} (a : α) : Reaction α :=
  ⟨some 0, .ok a⟩

/-- The answer to a question asked at `since`, if it has come by `now`. -/
def due? {α : Type} (r : Reaction α) (since now : Instant) : Option (Except String α) :=
  if r.duration.any fun d => Clock.hasFired now (since + d) then some r.result else none

/-- When the answer to a question asked at `since` comes. -/
def wakes {α : Type} (r : Reaction α) (since now : Instant) : List Instant :=
  (r.duration.map fun d => Clock.wakeTime now (since + d)).toList

end Reaction

/-- A compiler. Answering questions about a place is optional. -/
structure Compiler where
  compile : CompileInput → Reaction CompileOutput
  run : RunInput → Reaction RunOutput
  completions : Option (CursorInput → Reaction (List CompletionItem))
  signatureHelp : Option (CursorInput → Reaction SignatureHelp)

/-- What a compiler is asked. -/
inductive CompilerCall where
  | compile (input : CompileInput)
  | run (input : RunInput)
  | completions (input : CursorInput)
  | signatureHelp (input : CursorInput)
deriving DecidableEq, Repr

end Playground
