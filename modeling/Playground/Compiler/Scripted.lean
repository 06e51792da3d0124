import Playground.Compiler
import Playground.Files.Path
import Playground.Text.Replace
/-!
Scripted compilers. A scripted compiler finds errors by looking for pieces of text, and gives
otherwise the answers it was given.
-/

namespace Playground.Compiler

/-- A diagnostic to report wherever a piece of text occurs. -/
structure Rule where
  needle : String
  /-- Where the diagnostic starts, counted from the start of the occurrence. -/
  offset : Nat
  length : Nat
  severity : Severity
  id : String
  /-- The message; the word `path` in braces stands for the path of the file. -/
  message : String
deriving DecidableEq, Repr

/-- An answer, or the reason of a failure, after a delay. -/
structure Line (α : Type) where
  delay : Duration
  failure : Option String
  answer : α

/-- A planned compile. -/
structure CompilePart where
  diagnostics : List RawDiagnostic
  rules : List Rule
  assembly : Option (List UInt8)
  /-- Whether there is an assembly in spite of errors. -/
  always : Bool
deriving DecidableEq, Repr

/-- The part of a scripted compiler. -/
structure Script where
  compile : Line CompilePart
  run : Line RunOutput
  completions : Line (List CompletionItem)
  signatureHelp : Line SignatureHelp
  /-- Whether questions about a place are left to the defaults. -/
  minimal : Bool

/-- The reaction that a line asks for. -/
def Line.react {α β : Type} (l : Line α) (f : α → β) : Reaction β :=
  ⟨some l.delay, match l.failure with
    | some reason => .error reason
    | none => .ok (f l.answer)⟩

/-- The diagnostics of a rule in a file. -/
def Rule.findings (r : Rule) (path : Path) (text : List Char) : List RawDiagnostic :=
  let message := Text.replaceAll ['\x7b', 'p', 'a', 't', 'h', '\x7d'] path.toList r.message.toList
  (Text.occurrences r.needle.toList text).map fun index =>
    ⟨some path, index + r.offset, index + r.offset + r.length, r.severity, r.id,
      String.ofList message⟩

/-- Carries out a planned compile. -/
def CompilePart.perform (p : CompilePart) (input : CompileInput) : CompileOutput :=
  let found := input.files.flatMap fun file =>
    p.rules.flatMap (·.findings (input.packageDirectory.join file.name) file.text.toList)
  let diagnostics := p.diagnostics ++ found
  let failed := diagnostics.any (·.severity.isError)
  ⟨diagnostics, if failed && !p.always then none else p.assembly⟩

/-- The compiler that plays a script. -/
def scripted (s : Script) : Compiler where
  compile input := s.compile.react (·.perform input)
  run _ := s.run.react id
  completions := if s.minimal then none else some fun _ => s.completions.react id
  signatureHelp := if s.minimal then none else some fun _ => s.signatureHelp.react id

end Playground.Compiler
