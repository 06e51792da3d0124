import Playground.Wire.Source
/-!
Wire forms of diagnostics and of the results of the five services.
-/

namespace Playground

open Wire

namespace Severity

def toJson (s : Severity) : Json :=
  .str s.word

/-- A severity is sent as its word, or as an object whose only member has that word as its name and
`null` as its value. -/
def ofJson? : Json → Option Severity
  | .str word => ofWord? word
  | .obj [(some word, .null)] => ofWord? word
  | _ => none

end Severity

namespace RawDiagnostic

def toJson (d : RawDiagnostic) : Json :=
  .record [
    ("filePath", d.filePath.elim .null .str),
    ("start", .ofNat d.start),
    ("end", .ofNat d.stop),
    ("severity", d.severity.toJson),
    ("id", .str d.id),
    ("message", .str d.message)]

def ofJson? (j : Json) : Option RawDiagnostic := do
  let [filePath, start, stop, severity, id, message] ←
    slots? [["filePath"], ["start"], ["end"], ["severity"], ["id"], ["message"]] j | none
  return {
    filePath := ← optional Json.str? filePath
    start := ← required Json.uint? start
    stop := ← required Json.uint? stop
    severity := ← required Severity.ofJson? severity
    id := ← required Json.str? id
    message := ← required Json.str? message }

end RawDiagnostic

namespace Diagnostic

def toJson (d : Diagnostic) : Json :=
  .record ([
    ("start", .ofNat d.start),
    ("end", .ofNat d.stop),
    ("message", .str d.message),
    ("severity", d.severity.toJson),
    ("id", .str d.id)] ++ optionalMember "bufferId" BufferId.toJson d.bufferId)

def ofJson? (j : Json) : Option Diagnostic := do
  let [start, stop, message, severity, id, bufferId] ←
    slots? [["start"], ["end"], ["message"], ["severity"], ["id"], ["bufferId"]] j | none
  return {
    start := ← required Json.uint? start
    stop := ← required Json.uint? stop
    message := ← required Json.str? message
    severity := ← required Severity.ofJson? severity
    id := ← required Json.str? id
    bufferId := ← optional BufferId.ofJson? bufferId }

end Diagnostic

namespace CompileResult

def toJson (r : CompileResult) : Json :=
  .record ([
    ("succeeded", .bool r.succeeded),
    ("diagnostics", .ofList Diagnostic.toJson r.diagnostics)] ++
    optionalMember "assemblyBase64" Json.str r.assemblyBase64 ++
    [("requestId", .str r.requestId)])

def ofJson? (j : Json) : Option CompileResult := do
  let [succeeded, diagnostics, assemblyBase64, requestId] ←
    slots? [["succeeded"], ["diagnostics"], ["assemblyBase64"], ["requestId"]] j | none
  return {
    succeeded := ← required Json.bool? succeeded
    diagnostics := ← required (Json.list? Diagnostic.ofJson?) diagnostics
    assemblyBase64 := ← optional Json.str? assemblyBase64
    requestId := ← required Json.str? requestId }

end CompileResult

namespace RunResult

def toJson (r : RunResult) : Json :=
  .record ([
    ("succeeded", .bool r.succeeded),
    ("output", .ofList Json.str r.output)] ++
    optionalMember "exception" Json.str r.exception ++
    [("diagnostics", .ofList Diagnostic.toJson r.diagnostics),
      ("requestId", .str r.requestId)])

def ofJson? (j : Json) : Option RunResult := do
  let [succeeded, output, exception, diagnostics, requestId] ←
    slots? [["succeeded"], ["output"], ["exception"], ["diagnostics"], ["requestId"]] j | none
  return {
    succeeded := ← required Json.bool? succeeded
    output := ← required (Json.list? Json.str?) output
    exception := ← optional Json.str? exception
    diagnostics := ← required (Json.list? Diagnostic.ofJson?) diagnostics
    requestId := ← required Json.str? requestId }

end RunResult

namespace DiagnosticResult

def toJson (r : DiagnosticResult) : Json :=
  .record [
    ("diagnostics", .ofList Diagnostic.toJson r.diagnostics),
    ("requestId", .str r.requestId)]

def ofJson? (j : Json) : Option DiagnosticResult := do
  let [diagnostics, requestId] ← slots? [["diagnostics"], ["requestId"]] j | none
  return ⟨← required (Json.list? Diagnostic.ofJson?) diagnostics, ← required Json.str? requestId⟩

end DiagnosticResult

namespace CompletionItem

def toJson (c : CompletionItem) : Json :=
  .record ([
    ("displayText", .str c.displayText),
    ("kind", .str c.kind)] ++
    optionalMember "insertText" Json.str c.insertText ++
    optionalMember "documentation" Json.str c.documentation)

def ofJson? (j : Json) : Option CompletionItem := do
  let [displayText, kind, insertText, documentation] ←
    slots? [["displayText"], ["kind"], ["insertText"], ["documentation"]] j | none
  return {
    displayText := ← required Json.str? displayText
    kind := ← required Json.str? kind
    insertText := ← optional Json.str? insertText
    documentation := ← optional Json.str? documentation }

end CompletionItem

namespace CompletionResult

def toJson (r : CompletionResult) : Json :=
  .record [
    ("items", .ofList CompletionItem.toJson r.items),
    ("diagnostics", .ofList Diagnostic.toJson r.diagnostics),
    ("requestId", .str r.requestId)]

def ofJson? (j : Json) : Option CompletionResult := do
  let [items, diagnostics, requestId] ←
    slots? [["items"], ["diagnostics"], ["requestId"]] j | none
  return {
    items := ← required (Json.list? CompletionItem.ofJson?) items
    diagnostics := ← required (Json.list? Diagnostic.ofJson?) diagnostics
    requestId := ← required Json.str? requestId }

end CompletionResult

namespace Parameter

def toJson (p : Parameter) : Json :=
  .record (("label", .str p.label) :: optionalMember "documentation" Json.str p.documentation)

def ofJson? (j : Json) : Option Parameter := do
  let [label, documentation] ← slots? [["label"], ["documentation"]] j | none
  return ⟨← required Json.str? label, ← optional Json.str? documentation⟩

end Parameter

namespace Signature

def toJson (s : Signature) : Json :=
  .record (("label", .str s.label) ::
    optionalMember "documentation" Json.str s.documentation ++
    [("parameters", .ofList Parameter.toJson s.parameters)])

def ofJson? (j : Json) : Option Signature := do
  let [label, documentation, parameters] ←
    slots? [["label"], ["documentation"], ["parameters"]] j | none
  return {
    label := ← required Json.str? label
    documentation := ← optional Json.str? documentation
    parameters := ← defaulted (Json.list? Parameter.ofJson?) [] parameters }

end Signature

namespace SignatureResult

def toJson (r : SignatureResult) : Json :=
  .record [
    ("signatures", .ofList Signature.toJson r.signatures),
    ("activeSignature", .ofNat r.activeSignature),
    ("activeParameter", .ofNat r.activeParameter),
    ("diagnostics", .ofList Diagnostic.toJson r.diagnostics),
    ("requestId", .str r.requestId)]

def ofJson? (j : Json) : Option SignatureResult := do
  let [signatures, activeSignature, activeParameter, diagnostics, requestId] ←
    slots? [["signatures"], ["activeSignature"], ["activeParameter"], ["diagnostics"],
      ["requestId"]] j | none
  return {
    signatures := ← required (Json.list? Signature.ofJson?) signatures
    activeSignature := ← required Json.uint? activeSignature
    activeParameter := ← required Json.uint? activeParameter
    diagnostics := ← required (Json.list? Diagnostic.ofJson?) diagnostics
    requestId := ← required Json.str? requestId }

end SignatureResult

end Playground
