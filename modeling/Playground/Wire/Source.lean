import Playground.Exchange
import Playground.Region
import Playground.Wire.Record
/-!
Wire forms of spans, files, buffers, workspaces, requests and regions.
-/

namespace Playground

open Wire

/-- A list as an array. -/
def Json.ofList {α : Type} (write : α → Json) (items : List α) : Json :=
  .arr (items.map write)

namespace Span

def toJson (s : Span) : Json :=
  .record [("start", .ofNat s.start), ("length", .ofNat s.length)]

def ofJson? (j : Json) : Option Span := do
  let [start, length] ← slots? [["start"], ["length"]] j | none
  return ⟨← required Json.uint? start, ← required Json.uint? length⟩

end Span

namespace BufferId

def toJson (id : BufferId) : Json :=
  .str id.render

def ofJson? (j : Json) : Option BufferId :=
  j.str?.map parse

end BufferId

namespace Language

def toJson (l : Language) : Json :=
  .str l.tag

def ofJson? (j : Json) : Option Language :=
  j.str?.map ofTag

end Language

namespace SourceFile

def toJson (f : SourceFile) : Json :=
  .record [("name", .str f.name), ("text", .str f.text)]

def ofJson? (j : Json) : Option SourceFile := do
  let [name, text] ← slots? [["name"], ["text"]] j | none
  return ⟨← required Json.str? name, ← required Json.str? text⟩

end SourceFile

namespace Buffer

def toJson (b : Buffer) : Json :=
  .record [("id", b.id.toJson), ("content", .str b.content), ("position", .ofNat b.position)]

/-- The content may also be sent as `text`. -/
def ofJson? (j : Json) : Option Buffer := do
  let [id, content, position] ← slots? [["id"], ["content", "text"], ["position"]] j | none
  return ⟨← required BufferId.ofJson? id, ← required Json.str? content,
    ← defaulted Json.uint? 0 position⟩

end Buffer

namespace Workspace

def toJson (w : Workspace) : Json :=
  .record [
    ("files", .ofList SourceFile.toJson w.files),
    ("buffers", .ofList Buffer.toJson w.buffers),
    ("usings", .ofList Json.str w.usings),
    ("workspaceType", .str w.workspaceType),
    ("language", w.language.toJson),
    ("includeInstrumentation", .bool w.includeInstrumentation)]

def ofJson? (j : Json) : Option Workspace := do
  let [files, buffers, usings, workspaceType, language, instrumentation] ←
    slots? [["files"], ["buffers"], ["usings"], ["workspaceType"], ["language"],
      ["includeInstrumentation"]] j | none
  return {
    files := ← defaulted (Json.list? SourceFile.ofJson?) [] files
    buffers := ← defaulted (Json.list? Buffer.ofJson?) [] buffers
    usings := ← defaulted (Json.list? Json.str?) [] usings
    workspaceType := ← defaulted Json.str? defaultType workspaceType
    language := ← defaulted Language.ofJson? .csharp language
    includeInstrumentation := ← defaulted Json.bool? false instrumentation }

end Workspace

namespace Request

def toJson (r : Request) : Json :=
  .record ([
    ("workspace", r.workspace.toJson),
    ("activeBufferId", r.activeBufferId.toJson),
    ("requestId", .str r.requestId)] ++ optionalMember "runArgs" Json.str r.runArgs)

def ofJson? (j : Json) : Option Request := do
  let [workspace, activeBufferId, requestId, runArgs] ←
    slots? [["workspace"], ["activeBufferId"], ["requestId"], ["runArgs"]] j | none
  return {
    workspace := ← required Workspace.ofJson? workspace
    activeBufferId := ← defaulted BufferId.ofJson? (.file "") activeBufferId
    requestId := ← defaulted Json.str? "" requestId
    runArgs := ← optional Json.str? runArgs }

end Request

namespace Region

def toJson (r : Region) : Json :=
  .record [
    ("bufferId", r.bufferId.toJson),
    ("region", r.span.toJson),
    ("destination", .str r.destination)]

def ofJson? (j : Json) : Option Region := do
  let [bufferId, span, destination] ←
    slots? [["bufferId"], ["region"], ["destination"]] j | none
  return ⟨← required BufferId.ofJson? bufferId, ← required Span.ofJson? span,
    ← required Json.str? destination⟩

end Region

end Playground
