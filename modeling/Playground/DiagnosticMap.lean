import Playground.Diagnostic
import Playground.Inline
import Playground.Text.Replace
import Playground.Text.Split
/-!
Mapping the compiler's messages back to buffers. When the active buffer is a region, a message
belongs to it if it starts inside the region in the right file; its offsets are then counted from
the start of the buffer. Otherwise messages keep their offsets.
-/

namespace Playground

/-- The messages of one compile, for the client. -/
structure MappedDiagnostics where
  /-- Messages to show in the active buffer, in its coordinates. -/
  inActiveBuffer : List Diagnostic
  /-- All messages, in the coordinates of their files. -/
  all : List Diagnostic
deriving DecidableEq, Repr

namespace DiagnosticMap

/-- Whether the character separates directories. -/
def isSeparator (c : Char) : Bool :=
  c == '/' || c == '\\'

/-- The last part of a path. -/
def fileNameOf (path : String) : String :=
  String.ofList (path.toList.reverse.takeWhile (!isSeparator ·)).reverse

/-- The directory part of a path with its last separator, unless that separator comes first. -/
def directoryPart? (path : String) : Option (List Char) :=
  match path.toList.reverse.dropWhile (!isSeparator ·) with
  | sep :: c :: rest => some (sep :: c :: rest).reverse
  | _ => none

/-- Takes the directory of `path` out of a message. -/
def relativize (message path : String) : String :=
  match directoryPart? path with
  | some directory => String.ofList (Text.replaceAll directory [] message.toList)
  | none => message

/-- The message of a located diagnostic, with line and column. -/
def locatedMessage (d : RawDiagnostic) (line column : Nat) : String :=
  "(" ++ toString line ++ "," ++ toString column ++ "): " ++ d.severity.word ++ " " ++ d.id ++
    ": " ++ d.message

/-- A padded text without its padding. -/
def unpadded? (text : List Char) : Option (List Char) :=
  match text with
  | '\n' :: rest =>
      match rest.reverse with
      | '\n' :: rest => some rest.reverse
      | _ => none
  | _ => none

/-- The message in the coordinates of the active region, if it starts inside it. The line it starts
on must read the same in the buffer and in the file. -/
def intoRegion? (inlined : Workspace) (regions : List Region) (active : BufferId)
    (d : RawDiagnostic) (path : String) : Option Diagnostic := do
  let r ← regions.find? fun r =>
    r.bufferId == active && FileName.endsPath path r.destination && r.span.contains d.start
  let file ← inlined.file? r.destination
  let document := file.text.toList
  let text ← unpadded? (← r.content? document)
  let origin := r.span.start + Inline.paddingSize
  if d.start < origin then none
  else
    let start := d.start - origin
    let bufferLine ← Text.lineAt text start
    if Text.lineAt document d.start = some bufferLine then
      let (line, column) ← Text.lineColumn text start
      return {
        start
        stop := min (max (d.stop - origin) start) (Text.byteLength text)
        message := locatedMessage d line column
        severity := d.severity
        id := d.id
        bufferId := some active }
    else none

/-- The message in the coordinates of its file, shown for the given buffer. -/
def inFile (d : RawDiagnostic) (path : String) (buffer : BufferId) : Diagnostic :=
  ⟨d.start, d.stop, relativize d.message path, d.severity, d.id, some buffer⟩

/-- The message as part of the full list. -/
def unfiltered (d : RawDiagnostic) : Diagnostic :=
  match d.filePath with
  | some path => inFile d path (.file (fileNameOf path))
  | none => ⟨d.start, d.stop, d.message, d.severity, d.id, none⟩

/-- The message for the active buffer, if it is shown there. Without a path it is not; in another
file it is only when it is an error or no buffer is active. -/
def forActive? (inlined : Workspace) (regions : List Region) (active : BufferId)
    (d : RawDiagnostic) : Option Diagnostic := do
  let path ← d.filePath
  let inActiveFile := FileName.endsPath path active.fileName
  if !d.severity.isError && !active.isEmpty && !inActiveFile then none
  else if !regions.isEmpty && active.hasRegion then
    intoRegion? inlined regions active d path
  else
    return inFile d path (if inActiveFile then active else .file (fileNameOf path))

end DiagnosticMap

open DiagnosticMap in
/-- Maps the messages of a compile of `inlined` for the active buffer. The checkpoint is logged
before the budget is looked at. -/
def mapDiagnostics (inlined : Workspace) (active : BufferId) (ds : List RawDiagnostic)
    (budget : Budget) (now : Instant) : Budget × Except WorkspaceError MappedDiagnostics :=
  match budget.recordAndCheck now "diagnostics.map" with
  | (budget, .error e) => (budget, .error (.budget e))
  | (budget, .ok ()) =>
      (budget, do
        let regions ← regionsOf inlined.files
        return ⟨ds.filterMap (forActive? inlined regions active), ds.map unfiltered⟩)

end Playground
