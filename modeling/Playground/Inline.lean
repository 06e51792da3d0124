import Playground.WorkspaceError
/-!
Inlining: the workspace that the compiler sees for one active buffer. Whole-file buffers replace or
add their files. When the active buffer is a region, buffers also replace the regions they are for,
and in the file of the active region every other region is blanked, except those around it. A
replaced region reads: line feed, text, line feed.
-/

namespace Playground.Inline

/-- Length of the padding at each end of a replaced region. -/
def paddingSize : Nat := 1

/-- The text of a replaced region. -/
def padded (text : List Char) : List Char :=
  '\n' :: text ++ ['\n']

/-- Spaces of the same length in bytes, with every line feed and carriage return in its place. -/
def blank (text : List Char) : List Char :=
  text.flatMap fun c => if c = '\n' ∨ c = '\r' then [c] else List.replicate c.utf8Size ' '

/-- Changes the first element that satisfies `p`, or puts `fresh` at the end. -/
def changeFirst {α : Type} (p : α → Bool) (change : α → α) (fresh : α) : List α → List α
  | [] => [fresh]
  | x :: xs => if p x then change x :: xs else x :: changeFirst p change fresh xs

/-- Sets the text of the file that a whole-file buffer is for. -/
def applyBuffer (files : List SourceFile) (b : Buffer) : List SourceFile :=
  changeFirst (·.isNamed b.id.fileName) (fun f => { f with text := b.content })
    ⟨b.id.fileName, b.content⟩ files

/-- The files of a workspace after its whole-file buffers, in order. -/
def baseFiles (w : Workspace) : List SourceFile :=
  (w.buffers.filter (!·.id.hasRegion)).foldl applyBuffer w.files

/-- A stretch of text and what takes its place. -/
structure Edit where
  span : Span
  text : List Char
deriving DecidableEq, Repr

/-- What the regions of one file are inlined for. -/
structure Target where
  workspace : Workspace
  active : BufferId
  /-- The active region in this file. -/
  activeSpan : Option Span
  /-- Whether regions without a buffer are blanked. -/
  blankRest : Bool
deriving Repr

/-- What takes the place of a region with the given text; nothing when it stays as it is. -/
def replacement? (t : Target) (r : Region) (body : List Char) : Option (List Char) :=
  let buffer := t.workspace.buffer? r.bufferId
  if r.bufferId = t.active then
    some (padded ((buffer.map (·.content.toList)).getD body))
  else if t.activeSpan.any r.span.containsSpan then none
  else match buffer with
    | some b => some (padded b.content.toList)
    | none => if t.blankRest then some (blank body) else none

/-- Adds the edit for a region, unless it lies within a stretch that is edited already. -/
def addEdit (t : Target) (text : List Char) (edits : List Edit) (r : Region) : List Edit :=
  if edits.any (·.span.containsSpan r.span) then edits
  else match replacement? t r ((r.content? text).getD []) with
    | some new => edits ++ [⟨r.span, new⟩]
    | none => edits

/-- Outer regions come before the regions inside them. -/
def outerFirst (a b : Region) : Bool :=
  decide (a.span.start < b.span.start) ||
    (decide (a.span.start = b.span.start) && decide (b.span.length ≤ a.span.length))

/-- The edits for the regions of one file. -/
def edits (t : Target) (text : List Char) (regions : List Region) : List Edit :=
  (regions.mergeSort outerFirst).foldl (addEdit t text) []

/-- Applies edits one after the other. -/
def applyEdits (text : List Char) (edits : List Edit) : Option (List Char) :=
  edits.foldlM (fun text e => Text.splice text e.span.start e.span.stop e.text) text

/-- Applies the edits of one file from back to front, so that no edit moves a later one. -/
def revise (text : List Char) (edits : List Edit) : Option (List Char) :=
  applyEdits text (edits.mergeSort fun a b => decide (b.span.start ≤ a.span.start))

/-- Inlines the regions of one file for the active buffer. -/
def inlineFile (w : Workspace) (active : BufferId) (regions : List Region) (file : SourceFile) :
    Except WorkspaceError SourceFile :=
  match regions.filter fun r => file.isNamed r.destination with
  | [] => .ok file
  | own =>
      let activeRegion := own.find? (·.bufferId == active)
      let target : Target := ⟨w, active, activeRegion.map (·.span), activeRegion.isSome⟩
      let text := file.text.toList
      match revise text (edits target text own) with
      | some text => .ok { file with text := String.ofList text }
      | none => .error (.misfit file.name)

/-- The first id that names a region which is not among those found. -/
def unknownRegion? (regions : List Region) (ids : List BufferId) : Option BufferId :=
  ids.find? fun id => id.hasRegion && !regions.any (·.bufferId == id)

end Inline

open Inline in
/-- The workspace that the compiler sees for `active`. It fails when `active` is a file that does
not exist, when a file starts two regions of one name, and when a buffer or `active` is a region
that no file has. -/
def inline (w : Workspace) (active : BufferId) : Except WorkspaceError Workspace := do
  let files := baseFiles w
  if !active.isEmpty && !active.hasRegion && !files.any (·.isNamed active.fileName) then
    throw (.unknownBuffer active)
  let regions ← regionsOf files
  match unknownRegion? regions (w.buffers.map (·.id) ++ [active]) with
  | some id => throw (.unknownBuffer id)
  | none => pure ()
  if regions.isEmpty || !active.hasRegion then
    return w.withFiles files
  return w.withFiles (← files.mapM (inlineFile w active regions))

end Playground
