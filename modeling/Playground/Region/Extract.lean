import Playground.Region
import Playground.Region.Marker
import Playground.Text.Line
/-!
Finding the regions of files. Start and end markers match like brackets; an end without a start and
a start without an end are passed over. A region is the text between its marker lines, and one file
must not start two regions of one name.
-/

namespace Playground

/-- Why a file has no well-formed regions: it starts `region` twice. -/
structure DuplicateRegion where
  file : String
  region : String
deriving DecidableEq, Repr

namespace Region

/-- A region whose end has not been met: its name, and the offset where its text begins. -/
structure Opened where
  name : List Char
  start : Nat
deriving DecidableEq, Repr

/-- State of the scan after some lines of a file. -/
structure Scan where
  /-- Offset of the next line. -/
  offset : Nat
  /-- Names of all start markers so far. -/
  seen : List (List Char)
  /-- The open regions, innermost first. -/
  opened : List Opened
  /-- The closed regions, latest first. -/
  closed : List Region
deriving Repr

/-- The state before the first line. -/
def Scan.start : Scan := ⟨0, [], [], []⟩

/-- Takes one line of the file `fileName` into account. -/
def Scan.line (fileName : String) (s : Scan) (line : List Char) :
    Except DuplicateRegion Scan :=
  let next := s.offset + Text.byteLength line
  match Marker.ofLine? line with
  | some (.start name) =>
      if name ∈ s.seen then .error ⟨fileName, String.ofList name⟩
      else .ok { s with offset := next, seen := name :: s.seen, opened := ⟨name, next⟩ :: s.opened }
  | some .stop =>
      match s.opened with
      | [] => .ok { s with offset := next }
      | o :: outer =>
          let region : Region :=
            { bufferId := .region fileName (String.ofList o.name)
              span := .ofBounds o.start s.offset
              destination := fileName }
          .ok { s with offset := next, opened := outer, closed := region :: s.closed }
  | none => .ok { s with offset := next }

/-- The regions of a file, by increasing start. -/
def ofFile (file : SourceFile) : Except DuplicateRegion (List Region) := do
  let s ← (Text.lines file.text.toList).foldlM (Scan.line file.name) Scan.start
  return s.closed.reverse.mergeSort fun a b => decide (a.span.start ≤ b.span.start)

/-- The regions of several files, file after file. -/
def ofFiles (files : List SourceFile) : Except DuplicateRegion (List Region) := do
  return (← files.mapM ofFile).flatten

end Region

end Playground
