import Playground.Text.Blank
import Playground.Text.Bytes
import Playground.Text.Word
/-!
Marker lines. A region starts at a line `#region name` and ends at a line `#endregion`; either may
stand behind blanks and one `//`.
-/

namespace Playground.Region

/-- What a marker line says. -/
inductive Marker where
  | start (name : List Char)
  | stop
deriving DecidableEq, Repr

namespace Marker

/-- Drops blanks, then one comment opener with the blanks after it. -/
def afterLead (line : List Char) : List Char :=
  match Text.trimStart line with
  | '/' :: '/' :: rest => Text.trimStart rest
  | rest => rest

/-- The name of the region that the line starts: the run of non-blanks after `#region` and at least
one blank. -/
def startName? (line : List Char) : Option (List Char) := do
  let rest ← Text.dropLead "#region".toList (afterLead line)
  match rest with
  | [] => none
  | c :: rest =>
      if Text.isBlank c then
        match (Text.trimStart rest).takeWhile (!Text.isBlank ·) with
        | [] => none
        | name => some name
      else none

/-- Whether the line ends a region: `#endregion`, not followed by a word character. -/
def isStop (line : List Char) : Bool :=
  match Text.dropLead "#endregion".toList (afterLead line) with
  | none => false
  | some [] => true
  | some (c :: _) => !Text.isWordChar c

/-- What the line says, if it is a marker. All line feeds and carriage returns at its end are left
out of consideration. -/
def ofLine? (line : List Char) : Option Marker :=
  let line := Text.dropEndWhile (fun c => c == '\n' || c == '\r') line
  match startName? line with
  | some name => some (.start name)
  | none => if isStop line then some .stop else none

end Marker

end Playground.Region
