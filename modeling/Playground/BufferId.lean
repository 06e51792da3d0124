import Playground.FileName
import Playground.Text.Split
/-!
Names of editable buffers. A buffer is a whole file, `file`, or a region of one, `file@region`. The
file name is kept in normal form and a region name is never empty.
-/

namespace Playground

/-- Name of a buffer: a file, or a region of a file. -/
structure BufferId where
  fileName : String
  regionName : Option String
deriving DecidableEq, Repr, Inhabited

namespace BufferId

/-- The buffer that is the whole file. -/
def file (name : String) : BufferId :=
  ⟨FileName.normalize name, none⟩

/-- The buffer of a region; an empty region name means the whole file. -/
def region (name region : String) : BufferId :=
  ⟨FileName.normalize name, if region = "" then none else some region⟩

/-- Reads the written form: the last `@` separates the region, which is trimmed. -/
def parse (s : String) : BufferId :=
  match Text.splitLast? '@' s.toList with
  | some (name, part) => region (String.ofList name) (String.ofList (Text.trim part))
  | none => file s

/-- The written form. -/
def render (id : BufferId) : String :=
  match id.regionName with
  | some part => id.fileName ++ "@" ++ part
  | none => id.fileName

/-- Whether the buffer is a region. -/
def hasRegion (id : BufferId) : Bool :=
  id.regionName.isSome

/-- Whether no buffer is named. -/
def isEmpty (id : BufferId) : Bool :=
  id.fileName == "" && id.regionName.isNone

/-- The file that holds the buffer, as a buffer of its own. -/
def withoutRegion (id : BufferId) : BufferId :=
  { id with regionName := none }

/-- Order of ids: by file name, then whole files before regions, then by region name. Names compare
by code points, which is the order of their UTF-8 bytes. -/
def le (a b : BufferId) : Bool :=
  if a.fileName = b.fileName then
    match a.regionName, b.regionName with
    | none, _ => true
    | some _, none => false
    | some r, some s => decide (r ≤ s)
  else decide (a.fileName < b.fileName)

/-- Keeps one of every run of equal neighbours. -/
def dedup : List BufferId → List BufferId
  | a :: b :: rest => if a = b then dedup (b :: rest) else a :: dedup (b :: rest)
  | ids => ids

/-- The ids in order, each once. -/
def sorted (ids : List BufferId) : List BufferId :=
  dedup (ids.mergeSort le)

end BufferId

end Playground
