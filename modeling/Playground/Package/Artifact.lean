import Playground.Clock
import Playground.Files.Action
import Playground.Json.Reader
import Playground.Json.Writer
import Playground.Text.Utf8
import Playground.Wire.Record
/-!
What a build leaves: the artifact, and the marker file that lets a later package take the artifact
over without building again.
-/

namespace Playground

/-- The product of a build: the path of its entry point, when it was built, in nanoseconds since the
epoch of the calendar, and whether it was taken over from an earlier build. -/
structure Artifact where
  entryPoint : Path
  builtAt : Nat
  restored : Bool
deriving DecidableEq, Repr

/-- What the marker file says: the entry point relative to the package directory, and the time of
the build in milliseconds. -/
structure Marker where
  entryPoint : Path
  builtAtMs : Nat
deriving DecidableEq, Repr

namespace Marker

/-- Name of the marker file. -/
def fileName : String := ".runpad-build.json"

/-- The marker for an artifact, if its entry point lies below the directory. -/
def ofArtifact? (directory : Path) (a : Artifact) : Option Marker :=
  (Path.below? a.entryPoint directory).map fun entry =>
    ⟨entry, min (a.builtAt / Clock.milli) Json.maxUInt⟩

/-- The text of a marker file. -/
def render (m : Marker) : String :=
  Json.renderIndented [("entry_point", .str m.entryPoint), ("built_at_ms", .ofNat m.builtAtMs)]

/-- Reads bytes as JSON text. A byte that is no part of a character is read as an escape that stands
for no text, which is a fault everywhere except in a string that nobody reads. The marks around it
keep it from joining what it stands between. -/
def jsonChars (bytes : List UInt8) : List Char :=
  (Text.Utf8.read bytes).flatMap fun c =>
    match c with
    | some c => [c]
    | none => "?\\ud800?".toList

/-- The marker that a JSON value holds. -/
def ofJson? (j : Json) : Option Marker := do
  let [entryPoint, builtAtMs] ← Wire.slots? [["entry_point"], ["built_at_ms"]] j | none
  return ⟨← Wire.required Json.str? entryPoint, ← Wire.required Json.uint? builtAtMs⟩

/-- Reads the content of a marker file. -/
def parse? (bytes : List UInt8) : Option Marker :=
  (Json.parse? (jsonChars bytes)).bind ofJson?

/-- The readable marker in a directory. -/
def read? (t : FileTree) (directory : Path) : Option Marker :=
  match t.read (directory.join fileName) with
  | .ok bytes => parse? bytes
  | .error _ => none

/-- Writes the marker into a directory. -/
def write (m : Marker) (directory : Path) : FileAction Unit :=
  .write (directory.join fileName) (Text.Utf8.encode m.render)

/-- Removes the marker from a directory. -/
def clear (directory : Path) : FileAction Unit :=
  .removeFile (directory.join fileName)

/-- The artifact that a marker stands for, if its entry point is still a file. -/
def restore? (m : Marker) (t : FileTree) (directory : Path) : Option Artifact :=
  let entry := directory.join m.entryPoint
  if t.isFile entry then some ⟨entry, m.builtAtMs * Clock.milli, true⟩ else none

end Marker

end Playground
