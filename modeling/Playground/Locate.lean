import Playground.Inline
/-!
Locating a cursor: from a position in the active buffer to a file of the inlined workspace and an
offset in its text.
-/

namespace Playground

/-- File name and offset of a position in the active buffer. Positions past the end of the buffer
count as its end. -/
def locatePosition? (inlined : Workspace) (active : BufferId) (position : Nat) :
    Option (String × Nat) :=
  if active.hasRegion then
    match Region.ofFiles inlined.files with
    | .error _ => none
    | .ok regions => do
        let r ← regions.find? (·.bufferId == active)
        if r.span.length < 2 * Inline.paddingSize then none
        else
          let length := r.span.length - 2 * Inline.paddingSize
          return (r.destination, r.span.start + Inline.paddingSize + min position length)
  else do
    let file ← inlined.file? active.fileName
    return (file.name, min position (Text.byteLength file.text.toList))

end Playground
