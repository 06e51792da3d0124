import Playground.Span
import Playground.Workspace
import Playground.Text.Bytes
/-!
Regions of files: a buffer id, the stretch of text between the two marker lines, and the name of the
file that holds it.
-/

namespace Playground

/-- A region found in a file. -/
structure Region where
  bufferId : BufferId
  span : Span
  destination : String
deriving DecidableEq, Repr, Inhabited

/-- The text of the region inside `text`, when the span fits it. -/
def Region.content? (r : Region) (text : List Char) : Option (List Char) :=
  Text.slice text r.span.start r.span.stop

end Playground
