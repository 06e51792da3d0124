import Playground.Budget
import Playground.Region.Extract
/-!
What can be wrong with a workspace, or with the time it takes to work on it.
-/

namespace Playground

/-- A failure of inlining or of mapping diagnostics. A misfit is an edit that lies outside the text
of the file it was made for; it is a fault of the service and not an answer to a client. -/
inductive WorkspaceError where
  | duplicateRegion (file region : String)
  | unknownBuffer (id : BufferId)
  | budget (e : Budget.Exceeded)
  | misfit (file : String)
deriving DecidableEq, Repr

namespace WorkspaceError

/-- The wording of a failure. -/
def message : WorkspaceError → String
  | duplicateRegion file region => "duplicate region '" ++ region ++ "' in " ++ file
  | unknownBuffer id => "unknown buffer " ++ id.render
  | budget e => e.message
  | misfit file => "edit outside the text of " ++ file

end WorkspaceError

/-- The regions of the files of a workspace. -/
def regionsOf (files : List SourceFile) : Except WorkspaceError (List Region) :=
  match Region.ofFiles files with
  | .ok regions => .ok regions
  | .error d => .error (.duplicateRegion d.file d.region)

end Playground
