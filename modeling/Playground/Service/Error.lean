import Playground.Diagnostic
import Playground.Package.Error
import Playground.WorkspaceError
/-!
Failures of requests. Every failure has an id that clients rely on, and can be shown as a
diagnostic.
-/

namespace Playground

/-- Why a request failed. -/
inductive ServiceError where
  | unsupportedLanguage (language : Language)
  | workspace (e : WorkspaceError)
  | package (e : PackageError)
  | budget (e : Budget.Exceeded)
  /-- The compiler itself failed. -/
  | compiler (reason : String)
  /-- No slot for running a program can be had. -/
  | noSlots (reason : String)
deriving DecidableEq, Repr

namespace ServiceError

/-- The wording of a failure. -/
def message : ServiceError → String
  | unsupportedLanguage language => "unsupported workspace language " ++ language.tag
  | workspace e => e.message
  | package e => e.message
  | budget e => e.message
  | compiler reason => "compiler backend failed: " ++ reason
  | noSlots reason => "run slots unavailable: " ++ reason

/-- The id of a failure. All failures of a build share one, apart from overruns of the request's own
budget. -/
def id : ServiceError → String
  | unsupportedLanguage _ => "UnsupportedLanguage"
  | workspace (.duplicateRegion ..) => "DuplicateRegion"
  | workspace (.unknownBuffer _) => "UnknownBuffer"
  | workspace (.budget _) => "BudgetExceeded"
  | workspace (.misfit _) => "Misfit"
  | package (.notFound _) => "PackageNotFound"
  | package (.budget _) => "BudgetExceeded"
  | package _ => "PackageBuildFailed"
  | budget _ => "BudgetExceeded"
  | compiler _ => "BackendError"
  | noSlots _ => "RunUnavailable"

/-- Whether the request's budget ran out. -/
def isOverrun : ServiceError → Bool
  | workspace (.budget _) => true
  | package (.budget _) => true
  | budget _ => true
  | _ => false

/-- The failure as a diagnostic without a place. -/
def toDiagnostic (e : ServiceError) : Diagnostic :=
  .failure e.id e.message

/-- A slot that was not given. -/
def ofSlot : SlotError → ServiceError
  | .budget e => .budget e
  | .closed name => .noSlots (SlotError.closed name).message

end ServiceError

end Playground
