import Playground.Files.Error
import Playground.Files.Path
import Playground.Slots.Error
/-!
Failures of packages.
-/

namespace Playground

/-- Why a package cannot be had. -/
inductive PackageError where
  | notFound (name : String)
  | buildFailed (name reason : String)
  | aborted (name : String)
  | invalidConfig (name reason : String)
  | budget (e : Budget.Exceeded)
  | lock (path : Path) (message : String)
  | io (path : Path) (message : String)
deriving DecidableEq, Repr

namespace PackageError

/-- The wording of a failure. -/
def message : PackageError → String
  | notFound name => "package " ++ name ++ " not found"
  | buildFailed name reason => "package " ++ name ++ " failed to build: " ++ reason
  | aborted name => "build of package " ++ name ++ " was aborted"
  | invalidConfig name reason => "invalid configuration for package " ++ name ++ ": " ++ reason
  | budget e => e.message
  | lock path message => "failed to lock " ++ path ++ ": " ++ message
  | io path message => "I/O error at " ++ path ++ ": " ++ message

/-- A failed file operation. -/
def ofFile (path : Path) (e : FileError) : PackageError :=
  .io path e.message

/-- A slot that was not given. -/
def ofSlot : SlotError → PackageError
  | .budget e => .budget e
  | .closed name => .lock name ("lock " ++ name ++ " is closed")

/-- A build counts every overrun against itself: its own budget is not its callers'. -/
def ofBuild (name : String) : PackageError → PackageError
  | .budget e =>
      .buildFailed name
        ("timed out at " ++ e.checkpoint ++ " after " ++ Clock.durationText e.elapsed)
  | e => e

end PackageError

end Playground
