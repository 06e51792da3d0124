import Playground.Package.Command
import Playground.Registry
/-!
Configured packages: what a configuration says of a package, and how packages are made of it.
-/

namespace Playground

/-- What a configuration says about rebuilding. -/
inductive RebuildChoice where
  | throttled (milliseconds : Nat)
  | never
deriving DecidableEq, Repr

namespace RebuildChoice

/-- The policy that is chosen. -/
def rebuild : RebuildChoice → Rebuild
  | throttled n => .throttled (Clock.millis n)
  | never => .never

/-- The choice that leads to a policy; a window too long to be written is cut. -/
def ofRebuild : Rebuild → RebuildChoice
  | .throttled window => throttled (min (window / Clock.milli) Json.maxUInt)
  | .never => never

/-- The choice of a package that makes none. -/
def standard : RebuildChoice :=
  .ofRebuild .standard

end RebuildChoice

/-- What a configuration says of a package. -/
structure PackageConfig where
  name : String
  directory : Path
  buildCommand : List String
  entryPoint : Path
  buildTimeoutSecs : Nat
  rebuild : RebuildChoice
deriving DecidableEq, Repr

namespace PackageConfig

/-- The seconds that a build may take where nothing is said. -/
def standardTimeoutSecs : Nat :=
  PackageOptions.standardTimeout / Clock.second

/-- The options of the package. -/
def options (c : PackageConfig) : PackageOptions :=
  ⟨c.rebuild.rebuild, Clock.seconds c.buildTimeoutSecs⟩

/-- The command that builds the package, if name and command are not empty. -/
def command (c : PackageConfig) : Except PackageError BuildCommand :=
  if Text.trimmed c.name = "" then .error (.invalidConfig c.name "name is empty")
  else match BuildCommand.ofList c.buildCommand c.entryPoint with
    | .ok command => .ok command
    | .error reason => .error (.invalidConfig c.name reason)

end PackageConfig

namespace Depot

/-- Adds and registers the package that a configuration describes, with a builder of its own. Gives
the package that it replaces. -/
def configure (d : Depot) (c : PackageConfig) : Except PackageError (Depot × Option Package) := do
  let command ← c.command
  let (site, builder) := d.site.addBuilder command.builder
  return { d with site }.register (.fresh c.name c.directory builder c.options)

/-- Adds and registers packages in turn. -/
def configureAll (d : Depot) (configs : List PackageConfig) : Except PackageError Depot :=
  configs.foldlM (fun d c => (·.1) <$> d.configure c) d

end Depot

end Playground
