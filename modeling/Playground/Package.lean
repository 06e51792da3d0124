import Playground.Package.Lifecycle
import Playground.Slots
/-!
Packages: directories that are built once and then used by many requests.
-/

namespace Playground

/-- Number of a package. -/
abbrev PackageId := Nat

/-- Number of a builder. -/
abbrev BuilderId := Nat

/-- How a package is to be built. -/
structure PackageOptions where
  rebuild : Rebuild
  /-- The most that one build may take, waiting for locks included. -/
  buildTimeout : Duration
deriving DecidableEq, Repr

/-- A package. The lock is held by whoever works on the directory on behalf of this package. -/
structure Package where
  name : String
  directory : Path
  builder : BuilderId
  options : PackageOptions
  lifecycle : Lifecycle
  lock : Slots
  /-- How often the builder was called. -/
  builds : Nat
deriving DecidableEq, Repr

namespace Rebuild

/-- Builds start at least a second apart unless something else is asked for. -/
def standard : Rebuild :=
  .throttled Clock.second

end Rebuild

namespace PackageOptions

/-- Two minutes for a build. -/
def standardTimeout : Duration :=
  Clock.seconds 120

/-- The options of a package that asks for none. -/
def standard : PackageOptions :=
  ⟨.standard, standardTimeout⟩

end PackageOptions

namespace Package

/-- A package that nobody has asked for yet. -/
def fresh (name : String) (directory : Path) (builder : BuilderId) (options : PackageOptions) :
    Package :=
  ⟨name, directory, builder, options, .fresh, .lock, 0⟩

/-- A package in another directory with the same builder and options. -/
def copyTo (p : Package) (name : String) (directory : Path) : Package :=
  .fresh name directory p.builder p.options

/-- Where the package stands. -/
def state (p : Package) : PackageState :=
  p.lifecycle.phase.state

end Package

end Playground
