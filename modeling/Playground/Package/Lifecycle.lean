import Playground.Package.Artifact
import Playground.Package.Error
/-!
The life of a package. It is built by the first demand; later demands join a build in progress or
get what the last one came to. An invalidation makes the next demand after that build again. Builds
of a throttled package start at least a window apart.
-/

namespace Playground

/-- How a package takes an invalidation. -/
inductive Rebuild where
  /-- Build again, but not within this time after the last build was due to start. -/
  | throttled (window : Duration)
  /-- Keep what was built. -/
  | never
deriving DecidableEq, Repr

/-- What a build comes to. -/
abbrev Outcome := Except PackageError Artifact

/-- Number of a build. -/
abbrev BuildId := Nat

/-- Where a package stands. -/
inductive Phase where
  | notReady
  | building (build : BuildId)
  | ready (artifact : Artifact)
  | faulted (e : PackageError)
deriving DecidableEq, Repr

/-- Where a package stands, without the details. -/
inductive PackageState where
  | notReady
  | building
  | ready
  | faulted
deriving DecidableEq, Repr

/-- The life of a package so far. -/
structure Lifecycle where
  phase : Phase
  /-- Whether an invalidation waits for the next build. -/
  dirty : Bool
  /-- When the latest build was due to start. -/
  lastStart : Option Instant
  /-- Whether the next build may take over what an earlier package built. -/
  mayRestore : Bool
deriving DecidableEq, Repr

/-- What a demand for the package leads to. -/
inductive Demand where
  | settled (outcome : Outcome)
  | joined (build : BuildId)
  | scheduled (build : BuildId) (start : Instant) (restore : Bool)
  /-- The start of the build is beyond the end of the clock. -/
  | offTheClock
deriving Repr

/-- The state of a phase. -/
def Phase.state : Phase → PackageState
  | notReady => .notReady
  | building _ => .building
  | ready _ => .ready
  | faulted _ => .faulted

namespace Lifecycle

/-- A package that nobody has asked for yet. -/
def fresh : Lifecycle :=
  ⟨.notReady, false, none, true⟩

/-- The earliest start of a build demanded now. -/
def startTime? (l : Lifecycle) (rebuild : Rebuild) (now : Instant) : Option Instant :=
  match rebuild, l.lastStart with
  | .throttled window, some last => (Clock.after? last window).map (max now ·)
  | _, _ => some now

/-- Schedules build number `new`. -/
def schedule (l : Lifecycle) (rebuild : Rebuild) (now : Instant) (new : BuildId) :
    Lifecycle × Demand :=
  match l.startTime? rebuild now with
  | none => (l, .offTheClock)
  | some start => (⟨.building new, false, some start, false⟩, .scheduled new start l.mayRestore)

/-- Asks for the package. A build that has to be scheduled gets number `new`. -/
def demand (l : Lifecycle) (rebuild : Rebuild) (now : Instant) (new : BuildId) :
    Lifecycle × Demand :=
  match l.phase with
  | .building b => (l, .joined b)
  | .notReady => l.schedule rebuild now new
  | .ready a =>
      if l.dirty then { l with phase := .notReady }.schedule rebuild now new
      else (l, .settled (.ok a))
  | .faulted e =>
      if l.dirty then { l with phase := .notReady }.schedule rebuild now new
      else (l, .settled (.error e))

/-- Asks for a new build at the next demand. Gives whether that is accepted: a package that is never
rebuilt accepts it only after a failure. -/
def invalidate (l : Lifecycle) (rebuild : Rebuild) : Lifecycle × Bool :=
  if rebuild = .never ∧ l.phase.state ≠ .faulted then (l, false)
  else ({ l with dirty := true, mayRestore := false }, true)

/-- Settles the package with the outcome of a build. -/
def publish (l : Lifecycle) : Outcome → Lifecycle
  | .ok a => { l with phase := .ready a }
  | .error e => { l with phase := .faulted e }

end Lifecycle

end Playground
