import Playground.Budget.Allowance
import Playground.Package
import Playground.Package.Builder
/-!
A site: a file tree, the packages that live on it, their builders, and the parties at work there.
Builds, callers and copies each go through stages; the lock file of a directory is held by at most
one party, and nobody is told when it gets free.
-/

namespace Playground

/-- A builder with the times of its calls so far. Copies of a package share it. -/
structure BuilderLog where
  builder : Builder
  starts : List Instant

/-- How far a party has come on its way to the locks of a package. The package's own lock comes
first, then the lock file of its directory, which is tried again and again. -/
inductive Grip where
  | wanted
  | queued
  | opening
  | trying (file : Nat)
  | pausing (file : Nat) (until_ : Instant)
deriving DecidableEq, Repr

/-- Stages of a build. From `restoring` to `marking` the build holds both locks. While `telling`, it
has settled its package but not yet told those who wait for it. -/
inductive BuildStage where
  | delayed
  | gripping (budget : Budget) (grip : Grip)
  | restoring (budget : Budget)
  | clearing (budget : Budget)
  | invoking (budget : Budget)
  | working (budget : Budget) (invocation : Invocation) (since : Instant)
  | marking (artifact : Artifact)
  | telling (outcome : Outcome)
  | ended (outcome : Outcome)

/-- A build of a package. -/
structure Build where
  package : PackageId
  start : Instant
  /-- Whether the build may take over what is there already. -/
  restore : Bool
  stage : BuildStage

/-- A copy that is wanted of a package. -/
structure CopyOrder where
  name : String
  destination : Path
deriving DecidableEq, Repr

/-- What a caller wants of a package: that it is ready, or a copy of it. -/
inductive Wish where
  | ready
  | copy (order : CopyOrder)
deriving DecidableEq, Repr

/-- What a caller gets. -/
inductive Gain where
  | artifact (a : Artifact)
  | copied (package : PackageId)
deriving DecidableEq, Repr

/-- Stages of a call. The caller asks for the package, joins the race of its build against the budget,
and waits. While `copying`, it holds both locks of the package. -/
inductive CallStage where
  | coming
  | asking (allowance : Budget.Allowance)
  | joining (allowance : Budget.Allowance) (build : BuildId)
  | waiting (allowance : Budget.Allowance) (build : BuildId)
  | gripping (allowance : Budget.Allowance) (order : CopyOrder) (grip : Grip)
  | copying (allowance : Budget.Allowance) (order : CopyOrder) (worker : PartyId)
  | answered (time : Instant) (answer : Except PackageError Gain)
  /-- The clock does not reach far enough for the build that was asked for. -/
  | offTheClock

namespace CallStage

/-- The budget of a caller who has come and has no answer yet. -/
def allowance? : CallStage → Option Budget.Allowance
  | asking a => some a
  | joining a _ => some a
  | waiting a _ => some a
  | gripping a .. => some a
  | copying a .. => some a
  | _ => none

/-- The same stage with another budget. -/
def withAllowance (a : Budget.Allowance) : CallStage → CallStage
  | asking _ => .asking a
  | joining _ build => .joining a build
  | waiting _ build => .waiting a build
  | gripping _ order grip => .gripping a order grip
  | copying _ order worker => .copying a order worker
  | stage => stage

end CallStage

/-- A call for a package. -/
structure Call where
  package : PackageId
  start : Instant
  terms : Budget.Terms
  wish : Wish
  stage : CallStage

/-- A copy at work, on its own once it has begun. -/
structure CopyWork where
  source : Path
  target : Path
  result : Option (Except FileError Unit)

/-- Somebody else who holds the lock file of a directory. -/
structure Outsider where
  directory : Path
  release : Option Instant
  holds : Bool

/-- A party at work on a site. -/
inductive Party where
  | build (b : Build)
  | call (c : Call)
  | copyWork (w : CopyWork)
  | outsider (o : Outsider)

/-- Packages on a file tree, and the parties at work there. -/
structure Site where
  now : Instant
  /-- What the calendar shows when the clock stands at zero, in nanoseconds since its epoch. -/
  epoch : Nat
  tree : FileTree
  packages : List Package
  builders : List BuilderLog
  /-- Parties are numbered by their place in the list. -/
  parties : List Party
  /-- The lock files that are held, by number, each with its holder. -/
  held : List (Nat × PartyId)

namespace Site

/-- Name of the lock file of a package directory. -/
def lockName : String := ".runpad.lock"

/-- How long a party waits before it tries a held lock file again. -/
def pollInterval : Duration := Clock.millis 20

/-- A site at time zero on which nobody has done anything. -/
def empty (epoch : Nat) (tree : FileTree) : Site :=
  ⟨0, epoch, tree, [], [], [], []⟩

/-- The package with a number. -/
def package? (s : Site) (p : PackageId) : Option Package :=
  s.packages[p]?

/-- Adds a builder and gives its number. -/
def addBuilder (s : Site) (b : Builder) : Site × BuilderId :=
  ({ s with builders := s.builders ++ [⟨b, []⟩] }, s.builders.length)

/-- Adds a package and gives its number. -/
def addPackage (s : Site) (p : Package) : Site × PackageId :=
  ({ s with packages := s.packages ++ [p] }, s.packages.length)

/-- Changes a package. -/
def updatePackage (s : Site) (p : PackageId) (change : Package → Package) : Site :=
  { s with packages := s.packages.modify p change }

/-- Adds a party and gives its number. -/
def addParty (s : Site) (party : Party) : Site × PartyId :=
  ({ s with parties := s.parties ++ [party] }, s.parties.length)

/-- Puts another party in the place of one. -/
def setParty (s : Site) (i : PartyId) (party : Party) : Site :=
  { s with parties := s.parties.set i party }

/-- Runs a change of the file tree. -/
def onTree {α : Type} (s : Site) (a : FileAction α) : Except FileError α × Site :=
  let (result, tree) := a.run s.tree
  (result, { s with tree })

/-- Asks for a package. A build that has to be scheduled becomes a party. -/
def demand (s : Site) (id : PackageId) (p : Package) : Site × Demand :=
  let (lifecycle, demand) := p.lifecycle.demand p.options.rebuild s.now s.parties.length
  let s := s.updatePackage id fun p => { p with lifecycle }
  match demand with
  | .scheduled _ start restore => ((s.addParty (.build ⟨id, start, restore, .delayed⟩)).1, demand)
  | _ => (s, demand)

/-- What a build came to, if it is over. -/
def outcome? (s : Site) (b : BuildId) : Option Outcome :=
  match s.parties[b]? with
  | some (.build ⟨_, _, _, .ended outcome⟩) => some outcome
  | _ => none

/-- Asks for a new build at the next demand. -/
def invalidate (s : Site) (id : PackageId) (p : Package) : Site × Bool :=
  let (lifecycle, accepted) := p.lifecycle.invalidate p.options.rebuild
  (s.updatePackage id fun p => { p with lifecycle }, accepted)

/-- Whether somebody holds the lock file. -/
def isHeld (s : Site) (file : Nat) : Bool :=
  s.held.any (·.1 == file)

/-- Gives up everything that a party holds or waits for. -/
def release (s : Site) (id : PackageId) (i : PartyId) : Site :=
  { s.updatePackage id fun p => { p with lock := p.lock.leave i } with
    held := s.held.filter (·.2 != i) }

end Site

end Playground
