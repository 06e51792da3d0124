import Playground.Site
/-!
Getting hold of a package: first of its own lock, where parties queue, then of the lock file in its
directory. A party that fails on the way gives everything up.
-/

namespace Playground

/-- When a party on its way to the locks may go on, its budget apart. -/
def Grip.wakes (now : Instant) : Grip → List Instant
  | .pausing _ until_ => [Clock.wakeTime now until_]
  | _ => []

namespace Site

/-- What a step towards the locks leads to. -/
inductive GripStep where
  /-- Nothing can be done now. -/
  | stay
  | next (s : Site) (grip : Grip)
  | held (s : Site)
  | failed (s : Site) (e : PackageError)

/-- Path of the lock file of a directory. -/
def lockPath (directory : Path) : Path :=
  directory.join lockName

/-- Opens the lock file. -/
def openLock (s : Site) (id : PackageId) (i : PartyId) (directory : Path) : GripStep :=
  match s.onTree (.openFile (lockPath directory)) with
  | (.ok file, s) => .next s (.trying file)
  | (.error e, s) => .failed (s.release id i) (.ofFile (lockPath directory) e)

/-- Tries the lock file. -/
def tryLock (s : Site) (id : PackageId) (i : PartyId) (b : Budget) (file : Nat) : GripStep :=
  if s.isHeld file then
    match b.ensureWithin s.now "package.dir_lock" with
    | .error e => .failed (s.release id i) (.budget e)
    | .ok () => .next s (.pausing file (s.now + pollInterval))
  else .held { s with held := (file, i) :: s.held }

/-- Takes a step towards the locks of a package, under a budget. -/
def gripStep (s : Site) (id : PackageId) (p : Package) (i : PartyId) (b : Budget) :
    Grip → GripStep
  | .wanted =>
      match b.ensureWithin s.now "lock.acquire" with
      | .error e => .failed s (.budget e)
      | .ok () => .next (s.updatePackage id fun p => { p with lock := p.lock.enter i }) .queued
  | .queued =>
      match b.poll s.now "lock.acquire" (if p.lock.isHeldBy i then some () else none) with
      | .pending => .stay
      | .won () => .next s .opening
      | .lost e => .failed (s.release id i) (.budget e)
  | .opening => s.openLock id i p.directory
  | .trying file => s.tryLock id i b file
  | .pausing file until_ =>
      let due := if Clock.hasFired s.now until_ then some () else none
      match b.poll s.now "package.dir_lock" due with
      | .pending => .stay
      | .won () => .next s (.trying file)
      | .lost e => .failed (s.release id i) (.budget e)

end Site

end Playground
