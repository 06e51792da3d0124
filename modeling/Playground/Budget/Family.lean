import Playground.Budget.Race
/-!
Families of budgets. Every member knows the members it descends from, so that cancelling one cancels
all its descendants and nobody else.
-/

namespace Playground.Budget

/-- A budget of a family, with its own number and those of all its ancestors. -/
structure Member where
  lineage : List Nat
  budget : Budget
deriving Repr

/-- Budgets numbered from zero in the order of their creation. -/
structure Family where
  members : List Member
deriving Repr

namespace Family

/-- The family without members. -/
def empty : Family := ⟨[]⟩

/-- The budget with a number. -/
def budget? (f : Family) (i : Nat) : Option Budget :=
  f.members[i]?.map (·.budget)

/-- Number of the next member. -/
def next (f : Family) : Nat :=
  f.members.length

/-- Adds a budget without ancestors. -/
def add (f : Family) (b : Budget) : Family :=
  ⟨f.members ++ [⟨[f.next], b⟩]⟩

/-- Adds a budget derived from member `parent`. -/
def addChild (f : Family) (now : Instant) (parent : Nat) (timeout : Option Duration) : Family :=
  match f.members[parent]? with
  | some m => ⟨f.members ++ [⟨f.next :: m.lineage, m.budget.child now timeout⟩]⟩
  | none => f

/-- Cancels a member and all members that descend from it. -/
def cancel (f : Family) (i : Nat) : Family :=
  ⟨f.members.map fun m => if i ∈ m.lineage then { m with budget := m.budget.cancel } else m⟩

/-- Changes the budget of a member. -/
def update (f : Family) (i : Nat) (change : Budget → Budget) : Family :=
  ⟨f.members.modify i fun m => { m with budget := change m.budget }⟩

end Family

/-- A piece of work that takes a fixed time, or for ever, with a cancellation planned meanwhile. -/
structure Trial where
  checkpoint : String
  /-- How long the work takes; absent when it never ends. -/
  work : Option Duration
  /-- A member to cancel, and how long after the start. -/
  cancels : Option (Duration × Nat)
deriving Repr

namespace Trial

/-- Whether work that is due at `finish` is done at `now`. Work that takes no time is done at once.
-/
def isDone (t : Trial) (start now : Instant) : Bool :=
  match t.work with
  | some d => d == 0 || Clock.hasFired now (start + d)
  | none => false

/-- The instants at which the race has to be looked at, in order. -/
def looks (t : Trial) (b : Budget) (start : Instant) : List Instant :=
  let wakes := [t.work.map fun d => Clock.wakeTime start (start + d),
    t.cancels.map fun c => Clock.wakeTime start (start + c.1), b.timer start]
  (wakes.filterMap id).mergeSort fun a b => decide (a ≤ b)

/-- Looks at the race of member `i` as it stands. -/
def look (t : Trial) (i : Nat) (start now : Instant) (f : Family) : Option (Race Unit) :=
  (f.budget? i).map (·.poll now t.checkpoint (if t.isDone start now then some () else none))

/-- Lets the planned cancellation happen, if it is time. -/
def revoke (t : Trial) (start now : Instant) (f : Family) : Family :=
  match t.cancels with
  | some (d, j) => if Clock.hasFired now (start + d) then f.cancel j else f
  | none => f

/-- Looks at the race at each of the given instants until it is settled. A cancellation comes only
when the race is still open at its instant, and is noticed at once. -/
def watch (t : Trial) (i : Nat) (start : Instant) : Family → List Instant →
    Option (Family × Instant × Except Exceeded Unit)
  | _, [] => none
  | f, now :: later =>
      let revoked := t.revoke start now f
      match t.look i start now f, t.look i start now revoked with
      | some (.won ()), _ => some (f, now, .ok ())
      | some (.lost e), _ => some (f, now, .error e)
      | some .pending, some (.lost e) => some (revoked, now, .error e)
      | some .pending, _ => t.watch i start revoked later
      | none, _ => none

/-- Races the work against member `i`, from `start` on. Gives the family and the time when the race
is settled; nothing when it never is. -/
def race (t : Trial) (i : Nat) (start : Instant) (f : Family) :
    Option (Family × Instant × Except Exceeded Unit) := do
  let b ← f.budget? i
  match b.open? start t.checkpoint (if t.isDone start start then some () else none) with
  | .won () => some (f, start, .ok ())
  | .lost e => some (f, start, .error e)
  | .pending => t.watch i start f (t.looks b start)

/-- Like `race`, and notes in the log of member `i` how it was settled. -/
def run (t : Trial) (i : Nat) (start : Instant) (f : Family) :
    Option (Family × Instant × Except Exceeded Unit) := do
  let (f, now, outcome) ← t.race i start f
  let succeeded := match outcome with
    | .ok () => true
    | .error _ => false
  return (f.update i (·.logRace now t.checkpoint succeeded), now, outcome)

end Trial

end Playground.Budget
