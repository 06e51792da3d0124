import Playground.Budget
/-!
Races between a piece of work and the budget it runs under. A race is looked at again and again as
time passes; each look settles it or leaves it open. Cancellation beats finished work, which beats
the deadline, and a budget that is already exceeded loses without looking at the work.
-/

namespace Playground.Budget

/-- State of a race. -/
inductive Race (α : Type) where
  | pending
  | won (a : α)
  | lost (e : Exceeded)
deriving DecidableEq, Repr

/-- Looks at an open race, given the outcome of the work if there is one yet. -/
def poll {α : Type} (b : Budget) (now : Instant) (checkpoint : String) (work : Option α) :
    Race α :=
  if b.cancelled then .lost (b.exceeded now checkpoint)
  else match work with
    | some a => .won a
    | none =>
        if b.deadline.any (Clock.hasFired now) then .lost (b.exceeded now checkpoint)
        else .pending

/-- Opens a race. -/
def open? {α : Type} (b : Budget) (now : Instant) (checkpoint : String) (work : Option α) :
    Race α :=
  match b.ensureWithin now checkpoint with
  | .error e => .lost e
  | .ok () => b.poll now checkpoint work

/-- Notes in the log how a race over `checkpoint` was settled. -/
def logRace (b : Budget) (now : Instant) (checkpoint : String) (succeeded : Bool) : Budget :=
  b.record now (if succeeded then checkpoint else checkpoint ++ ":exceeded")

/-- Looks at an open race that is logged once it is settled. -/
def settle? {α : Type} (b : Budget) (now : Instant) (checkpoint : String) (work : Option α) :
    Option (Budget × Except Exceeded α) :=
  match b.poll now checkpoint work with
  | .pending => none
  | .won a => some (b.logRace now checkpoint true, .ok a)
  | .lost e => some (b.logRace now checkpoint false, .error e)

/-- When an open race may have to be looked at again because of the deadline. -/
def timer (b : Budget) (now : Instant) : Option Instant :=
  b.deadline.map (Clock.wakeTime now)

end Playground.Budget
