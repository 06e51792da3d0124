import Playground.Budget.Race
/-!
Budgets as callers grant them: with a timeout, cancelled from the start, or cancelled after a while.
-/

namespace Playground.Budget

/-- The terms on which a caller grants a budget. -/
structure Terms where
  timeout : Option Duration
  cancelled : Bool
  cancelAfter : Option Duration
deriving DecidableEq, Repr, Inhabited

/-- A budget, and when its caller is going to cancel it. -/
structure Allowance where
  budget : Budget
  cancelAt : Option Instant
deriving DecidableEq, Repr

/-- Grants a budget now. -/
def Terms.grant (t : Terms) (now : Instant) : Allowance :=
  let b := match t.timeout with
    | some d => withTimeout now d
    | none => unbounded now
  ⟨if t.cancelled then b.cancel else b, t.cancelAfter.map (now + ·)⟩

namespace Allowance

/-- The allowance once its caller has cancelled it, if the time for that has come. A caller lets the
work go as far as it can before it cancels. -/
def revoke? (a : Allowance) (now : Instant) : Option Allowance :=
  if !a.budget.cancelled && a.cancelAt.any (Clock.hasFired now) then
    some { a with budget := a.budget.cancel }
  else none

/-- The instants at which the budget may run out. -/
def wakes (a : Allowance) (now : Instant) : List Instant :=
  [a.budget.timer now, a.cancelAt.map (Clock.wakeTime now)].filterMap id

end Allowance

end Playground.Budget
