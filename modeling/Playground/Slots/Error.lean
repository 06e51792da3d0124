import Playground.Budget
/-!
Failures to get a slot.
-/

namespace Playground

/-- Why a slot was not given: the budget ran out, or the slots were withdrawn. -/
inductive SlotError where
  | budget (e : Budget.Exceeded)
  | closed (name : String)
deriving DecidableEq, Repr

/-- The wording of a failure. -/
def SlotError.message : SlotError → String
  | budget e => e.message
  | closed name => "semaphore " ++ name ++ " is closed"

end Playground
