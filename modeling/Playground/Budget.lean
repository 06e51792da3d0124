import Playground.Clock.Duration
/-!
Budgets. A budget bounds one chain of work by a deadline and by cancellation, and keeps a log of the
checkpoints the work has passed. Work under a budget is a race: cancellation beats finished work,
and finished work beats the deadline.
-/

namespace Playground

/-- A checkpoint that was passed, and the time since the budget was made. -/
structure Checkpoint where
  name : String
  elapsed : Duration
deriving DecidableEq, Repr

/-- A bound on one chain of work. -/
structure Budget where
  started : Instant
  deadline : Option Instant
  cancelled : Bool
  entries : List Checkpoint
deriving DecidableEq, Repr

namespace Budget

/-- Where and when a budget ran out. -/
structure Exceeded where
  checkpoint : String
  elapsed : Duration
  cancelled : Bool
deriving DecidableEq, Repr

/-- The wording of an overrun. -/
def Exceeded.message (e : Exceeded) : String :=
  "budget exceeded at " ++ e.checkpoint ++ " after " ++ Clock.durationText e.elapsed

/-- A budget without a deadline. -/
def unbounded (now : Instant) : Budget :=
  ⟨now, none, false, []⟩

/-- A budget that ends `timeout` from now; it has no deadline when the clock cannot represent it. -/
def withTimeout (now : Instant) (timeout : Duration) : Budget :=
  ⟨now, Clock.after? now timeout, false, []⟩

/-- A budget that ends at `deadline`. -/
def withDeadline (now deadline : Instant) : Budget :=
  ⟨now, some deadline, false, []⟩

/-- A budget for a part of the work. It ends with its parent at the latest, is cancelled if its
parent is, and has a log of its own. -/
def child (parent : Budget) (now : Instant) (timeout : Option Duration) : Budget :=
  ⟨now, Clock.earlier parent.deadline (timeout.bind (Clock.after? now)), parent.cancelled, []⟩

/-- Time since the budget was made. -/
def elapsed (b : Budget) (now : Instant) : Duration :=
  now - b.started

/-- Time left, if there is a deadline. -/
def remaining (b : Budget) (now : Instant) : Option Duration :=
  b.deadline.map (· - now)

/-- Whether the deadline has come. -/
def isDue (b : Budget) (now : Instant) : Bool :=
  b.deadline.any (decide <| · ≤ now)

/-- Whether the budget has run out or was cancelled. -/
def isExceeded (b : Budget) (now : Instant) : Bool :=
  b.cancelled || b.isDue now

/-- The overrun to report at a checkpoint. -/
def exceeded (b : Budget) (now : Instant) (checkpoint : String) : Exceeded :=
  ⟨checkpoint, b.elapsed now, b.cancelled⟩

/-- Cancels the budget. -/
def cancel (b : Budget) : Budget :=
  { b with cancelled := true }

/-- Adds a checkpoint to the log. -/
def record (b : Budget) (now : Instant) (name : String) : Budget :=
  { b with entries := b.entries ++ [⟨name, b.elapsed now⟩] }

/-- Fails when the budget is exceeded. -/
def ensureWithin (b : Budget) (now : Instant) (checkpoint : String) : Except Exceeded Unit :=
  if b.isExceeded now then .error (b.exceeded now checkpoint) else .ok ()

/-- Adds a checkpoint to the log, then fails when the budget is exceeded. -/
def recordAndCheck (b : Budget) (now : Instant) (name : String) : Budget × Except Exceeded Unit :=
  let b := b.record now name
  (b, b.ensureWithin now name)

end Budget

end Playground
