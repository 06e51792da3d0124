import Playground.Clock
/-!
Running a machine on the clock. Time stands still as long as some party of the machine can move;
when all of them wait, the clock jumps to the next instant at which one of them may go on.
-/

namespace Playground.Clock

/-- A machine whose states carry their own time. -/
structure Machine (σ : Type) where
  /-- The state after the first party that can move has moved. -/
  step? : σ → Option σ
  /-- The instants at which waiting parties may go on. -/
  wakes : σ → List Instant
  /-- The time of a state. -/
  now : σ → Instant
  /-- The state at a later time. -/
  moveTo : σ → Instant → σ

namespace Machine

variable {σ : Type}

/-- The next instant at which a waiting party may go on. -/
def nextWake? (m : Machine σ) (s : σ) : Option Instant :=
  ((m.wakes s).filter (decide <| m.now s < ·)).min?

/-- Lets one party move, or the clock jump if all parties wait. -/
def advance? (m : Machine σ) (s : σ) : Option σ :=
  m.step? s <|> (m.nextWake? s).map (m.moveTo s)

/-- Advances until `done` holds, or until nobody will ever go on. -/
def runUntil (m : Machine σ) (done : σ → Bool) : Nat → σ → σ
  | 0, s => s
  | fuel + 1, s =>
      if done s then s
      else match m.advance? s with
        | some s => runUntil m done fuel s
        | none => s

/-- How many times a run may advance. -/
def patience : Nat := 1000000000000

/-- Runs until `done` holds. -/
def run (m : Machine σ) (done : σ → Bool) (s : σ) : σ :=
  m.runUntil done patience s

/-- Runs for a while. -/
def pass (m : Machine σ) (d : Duration) (s : σ) : σ :=
  let target := m.now s + d
  { m with wakes := fun s => target :: m.wakes s }.run (fun s => target ≤ m.now s) s

end Machine

end Playground.Clock
