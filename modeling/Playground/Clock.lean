/-!
Time. Instants and durations count nanoseconds; the clock cannot represent instants from
`Clock.limit` on. Timers have a resolution of one millisecond: a timer fires at the first tick that
is not before its deadline.
-/

namespace Playground

/-- A point in time, in nanoseconds since the clock's origin. -/
abbrev Instant := Nat

/-- A length of time in nanoseconds. -/
abbrev Duration := Nat

namespace Clock

/-- Nanoseconds in a millisecond. -/
def milli : Duration := 1000000

/-- Nanoseconds in a second. -/
def second : Duration := 1000000000

/-- The first instant that the clock cannot represent: it counts seconds in 64 bits with sign. -/
def limit : Instant := 0x8000000000000000 * second

/-- A duration given in milliseconds. -/
def millis (n : Nat) : Duration := n * milli

/-- A duration given in seconds. -/
def seconds (n : Nat) : Duration := n * second

/-- The instant `d` after `t`, if the clock can represent it. -/
def after? (t : Instant) (d : Duration) : Option Instant :=
  if t + d < limit then some (t + d) else none

/-- Number of whole ticks before `t`. -/
def tickOf (t : Instant) : Nat := t / milli

/-- The first tick not before `t`. -/
def tickFrom (t : Instant) : Nat := (t + (milli - 1)) / milli

/-- Whether a timer set to `deadline` has fired by `now`. -/
def hasFired (now deadline : Instant) : Bool :=
  decide (tickFrom deadline ≤ tickOf now)

/-- When a clock that stands at `now` and jumps from tick to tick sees a timer set to `deadline`
fire. -/
def wakeTime (now deadline : Instant) : Instant :=
  now + (tickFrom deadline - tickOf now) * milli

/-- The earlier of two instants, where a missing one never comes. -/
def earlier : Option Instant → Option Instant → Option Instant
  | some a, some b => some (min a b)
  | some a, none => some a
  | none, b => b

end Clock

end Playground
