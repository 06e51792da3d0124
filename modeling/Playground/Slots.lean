/-!
Slots: at most `capacity` parties hold one at a time, and parties that have to wait are served in
the order they came. A lock is a set of one slot.
-/

namespace Playground

/-- Number of a party that holds or wants a slot. -/
abbrev PartyId := Nat

/-- A set of slots, its holders, and those who wait for one. -/
structure Slots where
  capacity : Nat
  holders : List PartyId
  queue : List PartyId
deriving DecidableEq, Repr

namespace Slots

/-- The most permits that a set of slots can be made of. -/
def maxPermits : Nat := (UInt64.size - 1) / 8

/-- Free slots, at least one. -/
def ofPermits (permits : Nat) : Slots :=
  ⟨max 1 permits, [], []⟩

/-- Whether that many permits can be made. -/
def isFeasible (permits : Nat) : Bool :=
  decide (max 1 permits ≤ maxPermits)

/-- A free lock. -/
def lock : Slots := ofPermits 1

/-- How many slots are free. -/
def available (s : Slots) : Nat :=
  s.capacity - s.holders.length

/-- Whether no slot is free. -/
def isFull (s : Slots) : Bool :=
  decide (s.capacity ≤ s.holders.length)

/-- Whether the party holds a slot. -/
def isHeldBy (s : Slots) (p : PartyId) : Bool :=
  s.holders.contains p

/-- Takes a slot, or a place in the queue. -/
def enter (s : Slots) (p : PartyId) : Slots :=
  if s.isFull then { s with queue := s.queue ++ [p] } else { s with holders := s.holders ++ [p] }

/-- Gives free slots to those who wait longest. -/
def promote (s : Slots) : Slots :=
  let free := s.available
  { s with holders := s.holders ++ s.queue.take free, queue := s.queue.drop free }

/-- Gives up the slot, or the place in the queue. -/
def leave (s : Slots) (p : PartyId) : Slots :=
  promote { s with holders := s.holders.erase p, queue := s.queue.erase p }

end Slots

end Playground
