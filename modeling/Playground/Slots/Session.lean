import Playground.Budget.Allowance
import Playground.Clock.Machine
import Playground.Slots
/-!
A session at a lock and a set of permits: visitors come at their times, wait within their budgets,
hold what they got for a while and leave. The session keeps a log of what happened.
-/

namespace Playground.Slots

/-- What a visitor comes for. -/
inductive Purpose where
  /-- To hold the lock. -/
  | lock
  /-- To hold a permit. -/
  | permit
  /-- To hold the lock if it is free. -/
  | tryLock
  /-- To look. -/
  | probe
deriving DecidableEq, Repr

/-- Where a visitor stands. -/
inductive Visit where
  | coming
  | waiting (allowance : Budget.Allowance)
  | holding (until_ : Instant)
  | gone
deriving DecidableEq, Repr

/-- Somebody who comes to the session. -/
structure Visitor where
  name : String
  purpose : Purpose
  start : Instant
  hold : Duration
  terms : Budget.Terms
  visit : Visit
deriving DecidableEq, Repr

/-- What the log says of a visitor. -/
inductive Happening where
  | acquired
  | released
  | busy
  | failed (e : Budget.Exceeded)
  | seen (locked : Bool) (permits available : Nat)
deriving DecidableEq, Repr

/-- An entry of the log. -/
structure Event where
  time : Instant
  name : String
  happening : Happening
deriving DecidableEq, Repr

/-- A session in progress. Visitors are numbered by their place in the list. -/
structure Session where
  now : Instant
  lock : Slots
  permits : Slots
  visitors : List Visitor
  /-- Latest first. -/
  log : List Event
deriving Repr

namespace Session

/-- The session before anybody came. -/
def start (permits : Nat) (visitors : List Visitor) : Session :=
  ⟨0, .lock, .ofPermits permits, visitors, []⟩

/-- Checkpoint at which a wait for a slot fails. -/
def checkpoint : Purpose → String
  | .permit => "semaphore.acquire"
  | _ => "lock.acquire"

/-- Notes something in the log. -/
def note (s : Session) (v : Visitor) (h : Happening) : Session :=
  { s with log := ⟨s.now, v.name, h⟩ :: s.log }

/-- Changes where a visitor stands. -/
def place (s : Session) (i : PartyId) (visit : Visit) : Session :=
  { s with visitors := s.visitors.modify i fun v => { v with visit } }

/-- The slots that a visitor comes for. -/
def slots (s : Session) (v : Visitor) : Slots :=
  match v.purpose with
  | .permit => s.permits
  | _ => s.lock

/-- Changes the slots that a visitor comes for. -/
def withSlots (s : Session) (v : Visitor) (change : Slots → Slots) : Session :=
  match v.purpose with
  | .permit => { s with permits := change s.permits }
  | _ => { s with lock := change s.lock }

/-- Goes on after a race for a slot, if it is settled. -/
def afterRace (s : Session) (i : PartyId) (v : Visitor) : Budget.Race Unit → Option Session
  | .pending => none
  | .won () => some ((s.note v .acquired).place i (.holding (s.now + v.hold)))
  | .lost e => some (((s.withSlots v (·.leave i)).note v (.failed e)).place i .gone)

/-- Lets a visitor do what it can do now. -/
def move? (s : Session) (i : PartyId) (v : Visitor) : Option Session :=
  match v.visit with
  | .coming =>
      if !Clock.hasFired s.now v.start then none
      else match v.purpose with
        | .probe =>
            some ((s.note v
              (.seen s.lock.isFull s.permits.capacity s.permits.available)).place i .gone)
        | .tryLock =>
            if s.lock.isFull then some ((s.note v .busy).place i .gone)
            else some (({ s with lock := s.lock.enter i }.note v .acquired).place i
              (.holding (s.now + v.hold)))
        | purpose =>
            let allowance := v.terms.grant s.now
            match allowance.budget.ensureWithin s.now (checkpoint purpose) with
            | .error e => some ((s.note v (.failed e)).place i .gone)
            | .ok () => some ((s.withSlots v (·.enter i)).place i (.waiting allowance))
  | .waiting allowance =>
      let got := if (s.slots v).isHeldBy i then some () else none
      s.afterRace i v (allowance.budget.poll s.now (checkpoint v.purpose) got)
  | .holding until_ =>
      if Clock.hasFired s.now until_ then
        some (((s.withSlots v (·.leave i)).note v .released).place i .gone)
      else none
  | .gone => none

/-- Lets a budget be cancelled under which a visitor waits, if it is time. -/
def revoke? (s : Session) (i : PartyId) (v : Visitor) : Option Session :=
  match v.visit with
  | .waiting allowance => (allowance.revoke? s.now).map fun a => s.place i (.waiting a)
  | _ => none

/-- Lets the first visitor that can move do so, or else the first cancellation that is due happen.
-/
def step? (s : Session) : Option Session :=
  (s.visitors.zipIdx.findSome? fun (v, i) => s.move? i v) <|>
    s.visitors.zipIdx.findSome? fun (v, i) => s.revoke? i v

/-- The session at a later time. -/
def moveTo (s : Session) (now : Instant) : Session :=
  { s with now }

/-- The instants at which a visitor may go on. -/
def wakes (s : Session) : List Instant :=
  s.visitors.flatMap fun v =>
    match v.visit with
    | .coming => [Clock.wakeTime s.now v.start]
    | .waiting a => a.wakes s.now
    | .holding until_ => [Clock.wakeTime s.now until_]
    | .gone => []

/-- Sessions as machines. -/
def machine : Clock.Machine Session :=
  ⟨step?, wakes, now, moveTo⟩

/-- The session when all visits are over. -/
def run (s : Session) : Session :=
  machine.run (fun s => s.visitors.all (·.visit == .gone)) s

/-- The log by time, then by name, then by order. -/
def events (s : Session) : List Event :=
  s.log.reverse.mergeSort fun a b =>
    decide (a.time < b.time) || (a.time == b.time && decide (a.name ≤ b.name))

end Session

end Playground.Slots
