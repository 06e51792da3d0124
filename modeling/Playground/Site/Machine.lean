import Playground.Clock.Machine
import Playground.Site.Build
import Playground.Site.Call
/-!
Sites as machines, and what somebody outside may do to one.
-/

namespace Playground.Site

/-- Lets an outsider give up the lock file when its time has come. -/
def moveOutsider? (s : Site) (i : PartyId) (o : Outsider) : Option Site :=
  if o.holds && o.release.any (Clock.hasFired s.now) then
    some ({ s with held := s.held.filter (·.2 != i) }.setParty i
      (.outsider { o with holds := false }))
  else none

/-- Lets a party do what it can do now. -/
def move? (s : Site) (i : PartyId) : Party → Option Site
  | .build b => s.moveBuild? i b
  | .call c => s.moveCall? i c
  | .copyWork w => s.moveCopy? i w
  | .outsider o => s.moveOutsider? i o

/-- Lets the budget of a party be cancelled, if it is a caller and it is time. -/
def revoke? (s : Site) (i : PartyId) : Party → Option Site
  | .call c => s.revokeCall? i c
  | _ => none

/-- Whether a party is a build that has settled its package and has to tell so. -/
def isTelling : Party → Bool
  | .build ⟨_, _, _, .telling _⟩ => true
  | _ => false

/-- Whether a party is a call. -/
def isCall : Party → Bool
  | .call _ => true
  | _ => false

/-- Lets the first party that can move do so. A build that has settled its package tells so at once.
Callers come before those who work for them, and cancel what they have not got by then. -/
def step? (s : Site) : Option Site :=
  let (calls, others) := s.parties.zipIdx.partition fun (party, _) => isCall party
  (others.findSome? fun (party, i) => if isTelling party then s.move? i party else none) <|>
    (calls.findSome? fun (party, i) => s.move? i party) <|>
    (calls.findSome? fun (party, i) => s.revoke? i party) <|>
    others.findSome? fun (party, i) => s.move? i party

/-- When a party may go on. -/
def partyWakes (s : Site) : Party → List Instant
  | .build b => s.buildWakes b
  | .call c => s.callWakes c
  | .copyWork _ => []
  | .outsider o => if o.holds then (o.release.map (Clock.wakeTime s.now)).toList else []

/-- The instants at which a party may go on. -/
def wakes (s : Site) : List Instant :=
  s.parties.flatMap s.partyWakes

/-- The site at a later time. -/
def moveTo (s : Site) (now : Instant) : Site :=
  { s with now }

/-- Sites as machines. -/
def machine : Clock.Machine Site :=
  ⟨step?, wakes, now, moveTo⟩

/-- Adds callers, who come in the order of the list if they come at the same time. Gives the number
of the first. -/
def enroll (s : Site) (calls : List Call) : Site × PartyId :=
  ({ s with parties := s.parties ++ calls.map .call }, s.parties.length)

/-- The answer to a call, and when it was given. -/
def answer? (s : Site) (i : PartyId) : Option (Instant × Except PackageError Gain) :=
  match s.parties[i]? with
  | some (.call ⟨_, _, _, _, .answered time answer⟩) => some (time, answer)
  | _ => none

/-- Whether a party is a call that is still open. -/
def isOpen (s : Site) (i : PartyId) : Bool :=
  match s.parties[i]? with
  | some (.call c) =>
      match c.stage with
      | .answered .. => false
      | .offTheClock => false
      | _ => true
  | _ => false

/-- Lets callers come until all have their answers. Gives for each its answer and when it was given;
there is none where the clock ended. -/
def serve (s : Site) (calls : List Call) :
    Site × List (Option (Instant × Except PackageError Gain)) :=
  let (s, first) := s.enroll calls
  let numbers := List.range' first calls.length
  let s := machine.run (fun s => numbers.all fun i => !s.isOpen i) s
  (s, numbers.map s.answer?)

/-- Lets time pass. -/
def pass (s : Site) (d : Duration) : Site :=
  machine.pass d s

/-- Takes the lock file of a directory for an outsider. Gives whether it was free. -/
def hold (s : Site) (directory : Path) (releaseAfter : Option Duration) : Site × Bool :=
  match s.onTree (.openFile (lockPath directory)) with
  | (.error _, s) => (s, false)
  | (.ok file, s) =>
      if s.isHeld file then (s, false)
      else
        let (s, i) := s.addParty (.outsider ⟨directory, releaseAfter.map (s.now + ·), true⟩)
        ({ s with held := (file, i) :: s.held }, true)

/-- Takes the lock file of a directory away from the outsider who holds it. Gives whether there was
one. -/
def unhold (s : Site) (directory : Path) : Site × Bool :=
  let holder := s.parties.findIdx? fun party =>
    match party with
    | .outsider o => o.holds && o.directory == directory
    | _ => false
  match holder with
  | none => (s, false)
  | some i =>
      ({ s with held := s.held.filter (·.2 != i) }.setParty i (.outsider ⟨directory, none, false⟩),
        true)

end Playground.Site
