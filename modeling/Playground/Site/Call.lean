import Playground.Files.Copy
import Playground.Site.Grip
/-!
The course of a call. A caller waits for the package to be ready; a caller that wants a copy then
takes both locks and has the directory copied. A caller whose budget runs out leaves at once, but a
copy that has begun goes on by itself.
-/

namespace Playground

namespace Site

/-- Ends a call. -/
def reply (s : Site) (i : PartyId) (c : Call) (answer : Except PackageError Gain) : Site :=
  s.setParty i (.call { c with stage := .answered s.now answer })

/-- What a caller does once it has the outcome of a build. -/
def afterOutcome (s : Site) (i : PartyId) (c : Call) (a : Budget.Allowance) (outcome : Outcome) :
    Site :=
  match outcome, c.wish with
  | .error e, _ => s.reply i c (.error e)
  | .ok artifact, .ready => s.reply i c (.ok (.artifact artifact))
  | .ok _, .copy order => s.setParty i (.call { c with stage := .gripping a order .wanted })

/-- Starts a copy and waits for it. -/
def startCopy (s : Site) (i : PartyId) (c : Call) (p : Package) (a : Budget.Allowance)
    (order : CopyOrder) : Site :=
  match a.budget.ensureWithin s.now "package.copy" with
  | .error e => (s.release c.package i).reply i c (.error (.budget e))
  | .ok () =>
      let (s, worker) := s.addParty (.copyWork ⟨p.directory, order.destination, none⟩)
      s.setParty i (.call { c with stage := .copying a order worker })

/-- Ends a call for a copy when the copy is there, or has failed. -/
def afterCopy (s : Site) (i : PartyId) (c : Call) (p : Package) (order : CopyOrder)
    (result : Except FileError Unit) : Site :=
  let s := s.release c.package i
  match result with
  | .error e => s.reply i c (.error (.ofFile order.destination e))
  | .ok () =>
      let (s, copy) := s.addPackage (p.copyTo order.name order.destination)
      s.reply i c (.ok (.copied copy))

/-- What a copy at work has come to. -/
def copyResult? (s : Site) (worker : PartyId) : Option (Except FileError Unit) :=
  match s.parties[worker]? with
  | some (.copyWork w) => w.result
  | _ => none

/-- Lets a caller do what it can do now. -/
def moveCall? (s : Site) (i : PartyId) (c : Call) : Option Site := do
  let p ← s.package? c.package
  let stage (s : Site) (stage : CallStage) : Option Site :=
    some (s.setParty i (.call { c with stage }))
  match c.stage with
  | .coming =>
      if !Clock.hasFired s.now c.start then none
      else
        let a := c.terms.grant s.now
        match a.budget.ensureWithin s.now "package.ensure_ready" with
        | .error e => some (s.reply i c (.error (.budget e)))
        | .ok () => stage s (.asking a)
  | .asking a =>
      match s.demand c.package p with
      | (s, .settled outcome) => some (s.afterOutcome i c a outcome)
      | (s, .joined b) => stage s (.joining a b)
      | (s, .scheduled b _ _) => stage s (.joining a b)
      | (s, .offTheClock) => stage s .offTheClock
  | .joining a b =>
      match a.budget.open? s.now "package.ensure_ready" (s.outcome? b) with
      | .pending => stage s (.waiting a b)
      | .won outcome => some (s.afterOutcome i c a outcome)
      | .lost e => some (s.reply i c (.error (.budget e)))
  | .waiting a b =>
      match a.budget.poll s.now "package.ensure_ready" (s.outcome? b) with
      | .pending => none
      | .won outcome => some (s.afterOutcome i c a outcome)
      | .lost e => some (s.reply i c (.error (.budget e)))
  | .gripping a order grip =>
      match s.gripStep c.package p i a.budget grip with
      | .stay => none
      | .next s grip => stage s (.gripping a order grip)
      | .held s => some (s.startCopy i c p a order)
      | .failed s e => some (s.reply i c (.error e))
  | .copying a order worker =>
      match a.budget.poll s.now "package.copy" (s.copyResult? worker) with
      | .pending => none
      | .won result => some (s.afterCopy i c p order result)
      | .lost e => some ((s.release c.package i).reply i c (.error (.budget e)))
  | .answered .. => none
  | .offTheClock => none

/-- Lets a copy at work do its work. -/
def moveCopy? (s : Site) (i : PartyId) (w : CopyWork) : Option Site :=
  match w.result with
  | some _ => none
  | none =>
      let (result, s) := s.onTree (.copyOutside lockName w.source w.target)
      some (s.setParty i (.copyWork { w with result := some result }))

/-- When a caller may go on. -/
def callWakes (s : Site) (c : Call) : List Instant :=
  match c.stage with
  | .coming => [Clock.wakeTime s.now c.start]
  | .waiting a _ => a.wakes s.now
  | .gripping a _ grip => a.wakes s.now ++ grip.wakes s.now
  | .copying a .. => a.wakes s.now
  | _ => []

/-- Lets the budget of a caller be cancelled who has no answer yet, if it is time. -/
def revokeCall? (s : Site) (i : PartyId) (c : Call) : Option Site :=
  (c.stage.allowance?.bind (·.revoke? s.now)).map fun a =>
    s.setParty i (.call { c with stage := c.stage.withAllowance a })

end Site

end Playground
