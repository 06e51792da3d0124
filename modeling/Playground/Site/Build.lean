import Playground.Site.Grip
/-!
The course of a build. It waits for its start, takes both locks, takes over what an earlier build
left if it may, or else clears the marker, calls the builder and writes a new marker. When the locks
are free again, it settles the package and then tells those who wait.
-/

namespace Playground.Site

/-- Settles the package with the outcome of a build that has given up its locks. -/
def publish (s : Site) (i : PartyId) (b : Build) (p : Package) (outcome : Outcome) : Site :=
  let outcome := outcome.mapError (.ofBuild p.name)
  let s := s.updatePackage b.package fun p => { p with lifecycle := p.lifecycle.publish outcome }
  s.setParty i (.build { b with stage := .telling outcome })

/-- Ends a build that holds its locks. -/
def conclude (s : Site) (i : PartyId) (b : Build) (p : Package) (outcome : Outcome) : Site :=
  (s.release b.package i).publish i b p outcome

/-- The artifact of a build that ends now. -/
def freshArtifact (s : Site) (entryPoint : Path) : Artifact :=
  ⟨entryPoint, s.epoch + s.now, false⟩

/-- Calls the builder of a package. -/
def invoke (s : Site) (p : Package) : Option (Site × Invocation) :=
  (s.builders[p.builder]?).map fun log =>
    let invocation := log.builder log.starts.length p.directory
    ({ s with builders := s.builders.set p.builder { log with starts := log.starts ++ [s.now] } },
      invocation)

/-- Whether an invocation is due. -/
def isDone (s : Site) (invocation : Invocation) (since : Instant) : Bool :=
  invocation.duration.any fun d => Clock.hasFired s.now (since + d)

/-- Lets an invocation that is due do its work. -/
def harvest (s : Site) (i : PartyId) (b : Build) (p : Package) (invocation : Invocation) : Site :=
  let (result, tree) := invocation.finish s.tree
  let s := { s with tree }
  match result with
  | .built entryPoint =>
      s.setParty i (.build { b with stage := .marking (s.freshArtifact entryPoint) })
  | .failed reason => s.conclude i b p (.error (.buildFailed p.name reason))
  | .broken => s.conclude i b p (.error (.aborted p.name))

/-- Writes the marker for an artifact, if it can have one and the file can be written. -/
def mark (s : Site) (p : Package) (a : Artifact) : Site :=
  match Marker.ofArtifact? p.directory a with
  | some m => (s.onTree (m.write p.directory)).2
  | none => s

/-- Lets a build do what it can do now. -/
def moveBuild? (s : Site) (i : PartyId) (b : Build) : Option Site := do
  let p ← s.package? b.package
  let stage (s : Site) (stage : BuildStage) : Option Site :=
    some (s.setParty i (.build { b with stage }))
  match b.stage with
  | .delayed =>
      if Clock.hasFired s.now b.start then
        stage s (.gripping (.withTimeout s.now p.options.buildTimeout) .wanted)
      else none
  | .gripping budget grip =>
      match s.gripStep b.package p i budget grip with
      | .stay => none
      | .next s grip => stage s (.gripping budget grip)
      | .held s => stage s (if b.restore then .restoring budget else .clearing budget)
      | .failed s e => some (s.publish i b p (.error e))
  | .restoring budget =>
      match (Marker.read? s.tree p.directory).bind (·.restore? s.tree p.directory) with
      | some a => some (s.conclude i b p (.ok a))
      | none => stage s (.clearing budget)
  | .clearing budget => stage (s.onTree (Marker.clear p.directory)).2 (.invoking budget)
  | .invoking budget =>
      let s := s.updatePackage b.package fun p => { p with builds := p.builds + 1 }
      match budget.ensureWithin s.now "package.build" with
      | .error e => some (s.conclude i b p (.error (.budget e)))
      | .ok () => do
          let (s, invocation) ← s.invoke p
          stage s (.working budget invocation s.now)
  | .working budget invocation since =>
      let done := if s.isDone invocation since then some () else none
      match budget.poll s.now "package.build" done with
      | .pending => none
      | .won () => some (s.harvest i b p invocation)
      | .lost e => some (s.conclude i b p (.error (.budget e)))
  | .marking a => some ((s.mark p a).conclude i b p (.ok a))
  | .telling outcome => stage s (.ended outcome)
  | .ended _ => none

/-- When a build may go on. -/
def buildWakes (s : Site) (b : Build) : List Instant :=
  match b.stage with
  | .delayed => [Clock.wakeTime s.now b.start]
  | .gripping budget grip => (budget.timer s.now).toList ++ grip.wakes s.now
  | .working budget invocation since =>
      (budget.timer s.now).toList ++
        (invocation.duration.map fun d => Clock.wakeTime s.now (since + d)).toList
  | _ => []

end Playground.Site
