import Playground.Proofs.Files.Change
import Playground.Site.Machine
/-!
# Turns

What builds and callers do when it is their turn is listed here in full: from which stage, under
which condition, and to which site.  Whatever is to be known of all moves, be it about the locks, the
files or the builders, is read off these lists.
-/

namespace Playground

theorem Budget.of_poll_won {α : Type} {b : Budget} {now : Instant} {checkpoint : String}
    {work : Option α} {a : α} (h : b.poll now checkpoint work = .won a) : work = some a := by
  unfold poll at h
  split at h
  · cases h
  · split at h
    · cases h
      rfl
    · split at h <;> cases h

theorem Budget.of_open?_won {α : Type} {b : Budget} {now : Instant} {checkpoint : String}
    {work : Option α} {a : α} (h : b.open? now checkpoint work = .won a) : work = some a := by
  unfold open? at h
  split at h
  · cases h
  · exact of_poll_won h

/-- The build that a caller waits for. -/
def CallStage.build? : CallStage → Option BuildId
  | joining _ b => some b
  | waiting _ b => some b
  | _ => none

/-- The next call of a builder. -/
def BuilderLog.next (log : BuilderLog) (directory : Path) : Invocation :=
  log.builder log.starts.length directory

namespace Site

variable {s s' s₁ : Site} {i : PartyId} {id : PackageId} {b : Build} {c : Call} {p : Package}

/-! ## 1. Towards the locks -/

/-- The state that a step towards the locks leads to, if it leads anywhere. -/
def GripStep.site? : GripStep → Option Site
  | .stay => none
  | .next s _ => some s
  | .held s => some s
  | .failed s _ => some s

/-- What a step towards the locks of a package does. -/
inductive GripTurn (s : Site) (id : PackageId) (p : Package) (i : PartyId) :
    Grip → GripStep → Prop where
  | enter : GripTurn s id p i .wanted
      (.next (s.updatePackage id fun p => { p with lock := p.lock.enter i }) .queued)
  | promoted (h : p.lock.isHeldBy i = true) : GripTurn s id p i .queued (.next s .opening)
  | opened (file : Nat) (tree : FileTree)
      (h : (FileAction.openFile (lockPath p.directory)).run s.tree = (.ok file, tree)) :
      GripTurn s id p i .opening (.next { s with tree } (.trying file))
  | contended (file : Nat) (until_ : Instant) (h : s.isHeld file = true) :
      GripTurn s id p i (.trying file) (.next s (.pausing file until_))
  | retry (file : Nat) (until_ : Instant) :
      GripTurn s id p i (.pausing file until_) (.next s (.trying file))
  | taken (file : Nat) (h : s.isHeld file = false) :
      GripTurn s id p i (.trying file) (.held { s with held := (file, i) :: s.held })
  | refused (e : PackageError) : GripTurn s id p i .wanted (.failed s e)
  | failed (grip : Grip) (e : PackageError) (h : grip ≠ .wanted) :
      GripTurn s id p i grip (.failed (s.release id i) e)
  | stay (grip : Grip) : GripTurn s id p i grip .stay

theorem gripTurn (s : Site) (id : PackageId) (p : Package) (i : PartyId) (budget : Budget)
    (grip : Grip) : GripTurn s id p i grip (s.gripStep id p i budget grip) := by
  cases grip with
  | wanted =>
    unfold gripStep
    dsimp only
    split
    · exact .refused _
    · exact .enter
  | queued =>
    unfold gripStep
    dsimp only
    split
    · exact .stay _
    · rename_i hwon
      have hholds := Budget.of_poll_won hwon
      split at hholds
      · exact .promoted ‹_›
      · cases hholds
    · exact .failed _ _ nofun
  | opening =>
    unfold gripStep openLock onTree
    dsimp only
    cases hopen : (FileAction.openFile (lockPath p.directory)).run s.tree with
    | mk result tree =>
      cases result with
      | ok file => exact .opened file tree hopen
      | error e =>
        rw [FileAction.openFile_error hopen]
        exact .failed _ _ nofun
  | trying file =>
    unfold gripStep tryLock
    dsimp only
    split
    · split
      · exact .failed _ _ nofun
      · exact .contended _ _ ‹_›
    · exact .taken _ (eq_false_of_ne_true ‹_›)
  | pausing file until_ =>
    unfold gripStep
    dsimp only
    split
    · exact .stay _
    · exact .retry _ _
    · exact .failed _ _ nofun

/-- A step towards the locks takes no time. -/
theorem GripTurn.now {grip : Grip} {step : GripStep} (h : GripTurn s id p i grip step)
    (s' : Site) (hstep : step.site? = some s') : s'.now = s.now := by
  cases h <;> cases hstep <;> rfl

/-! ## 2. Builds -/

/-- The site in which the calls of the builder of a package have been counted one up. -/
def counted (s : Site) (id : PackageId) : Site :=
  s.updatePackage id fun p => { p with builds := p.builds + 1 }

/-- The site in which a builder has logged a call. -/
def logged (s : Site) (k : BuilderId) (log : BuilderLog) : Site :=
  { s with builders := s.builders.set k { log with starts := log.starts ++ [s.now] } }

/-- What build `b` does in its turn, from the stage that it is in. -/
inductive BuildTurn (s : Site) (i : PartyId) (b : Build) (p : Package) :
    BuildStage → Site → Prop where
  | setOut (budget : Budget) : BuildTurn s i b p .delayed
      (s.setParty i (.build { b with stage := .gripping budget .wanted }))
  | approach (budget : Budget) (grip grip' : Grip) (s₁ : Site)
      (h : GripTurn s b.package p i grip (.next s₁ grip')) :
      BuildTurn s i b p (.gripping budget grip)
        (s₁.setParty i (.build { b with stage := .gripping budget grip' }))
  | enter (budget : Budget) (grip : Grip) (s₁ : Site)
      (h : GripTurn s b.package p i grip (.held s₁)) :
      BuildTurn s i b p (.gripping budget grip) (s₁.setParty i
        (.build { b with stage := if b.restore then .restoring budget else .clearing budget }))
  | giveUp (budget : Budget) (grip : Grip) (s₁ : Site) (e : PackageError)
      (h : GripTurn s b.package p i grip (.failed s₁ e)) :
      BuildTurn s i b p (.gripping budget grip) (s₁.publish i b p (.error e))
  | takeOver (budget : Budget) (m : Marker) (a : Artifact)
      (hm : Marker.read? s.tree p.directory = some m)
      (ha : m.restore? s.tree p.directory = some a) :
      BuildTurn s i b p (.restoring budget) (s.conclude i b p (.ok a))
  | distrust (budget : Budget)
      (h : (Marker.read? s.tree p.directory).bind (·.restore? s.tree p.directory) = none) :
      BuildTurn s i b p (.restoring budget)
        (s.setParty i (.build { b with stage := .clearing budget }))
  | clear (budget : Budget) : BuildTurn s i b p (.clearing budget)
      ((s.onTree (Marker.clear p.directory)).2.setParty i
        (.build { b with stage := .invoking budget }))
  | expire (budget : Budget) (e : Budget.Exceeded) : BuildTurn s i b p (.invoking budget)
      ((s.counted b.package).conclude i b p (.error (.budget e)))
  | call (budget : Budget) (log : BuilderLog) (hlog : s.builders[p.builder]? = some log) :
      BuildTurn s i b p (.invoking budget)
        (((s.counted b.package).logged p.builder log).setParty i
          (.build { b with stage := .working budget (log.next p.directory) s.now }))
  | finish (budget : Budget) (invocation : Invocation) (since : Instant) (entry : Path)
      (tree : FileTree) (h : invocation.finish s.tree = (.built entry, tree)) :
      BuildTurn s i b p (.working budget invocation since)
        ({ s with tree }.setParty i (.build { b with stage := .marking (s.freshArtifact entry) }))
  | fail (budget : Budget) (invocation : Invocation) (since : Instant) (result : BuildResult)
      (tree : FileTree) (e : PackageError) (h : invocation.finish s.tree = (result, tree))
      (hresult : ∀ entry, result ≠ .built entry) :
      BuildTurn s i b p (.working budget invocation since)
        ({ s with tree }.conclude i b p (.error e))
  | timeOut (budget : Budget) (invocation : Invocation) (since : Instant) (e : Budget.Exceeded) :
      BuildTurn s i b p (.working budget invocation since)
        (s.conclude i b p (.error (.budget e)))
  | mark (a : Artifact) : BuildTurn s i b p (.marking a) ((s.mark p a).conclude i b p (.ok a))
  | tell (o : Outcome) : BuildTurn s i b p (.telling o)
      (s.setParty i (.build { b with stage := .ended o }))

theorem buildTurn_harvest (budget : Budget) (invocation : Invocation) (since : Instant) :
    BuildTurn s i b p (.working budget invocation since) (s.harvest i b p invocation) := by
  unfold harvest
  cases hfinish : invocation.finish s.tree with
  | mk result tree =>
    cases result with
    | built entry => exact .finish budget invocation since entry tree hfinish
    | failed reason => exact .fail budget invocation since _ tree _ hfinish nofun
    | broken => exact .fail budget invocation since _ tree _ hfinish nofun

/-- What a build does in its turn. -/
theorem moveBuild?_turn (h : s.moveBuild? i b = some s') :
    ∃ p, s.package? b.package = some p ∧ BuildTurn s i b p b.stage s' := by
  obtain ⟨p, hp, h⟩ := Option.bind_eq_some_iff.mp h
  refine ⟨p, hp, ?_⟩
  generalize b.stage = stage at h ⊢
  cases stage with
  | delayed =>
    dsimp only at h
    split at h
    · cases h
      exact .setOut _
    · cases h
  | gripping budget grip =>
    -- on the way to the locks every party does the same
    have hturn := s.gripTurn b.package p i budget grip
    dsimp only at h
    generalize s.gripStep b.package p i budget grip = step at h hturn
    cases step with
    | stay => cases h
    | next s₁ grip' =>
      cases h
      exact .approach budget grip grip' s₁ hturn
    | held s₁ =>
      cases h
      exact .enter budget grip s₁ hturn
    | failed s₁ e =>
      cases h
      exact .giveUp budget grip s₁ e hturn
  | restoring budget =>
    dsimp only at h
    split at h
    · rename_i a ha
      obtain ⟨m, hm, ha⟩ := Option.bind_eq_some_iff.mp ha
      cases h
      exact .takeOver budget m a hm ha
    · cases h
      exact .distrust budget ‹_›
  | clearing budget =>
    cases h
    exact .clear budget
  | invoking budget =>
    dsimp only at h
    split at h
    · cases h
      exact .expire budget _
    · obtain ⟨⟨s₁, invocation⟩, hinvoke, h⟩ := Option.bind_eq_some_iff.mp h
      obtain ⟨log, hlog, hcalled⟩ := Option.map_eq_some_iff.mp hinvoke
      cases hcalled
      cases h
      exact .call budget log hlog
  | working budget invocation since =>
    dsimp only at h
    split at h
    · cases h
    · cases h
      exact buildTurn_harvest budget invocation since
    · cases h
      exact .timeOut budget invocation since _
  | marking a =>
    cases h
    exact .mark a
  | telling o =>
    cases h
    exact .tell o
  | ended o => cases h

/-- A build that sets out gets the time that its package allows. -/
theorem moveBuild?_delayed (hp : s.package? b.package = some p) (hstage : b.stage = .delayed)
    (hdue : Clock.hasFired s.now b.start = true) : s.moveBuild? i b = some (s.setParty i (.build
      { b with stage := .gripping (.withTimeout s.now p.options.buildTimeout) .wanted })) := by
  rw [moveBuild?, hp, hstage, hdue]
  rfl

theorem hasFired_of_moveBuild? (h : s.moveBuild? i b = some s') (hstage : b.stage = .delayed) :
    Clock.hasFired s.now b.start = true := by
  obtain ⟨p, -, h⟩ := Option.bind_eq_some_iff.mp h
  rw [hstage] at h
  dsimp only at h
  split at h
  · assumption
  · cases h

/-! ## 3. Calls -/

/-- Where a demand takes the caller who makes it. -/
def answerDemand (i : PartyId) (c : Call) (a : Budget.Allowance) : Site × Demand → Site
  | (s, .settled outcome) => s.afterOutcome i c a outcome
  | (s, .joined b) => s.setParty i (.call { c with stage := .joining a b })
  | (s, .scheduled b _ _) => s.setParty i (.call { c with stage := .joining a b })
  | (s, .offTheClock) => s.setParty i (.call { c with stage := .offTheClock })

/-- What call `c` does in its turn, from the stage that it is in.  Up to the locks, it changes the site
by its demand only. -/
inductive CallTurn (s : Site) (i : PartyId) (c : Call) (p : Package) : CallStage → Site → Prop where
  | come (a : Budget.Allowance) : CallTurn s i c p .coming
      (s.setParty i (.call { c with stage := .asking a }))
  | refuse (e : Budget.Exceeded) :
      CallTurn s i c p .coming (s.reply i c (.error (.budget e)))
  | ask (a : Budget.Allowance) :
      CallTurn s i c p (.asking a) (answerDemand i c a (s.demand c.package p))
  | wait (stage : CallStage) (a : Budget.Allowance) (n : BuildId) (h : stage.build? = some n) :
      CallTurn s i c p stage (s.setParty i (.call { c with stage := .waiting a n }))
  | get (stage : CallStage) (a : Budget.Allowance) (n : BuildId) (o : Outcome)
      (h : stage.build? = some n) (ho : s.outcome? n = some o) :
      CallTurn s i c p stage (s.afterOutcome i c a o)
  | giveUp (stage : CallStage) (n : BuildId) (e : Budget.Exceeded) (h : stage.build? = some n) :
      CallTurn s i c p stage (s.reply i c (.error (.budget e)))
  | approach (a : Budget.Allowance) (order : CopyOrder) (grip grip' : Grip) (s₁ : Site)
      (h : GripTurn s c.package p i grip (.next s₁ grip')) :
      CallTurn s i c p (.gripping a order grip)
        (s₁.setParty i (.call { c with stage := .gripping a order grip' }))
  | enter (a : Budget.Allowance) (order : CopyOrder) (grip : Grip) (s₁ : Site)
      (h : GripTurn s c.package p i grip (.held s₁)) :
      CallTurn s i c p (.gripping a order grip)
        ((s₁.addParty (.copyWork ⟨p.directory, order.destination, none⟩)).1.setParty i
          (.call { c with stage := .copying a order s₁.parties.length }))
  | expire (a : Budget.Allowance) (order : CopyOrder) (grip : Grip) (s₁ : Site)
      (e : Budget.Exceeded) (h : GripTurn s c.package p i grip (.held s₁)) :
      CallTurn s i c p (.gripping a order grip)
        ((s₁.release c.package i).reply i c (.error (.budget e)))
  | fail (a : Budget.Allowance) (order : CopyOrder) (grip : Grip) (s₁ : Site) (e : PackageError)
      (h : GripTurn s c.package p i grip (.failed s₁ e)) :
      CallTurn s i c p (.gripping a order grip) (s₁.reply i c (.error e))
  | finish (a : Budget.Allowance) (order : CopyOrder) (worker : PartyId)
      (result : Except FileError Unit) (h : s.copyResult? worker = some result) :
      CallTurn s i c p (.copying a order worker) (s.afterCopy i c p order result)
  | abandon (a : Budget.Allowance) (order : CopyOrder) (worker : PartyId) (e : Budget.Exceeded) :
      CallTurn s i c p (.copying a order worker)
        ((s.release c.package i).reply i c (.error (.budget e)))

/-- What an asking caller does is what it is answered. -/
theorem moveCall?_asking {allowance : Budget.Allowance} (hp : s.package? c.package = some p)
    (hc : c.stage = .asking allowance) :
    s.moveCall? i c = some (answerDemand i c allowance (s.demand c.package p)) := by
  unfold moveCall?
  rw [hp, Option.bind_eq_bind, Option.bind_some]
  dsimp only
  rw [hc]
  generalize s.demand c.package p = d
  obtain ⟨s₁, demand⟩ := d
  cases demand <;> rfl

theorem callTurn_startCopy {a : Budget.Allowance} {order : CopyOrder} {grip : Grip}
    (h : GripTurn s c.package p i grip (.held s₁)) :
    CallTurn s i c p (.gripping a order grip) (s₁.startCopy i c p a order) := by
  unfold startCopy
  split
  · exact .expire a order grip s₁ _ h
  · exact .enter a order grip s₁ h

/-- What a caller does in its turn. -/
theorem moveCall?_turn (h : s.moveCall? i c = some s') :
    ∃ p, s.package? c.package = some p ∧ CallTurn s i c p c.stage s' := by
  obtain ⟨p, hp, h⟩ := Option.bind_eq_some_iff.mp h
  refine ⟨p, hp, ?_⟩
  generalize c.stage = stage at h ⊢
  cases stage with
  | coming =>
    dsimp only at h
    split at h
    · cases h
    · split at h
      · cases h
        exact .refuse _
      · cases h
        exact .come _
  | asking a =>
    -- whatever the demand leads to, the turn is one
    have hask := CallTurn.ask (s := s) (i := i) (c := c) (p := p) a
    dsimp only at h
    generalize s.demand c.package p = d at h hask
    obtain ⟨s₁, demand⟩ := d
    cases demand <;> cases h <;> exact hask
  | joining a n =>
    dsimp only at h
    split at h
    · cases h
      exact .wait _ a n rfl
    · rename_i hwon
      cases h
      exact .get _ a n _ rfl (Budget.of_open?_won hwon)
    · cases h
      exact .giveUp _ n _ rfl
  | waiting a n =>
    dsimp only at h
    split at h
    · cases h
    · rename_i hwon
      cases h
      exact .get _ a n _ rfl (Budget.of_poll_won hwon)
    · cases h
      exact .giveUp _ n _ rfl
  | gripping a order grip =>
    have hturn := s.gripTurn c.package p i a.budget grip
    dsimp only at h
    generalize s.gripStep c.package p i a.budget grip = step at h hturn
    cases step with
    | stay => cases h
    | next s₁ grip' =>
      cases h
      exact .approach a order grip grip' s₁ hturn
    | held s₁ =>
      cases h
      exact callTurn_startCopy hturn
    | failed s₁ e =>
      cases h
      exact .fail a order grip s₁ e hturn
  | copying a order worker =>
    dsimp only at h
    split at h
    · cases h
    · rename_i hwon
      cases h
      exact .finish a order worker _ (Budget.of_poll_won hwon)
    · cases h
      exact .abandon a order worker _
  | answered t answer => cases h
  | offTheClock => cases h

end Site

end Playground
