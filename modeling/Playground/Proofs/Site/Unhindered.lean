import Playground.Proofs.Remains
import Playground.Proofs.Site.Exclusion
/-!
# Builds that nobody hinders

Once a build is due, and nobody stands in the way to its locks, it needs nobody else to come to its
end: it takes its locks, reads the marker, and has the artifact if the directory holds one.  From
where it finds none it goes on to call its builder.
-/

namespace Playground.Site

variable {s s' s₁ : Site} {n i : PartyId} {b : Build} {p : Package} {budget : Budget} {grip : Grip}
  {stage : BuildStage} {file : Nat} {tree : FileTree} {rel : Path} {builtAtMs : Nat} {c : Call}

/-! ## 1. Moves of a build -/

theorem act?_move_build (hn : s.build? n = some b) : s.act? (.move n) = s.moveBuild? n b := by
  rw [act?, build?_eq_some.mp hn]
  rfl

/-- A build at some stage, with its package, on the way from a site. -/
structure GetsTo (s : Site) (n : BuildId) (b : Build) (p : Package) (stage : BuildStage) (lock : Slots)
    (tree : FileTree) (held : List (Nat × PartyId)) (s' : Site) : Prop where
  parties : s'.parties = s.parties.set n (.build { b with stage })
  package : s'.package? b.package = some { p with lock }
  now : s'.now = s.now
  builders : s'.builders = s.builders
  tree : s'.tree = tree
  held : s'.held = held

namespace GetsTo

variable {lock : Slots} {held : List (Nat × PartyId)}

theorem build (h : GetsTo s n b p stage lock tree held s') (hn : s.build? n = some b) :
    s'.build? n = some { b with stage } := by
  have hbuilds : s'.build? = Function.update s.build? n (some { b with stage }) :=
    look_set _ (build?_eq_some.mp hn) h.parties
  rw [hbuilds, Function.update_self]

/-- The build goes on to the next stage. -/
theorem next {stage' : BuildStage} {lock' : Slots} {tree' : FileTree} {held' : List (Nat × PartyId)}
    (h : GetsTo s n b p stage lock tree held s') (s₁ : Site) (hparties : s₁.parties = s'.parties)
    (hpackage : s₁.package? b.package = some { p with lock := lock' }) (hnow : s₁.now = s'.now)
    (hbuilders : s₁.builders = s'.builders) (htree : s₁.tree = tree') (hheld : s₁.held = held') :
    GetsTo s n b p stage' lock' tree' held'
      (s₁.setParty n (.build { b with stage := stage' })) where
  parties := by
    have hset : (s₁.setParty n (.build { b with stage := stage' })).parties =
        s₁.parties.set n (.build { b with stage := stage' }) := rfl
    rw [hset, hparties, h.parties, List.set_set]
  package := hpackage
  now := hnow.trans h.now
  builders := hbuilders.trans h.builders
  tree := htree
  held := hheld

end GetsTo

theorem gripStep_wanted (h : budget.isExceeded s.now = false) (id : PackageId) (p : Package) :
    s.gripStep id p n budget .wanted =
      .next (s.updatePackage id fun p => { p with lock := p.lock.enter n }) .queued := by
  rw [gripStep, Budget.ensureWithin, h]
  rfl

theorem gripStep_queued (h : budget.cancelled = false) (hlock : p.lock.isHeldBy n = true)
    (id : PackageId) : s.gripStep id p n budget .queued = .next s .opening := by
  have hpoll : budget.poll s.now "lock.acquire" (some ()) = .won () := by
    rw [Budget.poll.eq_def, h]
    rfl
  rw [gripStep, hlock, if_pos rfl, hpoll]

theorem gripStep_opening
    (hopen : (FileAction.openFile (lockPath p.directory)).run s.tree = (.ok file, tree))
    (id : PackageId) (budget : Budget) :
    s.gripStep id p n budget .opening = .next { s with tree } (.trying file) := by
  rw [gripStep, openLock, onTree, hopen]

theorem gripStep_trying (h : s.isHeld file = false) (id : PackageId) (p : Package) (budget : Budget) :
    s.gripStep id p n budget (.trying file) = .held { s with held := (file, n) :: s.held } := by
  rw [gripStep, tryLock, h]
  rfl

theorem moveBuild?_next (hp : s.package? b.package = some p) (hstage : b.stage = .gripping budget grip)
    {grip' : Grip} (h : s.gripStep b.package p n budget grip = .next s₁ grip') :
    s.moveBuild? n b =
      some (s₁.setParty n (.build { b with stage := .gripping budget grip' })) := by
  rw [moveBuild?, hp, hstage]
  dsimp only [Option.bind_eq_bind, Option.bind_some]
  rw [h]

theorem moveBuild?_held (hp : s.package? b.package = some p) (hstage : b.stage = .gripping budget grip)
    (hrestore : b.restore = true) (h : s.gripStep b.package p n budget grip = .held s₁) :
    s.moveBuild? n b = some (s₁.setParty n (.build { b with stage := .restoring budget })) := by
  rw [moveBuild?, hp, hstage]
  dsimp only [Option.bind_eq_bind, Option.bind_some]
  rw [h, hrestore]
  rfl

theorem moveBuild?_restoring (hp : s.package? b.package = some p) (hstage : b.stage = .restoring budget)
    {artifact : Artifact}
    (h : (Marker.read? s.tree p.directory).bind (·.restore? s.tree p.directory) = some artifact) :
    s.moveBuild? n b = some (s.conclude n b p (.ok artifact)) := by
  rw [moveBuild?, hp, hstage]
  dsimp only [Option.bind_eq_bind, Option.bind_some]
  rw [h]

theorem moveBuild?_telling (hp : s.package? b.package = some p) {o : Outcome}
    (hstage : b.stage = .telling o) :
    s.moveBuild? n b = some (s.setParty n (.build { b with stage := .ended o })) := by
  rw [moveBuild?, hp, hstage]
  dsimp only [Option.bind_eq_bind, Option.bind_some]

/-! ## 2. The way to the artifact -/

theorem isExceeded_withTimeout (now : Instant) {timeout : Duration} (h : 0 < timeout) :
    (Budget.withTimeout now timeout).isExceeded now = false := by
  rw [Budget.isExceeded, Budget.isDue, Budget.withTimeout, Clock.after?]
  split
  · rw [Option.any_some, Bool.false_or, decide_eq_false_iff_not, Nat.not_le]
    exact Nat.lt_add_of_pos_right h
  · rfl

namespace GetsTo

variable {lock : Slots} {held : List (Nat × PartyId)}

theorem start (hn : s.build? n = some b) (hp : s.package? b.package = some p) :
    GetsTo s n b p b.stage p.lock s.tree s.held s where
  parties := by
    obtain ⟨hlt, hget⟩ := List.getElem?_eq_some_iff.mp (build?_eq_some.mp hn)
    have hself : s.parties.set n (.build b) = s.parties := by rw [← hget, List.set_getElem_self]
    exact hself.symm
  package := hp
  now := rfl
  builders := rfl
  tree := rfl
  held := rfl

theorem act (h : GetsTo s n b p stage lock tree held s') (hn : s.build? n = some b)
    (hmove : s'.moveBuild? n { b with stage } = some s₁) : s'.act? (.move n) = some s₁ := by
  rw [act?_move_build (h.build hn), hmove]

theorem setOut (h : GetsTo s n b p .delayed lock tree held s') (hn : s.build? n = some b)
    (hdue : Clock.hasFired s.now b.start = true) : ∃ s₁, s'.act? (.move n) = some s₁ ∧
      GetsTo s n b p (.gripping (.withTimeout s.now p.options.buildTimeout) .wanted) lock tree held
        s₁ := by
  rw [← h.now] at hdue ⊢
  exact ⟨_, h.act hn (moveBuild?_delayed (b := { b with stage := .delayed }) h.package rfl hdue),
    h.next _ rfl h.package rfl rfl h.tree h.held⟩

/-- Nobody stands in line. -/
theorem enter (h : GetsTo s n b p (.gripping budget .wanted) .lock tree held s')
    (hn : s.build? n = some b) (htime : budget.isExceeded s.now = false) :
    ∃ s₁, s'.act? (.move n) = some s₁ ∧
      GetsTo s n b p (.gripping budget .queued) (Slots.lock.enter n) tree held s₁ := by
  rw [← h.now] at htime
  have hmove := moveBuild?_next (b := { b with stage := .gripping budget .wanted }) (n := n)
    h.package rfl (gripStep_wanted htime _ _)
  refine ⟨_, h.act hn hmove, h.next _ rfl ?_ rfl rfl h.tree h.held⟩
  have hpackage := h.package
  rw [package?] at hpackage ⊢
  rw [updatePackage, List.getElem?_modify_eq, hpackage]
  rfl

theorem promoted (h : GetsTo s n b p (.gripping budget .queued) (Slots.lock.enter n) tree held s')
    (hn : s.build? n = some b) (htime : budget.cancelled = false) : ∃ s₁, s'.act? (.move n) = some s₁ ∧
      GetsTo s n b p (.gripping budget .opening) (Slots.lock.enter n) tree held s₁ := by
  have hlock : (Slots.lock.enter n).isHeldBy n = true := by
    simp [Slots.lock, Slots.ofPermits, Slots.enter, Slots.isFull, Slots.isHeldBy]
  have hmove := moveBuild?_next (b := { b with stage := .gripping budget .queued })
    h.package rfl (gripStep_queued htime hlock _)
  exact ⟨_, h.act hn hmove, h.next _ rfl h.package rfl rfl h.tree h.held⟩

theorem opened {tree' : FileTree} (h : GetsTo s n b p (.gripping budget .opening) lock tree held s')
    (hn : s.build? n = some b)
    (hopen : (FileAction.openFile (lockPath p.directory)).run tree = (.ok file, tree')) :
    ∃ s₁, s'.act? (.move n) = some s₁ ∧
      GetsTo s n b p (.gripping budget (.trying file)) lock tree' held s₁ := by
  rw [← h.tree] at hopen
  have hmove := moveBuild?_next (b := { b with stage := .gripping budget .opening }) (n := n)
    h.package rfl (gripStep_opening hopen _ budget)
  refine ⟨_, h.act hn hmove, ?_⟩
  exact h.next { s' with tree := tree' } rfl h.package rfl rfl rfl h.held

theorem taken (h : GetsTo s n b p (.gripping budget (.trying file)) lock tree s.held s')
    (hn : s.build? n = some b) (hrestore : b.restore = true) (hfree : s.isHeld file = false) :
    ∃ s₁, s'.act? (.move n) = some s₁ ∧
      GetsTo s n b p (.restoring budget) lock tree ((file, n) :: s.held) s₁ := by
  have hfree' : s'.isHeld file = false := by
    rw [isHeld, h.held]
    exact hfree
  have hmove := moveBuild?_held (b := { b with stage := .gripping budget (.trying file) }) (n := n)
    h.package rfl hrestore (gripStep_trying hfree' _ _ _)
  refine ⟨_, h.act hn hmove, ?_⟩
  refine h.next { s' with held := (file, n) :: s'.held } rfl h.package rfl rfl h.tree ?_
  exact congrArg _ h.held

/-- The build takes over what the directory holds, and gives up its locks. -/
theorem takenOver {artifact : Artifact} (h : GetsTo s n b p (.restoring budget) lock tree held s')
    (hn : s.build? n = some b)
    (hartifact : (Marker.read? tree p.directory).bind (·.restore? tree p.directory) = some artifact) :
    ∃ s₁ p', s'.act? (.move n) = some s₁ ∧
      GetsTo s n b p' (.telling (.ok artifact)) p'.lock s₁.tree s₁.held s₁ := by
  rw [← h.tree] at hartifact
  have hmove := moveBuild?_restoring (b := { b with stage := .restoring budget }) (n := n)
    h.package rfl hartifact
  have hact := h.act hn hmove
  revert hact
  generalize hs₁ : s'.conclude n { b with stage := .restoring budget } { p with lock }
    (.ok artifact) = s₁
  intro hact
  have hpackage : ∃ p', s₁.package? b.package = some p' := by
    have hold := h.package
    rw [package?] at hold ⊢
    rw [← hs₁, conclude, publish, setParty, release, updatePackage, updatePackage,
      List.getElem?_modify_eq, List.getElem?_modify_eq, hold]
    exact ⟨_, rfl⟩
  obtain ⟨p', hp'⟩ := hpackage
  refine ⟨s₁, p', hact, ?_, hp', ?_, ?_, rfl, rfl⟩
  · rw [← List.set_set (.build { b with stage := .restoring budget }), ← h.parties, ← hs₁]
    rfl
  · rw [← h.now, ← hs₁]
    rfl
  · rw [← h.builders, ← hs₁]
    rfl

theorem told {o : Outcome} (h : GetsTo s n b p (.telling o) lock tree held s')
    (hn : s.build? n = some b) :
    ∃ s₁, s'.act? (.move n) = some s₁ ∧ GetsTo s n b p (.ended o) lock tree held s₁ := by
  have hmove := moveBuild?_telling (b := { b with stage := .telling o }) (n := n) h.package rfl
  exact ⟨_, h.act hn hmove, h.next _ rfl h.package rfl rfl h.tree h.held⟩

end GetsTo

/-- A build that is due comes to read the marker in five moves of its own, if its locks are free and
its package gives it any time. -/
theorem run?_restoring (hn : s.build? n = some b) (hrestore : b.restore = true)
    (hstage : b.stage = .delayed) (hdue : Clock.hasFired s.now b.start = true)
    (hp : s.package? b.package = some p) (htime : 0 < p.options.buildTimeout) (hlock : p.lock = .lock)
    (hopen : (FileAction.openFile (lockPath p.directory)).run s.tree = (.ok file, tree))
    (hfree : s.isHeld file = false) : ∃ s', s.run? (List.replicate 5 (.move n)) = some s' ∧
      GetsTo s n b p (.restoring (.withTimeout s.now p.options.buildTimeout)) (Slots.lock.enter n) tree
        ((file, n) :: s.held) s' := by
  have h₀ := GetsTo.start hn hp
  rw [hstage, hlock] at h₀
  obtain ⟨s₁, hact₁, h₁⟩ := h₀.setOut hn hdue
  obtain ⟨s₂, hact₂, h₂⟩ := h₁.enter hn (isExceeded_withTimeout s.now htime)
  obtain ⟨s₃, hact₃, h₃⟩ := h₂.promoted hn rfl
  obtain ⟨s₄, hact₄, h₄⟩ := h₃.opened hn hopen
  obtain ⟨s₅, hact₅, h₅⟩ := h₄.taken hn hrestore hfree
  refine ⟨s₅, ?_, h₅⟩
  simp only [List.replicate, run?, hact₁, hact₂, hact₃, hact₄, hact₅, Option.bind_some]

/-- If the directory holds a build, the build takes it over, and has told so two moves later. -/
theorem GetsTo.ended {lock : Slots} {held : List (Nat × PartyId)}
    (h : GetsTo s n b p (.restoring budget) lock tree held s') (hn : s.build? n = some b)
    (hholds : tree.HoldsBuild p.directory rel builtAtMs) :
    ∃ s₁, s'.run? (List.replicate 2 (.move n)) = some s₁ ∧ s₁.now = s.now ∧ s₁.call? = s.call? ∧
      s₁.outcome? n = some (.ok ⟨p.directory.join (Path.noted p.directory rel),
        builtAtMs * Clock.milli, true⟩) := by
  obtain ⟨s₁, p', hact₁, h₁⟩ := h.takenOver hn hholds.restore
  obtain ⟨s₂, hact₂, h₂⟩ := h₁.told hn
  refine ⟨s₂, ?_, h₂.now, look_set_of_none _ (build?_eq_some.mp hn) rfl rfl h₂.parties, ?_⟩
  · simp only [List.replicate, run?, hact₁, hact₂, Option.bind_some]
  · rw [outcome?, build?_eq_some.mp (h₂.build hn)]

/-! ## 3. The way to the builder -/

theorem moveBuild?_distrusting (hp : s.package? b.package = some p)
    (hstage : b.stage = .restoring budget)
    (h : (Marker.read? s.tree p.directory).bind (·.restore? s.tree p.directory) = none) :
    s.moveBuild? n b = some (s.setParty n (.build { b with stage := .clearing budget })) := by
  rw [moveBuild?, hp, hstage]
  dsimp only [Option.bind_eq_bind, Option.bind_some]
  rw [h]

theorem moveBuild?_clearing (hp : s.package? b.package = some p) (hstage : b.stage = .clearing budget) :
    s.moveBuild? n b = some ((s.onTree (Marker.clear p.directory)).2.setParty n
      (.build { b with stage := .invoking budget })) := by
  rw [moveBuild?, hp, hstage]
  rfl

theorem moveBuild?_invoking (hp : s.package? b.package = some p) (hstage : b.stage = .invoking budget)
    (htime : budget.isExceeded s.now = false) {log : BuilderLog}
    (hlog : s.builders[p.builder]? = some log) :
    s.moveBuild? n b = some (((s.counted b.package).logged p.builder log).setParty n
      (.build { b with stage := .working budget (log.next p.directory) s.now })) := by
  have hwithin : budget.ensureWithin (s.counted b.package).now "package.build" = .ok () := by
    have hnow : (s.counted b.package).now = s.now := rfl
    rw [Budget.ensureWithin, hnow, htime]
    rfl
  have hinvoke : (s.counted b.package).invoke p =
      some ((s.counted b.package).logged p.builder log, log.next p.directory) := by
    have hlog' : (s.counted b.package).builders[p.builder]? = some log := hlog
    rw [invoke, hlog']
    rfl
  rw [moveBuild?, hp, hstage]
  dsimp only [Option.bind_eq_bind, Option.bind_some]
  rw [show s.updatePackage b.package (fun p => { p with builds := p.builds + 1 }) =
    s.counted b.package from rfl, hwithin, hinvoke]
  rfl

namespace GetsTo

variable {lock : Slots} {held : List (Nat × PartyId)}

theorem distrusted (h : GetsTo s n b p (.restoring budget) lock tree held s') (hn : s.build? n = some b)
    (hnone : (Marker.read? tree p.directory).bind (·.restore? tree p.directory) = none) :
    ∃ s₁, s'.act? (.move n) = some s₁ ∧ GetsTo s n b p (.clearing budget) lock tree held s₁ := by
  rw [← h.tree] at hnone
  have hmove := moveBuild?_distrusting (b := { b with stage := .restoring budget }) (n := n)
    h.package rfl hnone
  exact ⟨_, h.act hn hmove, h.next _ rfl h.package rfl rfl h.tree h.held⟩

theorem cleared (h : GetsTo s n b p (.clearing budget) lock tree held s') (hn : s.build? n = some b) :
    ∃ s₁, s'.act? (.move n) = some s₁ ∧
      GetsTo s n b p (.invoking budget) lock ((Marker.clear p.directory).run tree).2 held s₁ := by
  have hmove := moveBuild?_clearing (b := { b with stage := .clearing budget }) (n := n) h.package rfl
  rw [← h.tree]
  refine ⟨_, h.act hn hmove, ?_⟩
  exact h.next (s'.onTree (Marker.clear p.directory)).2 rfl h.package rfl rfl rfl h.held

theorem invoked (h : GetsTo s n b p (.invoking budget) lock tree held s') (hn : s.build? n = some b)
    (htime : budget.isExceeded s.now = false) {log : BuilderLog}
    (hlog : s.builders[p.builder]? = some log) :
    ∃ s₁, s'.act? (.move n) = some s₁ ∧
      s₁.build? n = some { b with stage := .working budget (log.next p.directory) s.now } ∧
      s₁.builders = s.builders.set p.builder { log with starts := log.starts ++ [s.now] } := by
  rw [← h.now] at htime ⊢
  rw [← h.builders] at hlog ⊢
  have hmove := moveBuild?_invoking (b := { b with stage := .invoking budget }) (n := n) h.package rfl
    htime hlog
  refine ⟨_, h.act hn hmove, ?_, rfl⟩
  exact build?_eq_some.mpr (List.getElem?_set_self (List.getElem?_eq_some_iff.mp
    (build?_eq_some.mp (h.build hn))).1)

end GetsTo

/-- If the directory holds nothing to take over, the build calls its builder three moves later, unless
it has run out of time. -/
theorem GetsTo.working {lock : Slots} {held : List (Nat × PartyId)}
    (h : GetsTo s n b p (.restoring budget) lock tree held s') (hn : s.build? n = some b)
    (hlacks : tree.LacksBuild p.directory) (htime : budget.isExceeded s.now = false)
    {log : BuilderLog} (hlog : s.builders[p.builder]? = some log) :
    ∃ s₁, s'.run? (List.replicate 3 (.move n)) = some s₁ ∧
      s₁.build? n = some { b with stage := .working budget (log.next p.directory) s.now } ∧
      s₁.builders = s.builders.set p.builder { log with starts := log.starts ++ [s.now] } := by
  obtain ⟨s₁, hact₁, h₁⟩ := h.distrusted hn (FileTree.lacksBuild_iff.mp hlacks)
  obtain ⟨s₂, hact₂, h₂⟩ := h₁.cleared hn
  obtain ⟨s₃, hact₃, hworks, hlogs⟩ := h₂.invoked hn htime hlog
  refine ⟨s₃, ?_, hworks, hlogs⟩
  simp only [List.replicate, run?, hact₁, hact₂, hact₃, Option.bind_some]

end Playground.Site
