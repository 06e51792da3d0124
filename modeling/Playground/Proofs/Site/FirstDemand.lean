import Playground.Proofs.Site.Copying
import Playground.Proofs.Site.Unhindered
/-!
# The first demand for a package

As long as nothing has happened to a package, nobody has its lock or waits for it, and the first demand
schedules a build that may start at once and take over what is there.  If the directory holds a build,
and nobody hinders the new one, the caller has the artifact within a tick of the clock.
-/

namespace Playground

theorem CallStage.isCopy_of_standing? {stage : CallStage} {id : PackageId} {st : Standing}
    (h : stage.standing? id = some st) : stage.isCopy = true := by
  cases stage <;> first | rfl | cases h

theorem Budget.cancelled_of_isExceeded {b : Budget} {now : Instant} (h : b.isExceeded now = false) :
    b.cancelled = false := by
  rw [isExceeded, Bool.or_eq_false_iff] at h
  exact h.1

theorem Budget.open?_of_isExceeded {α : Type} {b : Budget} {now : Instant} (checkpoint : String)
    (work : α) (h : b.isExceeded now = false) : b.open? now checkpoint (some work) = .won work := by
  rw [open?, ensureWithin, h, poll.eq_def, cancelled_of_isExceeded h]
  rfl

namespace Site

variable {s s' : Site} {acts : List Act} {i n : PartyId} {id : PackageId} {b : Build} {c : Call}
  {p : Package} {log : List Event} {allowance : Budget.Allowance} {o : Outcome} {d : Duration}
  {epoch : Nat} {tree tree' : FileTree} {rel : Path} {builtAtMs : Nat}

/-! ## 1. Packages to which nothing has happened -/

/-- Whoever has a lock of a package or waits for one is one of its builds, or has come there through
one. -/
theorem not_untouched_of_standing? {st : Standing} (hrun : (Site.empty epoch tree).run? acts = some s)
    (hi : s.standing? i = some st) (hid : st.package? = some id) :
    ¬ Untouched ((Site.empty epoch tree).history acts) id := by
  have horigin : ∀ {n}, s.origin? n = some id →
      ¬ Untouched ((Site.empty epoch tree).history acts) id :=
    fun hn huntouched => huntouched _ (((ledger_of_run hrun).builds id _).mpr hn) rfl
  cases hparty : s.parties[i]? with
  | none =>
    rw [standing?, look, hparty] at hi
    cases hi
  | some party =>
    rw [standing?_of_party hparty] at hi
    cases party with
    | build b =>
      have hb : s.build? i = some b := build?_eq_some.mpr hparty
      obtain rfl := Option.some.inj (hid.symm.trans (BuildStage.package?_of_standing? hi))
      exact horigin (origin?_of_build? hb)
    | call c =>
      obtain rfl := Option.some.inj (hid.symm.trans (CallStage.package?_of_standing? hi))
      have hc : s.call? i = some c := call?_eq_some.mpr hparty
      obtain ⟨-, artifact, hserved⟩ :=
        (past_of_run (fun _ => rfl) hrun hc).copies (CallStage.isCopy_of_standing? hi)
      obtain ⟨n, hasked, -⟩ := AsksFor.of_served hrun hc hserved
      exact horigin (hasked.origin hrun)
    | copyWork w => cases hi
    | outsider other =>
      rw [Party.standing?] at hi
      split at hi
      · cases hi
        cases hid
      · cases hi

/-- A caller has brought about a new build, which is due at once and may restore, and has joined it. -/
structure SetsOut (s : Site) (i : PartyId) (c : Call) (allowance : Budget.Allowance) (s₁ : Site) :
    Prop where
  build : s₁.build? s.parties.length = some ⟨c.package, s.now, true, .delayed⟩
  call : s₁.call? i = some { c with stage := .joining allowance s.parties.length }
  package : ∀ p, s.package? c.package = some p →
    ∃ l, s₁.package? c.package = some { p with lifecycle := l }
  now : s₁.now = s.now
  tree : s₁.tree = s.tree
  held : s₁.held = s.held
  builders : s₁.builders = s.builders

/-- The first demand for a package schedules a build that is due at once and may restore. -/
theorem Ledger.first (hl : Ledger s log) (hi : s.call? i = some c) (hc : c.stage = .asking allowance)
    (hp : s.package? c.package = some p) (huntouched : Untouched log c.package) :
    ∃ s₁, s.act? (.move i) = some s₁ ∧ SetsOut s i c allowance s₁ := by
  have hrecords := hl.packages _ p hp
  obtain ⟨hphase, hlast⟩ := hrecords.unscheduled huntouched.unscheduled
  have hrestore := hrecords.mayRestore.mpr huntouched
  have hdemand : p.lifecycle.demand p.options.rebuild s.now s.parties.length =
      (⟨.building s.parties.length, false, some s.now, false⟩,
        .scheduled s.parties.length s.now true) := by
    revert hphase hlast hrestore
    generalize p.lifecycle = l, p.options.rebuild = rebuild
    obtain ⟨phase, dirty, lastStart, mayRestore⟩ := l
    rintro rfl rfl rfl
    cases rebuild <;> rfl
  have hact := act?_asking hi hc hp
  rw [demand, hdemand] at hact
  have hparty : s.parties[i]? = some (.call c) := call?_eq_some.mp hi
  refine ⟨_, hact, ?_, call?_of_concat_set hparty rfl rfl, fun q hq => ?_, rfl, rfl, rfl, rfl⟩
  · have hbuilds : ∀ {s₁ : Site}, s₁.parties =
        (s.parties ++ [Party.build ⟨c.package, s.now, true, .delayed⟩]).set i
          (.call { c with stage := .joining allowance s.parties.length }) →
        s₁.build? s.parties.length = some ⟨c.package, s.now, true, .delayed⟩ := by
      intro s₁ hparties
      have hupdate : s₁.build? = Function.update s.build? s.parties.length _ :=
        look_concat_set_of_none _ hparty rfl rfl hparties
      rw [hupdate, Function.update_self]
      rfl
    exact hbuilds rfl
  · refine ⟨⟨.building s.parties.length, false, some s.now, false⟩, ?_⟩
    exact (List.getElem?_modify_eq _ _ _).trans (congrArg _ hq)

/-! ## 2. The way to the answer -/

/-- A caller who has joined a build gets what that has come to, if it has time left. -/
theorem answer?_joining (hi : s.call? i = some c) (hc : c.stage = .joining allowance n)
    (hwish : c.wish = .ready) (hp : s.package? c.package = some p)
    (htime : allowance.budget.isExceeded s.now = false) (ho : s.outcome? n = some o) :
    ∃ s', s.act? (.move i) = some s' ∧ s'.answer? i = some (s.now, o.map .artifact) := by
  have hparty : s.parties[i]? = some (.call c) := call?_eq_some.mp hi
  have hopen := Budget.open?_of_isExceeded "package.ensure_ready" o htime
  refine ⟨s.afterOutcome i c allowance o, ?_, ?_⟩
  · rw [act?, hparty, Option.bind_some, move?, moveCall?, hp, hc]
    dsimp only [Option.bind_eq_bind, Option.bind_some]
    rw [ho, hopen]
  · have hcall : (s.afterOutcome i c allowance o).call? i =
        some { c with stage := c.after allowance s.now o } := by
      rw [afterOutcome_eq]
      exact call?_of_set hparty rfl
    rw [Call.after_ready hwish] at hcall
    rw [answer?, call?_eq_some.mp hcall]

/-- Nobody hinders a first demand that is made now: within a tick of the clock, which is not too long
for the caller, the build is due and has time, and the lock file can be opened and is free. -/
structure IsUnhindered (s : Site) (p : Package) (budget : Budget) (d : Duration) (tree : FileTree) :
    Prop where
  tick : Clock.hasFired (s.now + d) s.now = true
  patience : budget.isExceeded (s.now + d) = false
  time : 0 < p.options.buildTimeout
  opens : ∃ file, (FileAction.openFile (lockPath p.directory)).run s.tree = (.ok file, tree) ∧
    s.isHeld file = false

/-- The first part of such a demand: the caller joins a new build, which takes its locks. -/
def firstDemand (s : Site) (i : PartyId) (d : Duration) : List Act :=
  .move i :: .wait d :: List.replicate 5 (.move s.parties.length)

theorem package?_of_run (hrun : s.run? acts = some s') (hp : s.package? id = some p) :
    ∃ p', s'.package? id = some p' := by
  refine run?_preserves (P := fun s => ∃ p, s.package? id = some p) (fun hact hp => ?_) hrun ⟨p, hp⟩
  obtain ⟨p, hp⟩ := hp
  obtain ⟨p', hp', -⟩ := package?_act hact hp
  exact ⟨p', hp'⟩

/-- A new build has its locks and is about to read the marker; the caller has not moved since it set the
build out. -/
structure IsAtMarker (s : Site) (i : PartyId) (c : Call) (allowance : Budget.Allowance) (p : Package)
    (d : Duration) (tree : FileTree) (s₁ s₂ : Site) : Prop where
  sets : SetsOut s i c allowance s₁
  gets : ∃ l lock held, GetsTo (s₁.moveTo (s.now + d)) s.parties.length
    ⟨c.package, s.now, true, .delayed⟩ { p with lifecycle := l }
    (.restoring (.withTimeout (s.now + d) p.options.buildTimeout)) lock tree held s₂

theorem run?_firstDemand (hrun : (Site.empty epoch tree).run? acts = some s)
    (hi : s.call? i = some c) (hc : c.stage = .asking allowance) (hp : s.package? c.package = some p)
    (huntouched : Untouched ((Site.empty epoch tree).history acts) c.package)
    (hfree : s.IsUnhindered p allowance.budget d tree') :
    ∃ s₁ s₂, s.run? (s.firstDemand i d) = some s₂ ∧ IsAtMarker s i c allowance p d tree' s₁ s₂ := by
  obtain ⟨s₁, hact, hout⟩ := (ledger_of_run hrun).first hi hc hp huntouched
  obtain ⟨l, hp₁⟩ := hout.package p hp
  have hlock : p.lock = .lock := (custody_of_run hrun).lock_eq hp
    fun j st hst hid => not_untouched_of_standing? hrun hst hid huntouched
  obtain ⟨file, hopen, hnobody⟩ := hfree.opens
  -- what the site is like when the tick has come
  have hheld : (s₁.moveTo (s.now + d)).isHeld file = false := by
    rw [isHeld, show (s₁.moveTo (s.now + d)).held = s.held from hout.held]
    exact hnobody
  have htree : (s₁.moveTo (s.now + d)).tree = s.tree := hout.tree
  obtain ⟨s₂, hway, hgets⟩ := run?_restoring (s := s₁.moveTo (s.now + d)) hout.build rfl rfl
    hfree.tick hp₁ hfree.time hlock (htree ▸ hopen) hheld
  refine ⟨s₁, s₂, ?_, hout, l, _, _, hgets⟩
  rw [firstDemand, run?, hact, Option.bind_some, run?, act?, Option.bind_some, hout.now, hway]

/-- The first demand for a package in a directory that holds a build is answered with that build. -/
theorem IsAtMarker.answer? {s₁ s₂ : Site} (h : IsAtMarker s i c allowance p d tree' s₁ s₂)
    (hwish : c.wish = .ready)
    (hfree : s.IsUnhindered p allowance.budget d tree')
    (hholds : tree'.HoldsBuild p.directory rel builtAtMs) :
    ∃ s₃, s₂.run? (List.replicate 2 (.move s.parties.length) ++ [.move i]) = some s₃ ∧
      s₃.answer? i = some (s.now + d, .ok (.artifact
        ⟨p.directory.join (Path.noted p.directory rel), builtAtMs * Clock.milli, true⟩)) := by
  obtain ⟨l, lock, held, hgets⟩ := h.gets
  have hbuild : (s₁.moveTo (s.now + d)).build? s.parties.length =
      some ⟨c.package, s.now, true, .delayed⟩ := h.sets.build
  obtain ⟨s₃, hway, hnow, hcalls, hended⟩ := hgets.ended hbuild hholds
  have hjoins : s₃.call? i = some { c with stage := .joining allowance s.parties.length } :=
    hcalls ▸ h.sets.call
  obtain ⟨p₃, hp₃⟩ := package?_of_run hway hgets.package
  have hpatience : allowance.budget.isExceeded s₃.now = false := hnow ▸ hfree.patience
  obtain ⟨s₄, hlast, hanswer⟩ := answer?_joining hjoins rfl hwish hp₃ hpatience hended
  rw [hnow] at hanswer
  refine ⟨s₄, ?_, hanswer⟩
  rw [run?_concat, hway, Option.bind_some, hlast]

/-- If the directory holds nothing to take over, the new build calls its builder. -/
theorem IsAtMarker.working {s₁ s₂ : Site} (h : IsAtMarker s i c allowance p d tree' s₁ s₂)
    (htime : 0 < p.options.buildTimeout) (hlacks : tree'.LacksBuild p.directory) {log : BuilderLog}
    (hlog : s.builders[p.builder]? = some log) :
    ∃ s₃, s₂.run? (List.replicate 3 (.move s.parties.length)) = some s₃ ∧
      s₃.builders = s.builders.set p.builder { log with starts := log.starts ++ [s.now + d] } := by
  obtain ⟨l, lock, held, hgets⟩ := h.gets
  rw [← h.sets.builders] at hlog ⊢
  have hbuild : (s₁.moveTo (s.now + d)).build? s.parties.length =
      some ⟨c.package, s.now, true, .delayed⟩ := h.sets.build
  obtain ⟨s₃, hway, -, hlogs⟩ :=
    hgets.working hbuild hlacks (isExceeded_withTimeout _ htime) hlog
  exact ⟨s₃, hway, hlogs⟩

end Site

end Playground
