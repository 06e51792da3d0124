import Playground.Proofs.Site.Event
import Playground.Proofs.Site.SingleFlight
/-!
# No rebuild is lost, and none is spurious

A demand makes a new build exactly when the record asks for one: there has never been a build, or
the package is settled and an invalidation has been accepted since the last build was scheduled.
The flags of a package say just that, whatever callers, invalidations, builds and time do meanwhile.
-/

namespace Playground

variable {log : List Event} {event : Option Event} {id : PackageId} {n : BuildId}
  {rebuild : Rebuild} {l : Lifecycle} {o : Outcome}

/-- What the record says a demand for a package in a state has to do: there has never been a build,
or the last one is settled and an invalidation has been accepted since it was scheduled. -/
def Due (log : List Event) (id : PackageId) (state : PackageState) : Prop :=
  Unscheduled log id ∨ (state = .ready ∨ state = .faulted) ∧ Stale log id

/-! ## 1. What a package keeps on record -/

/-- How the flags and the phase of a package reflect the record. -/
structure Records (log : List Event) (id : PackageId) (rebuild : Rebuild) (l : Lifecycle) :
    Prop where
  dirty : l.dirty = true ↔ Stale log id
  mayRestore : l.mayRestore = true ↔ Untouched log id
  unscheduled : Unscheduled log id → l.phase = .notReady ∧ l.lastStart = none
  /-- A package with a build behind it falls back only if the clock is too short for the next. -/
  notReady : l.phase = .notReady → l.OnClock rebuild → Unscheduled log id
  never : rebuild = .never → l.dirty = true → l.phase.state = .faulted

theorem Lifecycle.onClock_never (l : Lifecycle) : l.OnClock .never := by
  intro window last h
  cases h

namespace Records

theorem fresh (h : Untouched log id) : Records log id rebuild .fresh where
  dirty := ⟨fun hdirty => absurd hdirty Bool.false_ne_true, fun hstale => absurd hstale h.not_stale⟩
  mayRestore := iff_of_true rfl h
  unscheduled _ := ⟨rfl, rfl⟩
  notReady _ _ := h.unscheduled
  never _ hdirty := absurd hdirty Bool.false_ne_true

/-- What happens to other packages makes no difference. -/
theorem other (h : Records log id rebuild l) (hevent : ∀ e, event = some e → e.package ≠ id) :
    Records (log ++ event.toList) id rebuild l := by
  cases event with
  | none =>
    rw [Option.toList_none, List.append_nil]
    exact h
  | some e =>
    -- an event of another package neither schedules a build of this one nor invalidates it
    have he : e.package ≠ id := hevent e rfl
    have hscheduled : ∀ n, e ≠ .scheduled id n := by
      rintro n rfl
      exact he rfl
    have hinvalidated : e ≠ .invalidated id := by
      rintro rfl
      exact he rfl
    rw [Option.toList_some]
    constructor
    · rw [stale_concat, h.dirty]
      exact ⟨fun hstale => .inr ⟨hstale, hscheduled⟩,
        fun hstale => (hstale.resolve_left hinvalidated).1⟩
    · rw [untouched_concat, h.mayRestore]
      exact (and_iff_left he).symm
    · exact fun hnone => h.unscheduled (unscheduled_concat.mp hnone).1
    · exact fun hphase hclock => unscheduled_concat.mpr ⟨h.notReady hphase hclock, hscheduled⟩
    · exact h.never

theorem schedule (log : List Event) (id : PackageId) (n : BuildId) (rebuild : Rebuild)
    (start : Instant) :
    Records (log ++ [.scheduled id n]) id rebuild ⟨.building n, false, some start, false⟩ where
  dirty := by
    rw [stale_concat]
    refine ⟨fun hdirty => absurd hdirty Bool.false_ne_true, ?_⟩
    rintro (h | ⟨-, h⟩)
    · cases h
    · exact absurd rfl (h n)
  mayRestore := iff_of_false Bool.false_ne_true fun h => (untouched_concat.mp h).2 rfl
  unscheduled h := absurd rfl ((unscheduled_concat.mp h).2 n)
  notReady h := by cases h
  never _ hdirty := absurd hdirty Bool.false_ne_true

theorem publish (h : Records log id rebuild l) (hphase : l.phase = .building n) (o : Outcome) :
    Records log id rebuild (l.publish o) := by
  have hflags : (l.publish o).dirty = l.dirty ∧ (l.publish o).mayRestore = l.mayRestore := by
    cases o <;> exact ⟨rfl, rfl⟩
  constructor
  · rw [hflags.1]
    exact h.dirty
  · rw [hflags.2]
    exact h.mayRestore
  · intro hnone
    cases hphase.symm.trans (h.unscheduled hnone).1
  · intro hnone
    rw [Lifecycle.publish_phase] at hnone
    cases o <;> cases hnone
  · -- a package that is never rebuilt refuses invalidations while it is built
    intro hnever hdirty
    rw [hflags.1] at hdirty
    have hstate := h.never hnever hdirty
    rw [hphase] at hstate
    cases hstate

theorem stick (h : Records log id rebuild l) (hclock : ¬ l.OnClock rebuild) :
    Records log id rebuild { l with phase := .notReady } where
  dirty := h.dirty
  mayRestore := h.mayRestore
  unscheduled hnone := ⟨rfl, (h.unscheduled hnone).2⟩
  notReady _ h := absurd h hclock
  never hnever := by
    rw [hnever] at hclock
    exact absurd l.onClock_never hclock

theorem invalidate (h : Records log id rebuild l)
    (haccepts : rebuild = .never → l.phase.state = .faulted) :
    Records (log ++ [.invalidated id]) id rebuild
      { l with dirty := true, mayRestore := false } where
  dirty := by
    rw [stale_concat]
    exact ⟨fun _ => .inl rfl, fun _ => rfl⟩
  mayRestore := iff_of_false Bool.false_ne_true fun h => (untouched_concat.mp h).2 rfl
  unscheduled hnone := h.unscheduled (unscheduled_concat.mp hnone).1
  notReady hphase hclock := by
    refine unscheduled_concat.mpr ⟨h.notReady hphase hclock, fun n he => ?_⟩
    cases he
  never hnever _ := haccepts hnever

theorem isDue_iff (h : Records log id rebuild l) (hclock : l.OnClock rebuild) :
    l.IsDue ↔ Due log id l.phase.state := by
  constructor
  · intro hdue
    cases hphase : l.phase with
    | notReady => exact .inl (h.notReady hphase hclock)
    | building n => exact absurd hphase (hdue.idle n)
    | ready a => exact .inr ⟨.inl rfl, h.dirty.mp (hdue.stale (.ok a) (by rw [hphase]; rfl))⟩
    | faulted e => exact .inr ⟨.inr rfl, h.dirty.mp (hdue.stale (.error e) (by rw [hphase]; rfl))⟩
  · rintro (hnone | ⟨hstate, hstale⟩)
    -- nobody has asked yet, or the package is settled and so in no build
    · have hphase := (h.unscheduled hnone).1
      refine ⟨fun n hn => ?_, fun o ho => ?_⟩
      · cases hphase.symm.trans hn
      · rw [hphase] at ho
        cases ho
    · refine ⟨fun n hn => ?_, fun _ _ => h.dirty.mpr hstale⟩
      rw [hn] at hstate
      rcases hstate with hstate | hstate <;> cases hstate

end Records

namespace Site

variable {start s s' : Site} {a : Act} {acts : List Act} {i : PartyId} {m : BuildId} {b : Build}
  {c : Call} {p : Package}

/-! ## 2. The ledger -/

/-- The package that a build is of. -/
def origin? (s : Site) (n : BuildId) : Option PackageId := (s.build? n).map (·.package)

/-- How a site reflects the record of the run that led to it. -/
structure Ledger (s : Site) (log : List Event) : Prop where
  known : ∀ e ∈ log, e.package < s.lives.length
  builds : ∀ id n, .scheduled id n ∈ log ↔ s.origin? n = some id
  packages : ∀ id p, s.package? id = some p → Records log id p.options.rebuild p.lifecycle
  honest : ∀ n b, s.build? n = some b → b.IsHonest ∧ (b.restore = true ↔ Opens log b.package n)

theorem origin?_of_builds (h : s'.build? = s.build?) : s'.origin? = s.origin? := by
  funext m
  rw [origin?, h]
  rfl

theorem origin?_update (h : s'.build? = Function.update s.build? n (some b)) :
    s'.origin? = Function.update s.origin? n (some b.package) := by
  funext m
  rw [origin?, h, Function.update_apply, Function.update_apply]
  split <;> rfl

/-- A build that goes on is a build of the same package. -/
theorem origin?_of_stage {stage : BuildStage} (hn : s.build? n = some b)
    (h : s'.build? = Function.update s.build? n (some { b with stage })) :
    s'.origin? = s.origin? := by
  rw [origin?_update h, Function.update_eq_self_iff, origin?, hn]
  rfl

namespace Ledger

theorem empty (epoch : Nat) (tree : FileTree) : Ledger (.empty epoch tree) [] where
  known e he := by cases he
  builds id n := by
    refine ⟨fun he => ?_, fun hn => ?_⟩
    · cases he
    · cases hn
  packages id p hp := by cases hp
  honest n b hb := by cases hb

/-- An act on one package leaves the records of all others in order. -/
theorem packages_modify {f : Lifecycle → Lifecycle} (hl : Ledger s log) (h : s.act? a = some s')
    (hlives : s'.lives = s.lives.modify id f) (hevent : ∀ e, event = some e → e.package = id)
    (hstep : ∀ p, s.package? id = some p → Records log id p.options.rebuild p.lifecycle →
      Records (log ++ event.toList) id p.options.rebuild (f p.lifecycle))
    (k : PackageId) (p : Package) (hp : s'.package? k = some p) :
    Records (log ++ event.toList) k p.options.rebuild p.lifecycle := by
  obtain ⟨p₀, hp₀, hoptions, hlifecycle⟩ := package?_of_modify (act?_plans h) hlives hp
  rw [hoptions, hlifecycle]
  have hrecords := hl.packages k p₀ hp₀
  -- the package is the one that the act is on, or its lifecycle is as before
  split
  · rename_i heq
    subst heq
    exact hstep p₀ hp₀ hrecords
  · rename_i hne
    exact hrecords.other fun e he hk => hne ((hevent e he).symm.trans hk)

theorem packages_keep (hl : Ledger s log) (h : s.act? a = some s') (hlives : s'.lives = s.lives)
    (k : PackageId) (p : Package) (hp : s'.package? k = some p) :
    Records (log ++ (none : Option Event).toList) k p.options.rebuild p.lifecycle := by
  have hmodify : s'.lives = s.lives.modify k fun l => l :=
    hlives.trans (List.modify_id k s.lives).symm
  refine hl.packages_modify h hmodify ?_ ?_ k p hp
  · intro e he
    cases he
  · intro p _ hrecords
    rw [Option.toList_none, List.append_nil]
    exact hrecords

theorem packages_act (hs : Sound s) (hl : Ledger s log) (h : s.act? a = some s') (k : PackageId)
    (p : Package) (hp : s'.package? k = some p) :
    Records (log ++ (s.event? a).toList) k p.options.rebuild p.lifecycle := by
  have hnone : ∀ id e, (none : Option Event) = some e → e.package = id := by
    intro id e he
    cases he
  cases act?_change h with
  | keep hevent hbuilds hlives =>
    rw [hevent]
    exact hl.packages_keep h hlives k p hp
  | found hevent hbuilds hlives =>
    rw [hevent, Option.toList_none, List.append_nil]
    have hl' : s'.lives[k]? = some p.lifecycle := by rw [lives_getElem?, hp]; rfl
    rw [hlives, getElem?_concat] at hl'
    split at hl'
    · -- the new package: the record has nothing on it
      rename_i hk
      rw [← Option.some.inj hl']
      exact .fresh fun e he hid => Nat.lt_irrefl _ (hk ▸ hid ▸ hl.known e he)
    · rename_i hk
      obtain ⟨p₀, hp₀, hoptions⟩ :=
        package?_before (act?_plans h) (List.getElem?_eq_some_iff.mp hl').1 hp
      rw [lives_getElem?, hp₀] at hl'
      rw [hoptions, ← Option.some.inj hl']
      exact hl.packages k p₀ hp₀
  | work n b stage hn hhonest hevent hbuilds hlives =>
    rw [hevent]
    exact hl.packages_keep h hlives k p hp
  | settle n b o hn hopen hhonest hevent hbuilds hlives =>
    rw [hevent]
    refine hl.packages_modify h hlives (hnone _) (fun p₀ hp₀ hrecords => ?_) k p hp
    -- the package is in the phase of the build that settles it
    have hphase := (hs.building b.package n).mpr ⟨b, hn, rfl, hopen⟩
    rw [phase?, lives_getElem?, hp₀] at hphase
    rw [Option.toList_none, List.append_nil]
    exact hrecords.publish (Option.some.inj hphase) o
  | schedule id p₀ start hp₀ hdue hclock hevent hbuilds hlives =>
    rw [hevent]
    refine hl.packages_modify h hlives ?_ (fun _ _ _ => .schedule ..) k p hp
    rintro _ ⟨⟩
    rfl
  | stick id p₀ hp₀ hclock hevent hbuilds hlives =>
    rw [hevent]
    refine hl.packages_modify h hlives (hnone _) (fun p hp hrecords => ?_) k p hp
    rw [hp₀] at hp
    rw [Option.toList_none, List.append_nil]
    exact hrecords.stick (Option.some.inj hp ▸ hclock)
  | invalidate id p₀ hp₀ haccepts hevent hbuilds hlives =>
    rw [hevent]
    refine hl.packages_modify h hlives ?_ (fun p hp hrecords => ?_) k p hp
    · rintro _ ⟨⟩
      rfl
    · rw [hp₀] at hp
      exact hrecords.invalidate (Option.some.inj hp ▸ haccepts)

theorem known_act (hl : Ledger s log) (h : s.act? a = some s') (e : Event)
    (he : e ∈ log ++ (s.event? a).toList) : e.package < s'.lives.length := by
  have hlength : s.lives.length ≤ s'.lives.length := by
    rw [← length_plans, ← length_plans]
    exact (act?_plans h).length_le
  refine Nat.lt_of_lt_of_le ?_ hlength
  rcases List.mem_append.mp he with he | he
  · exact hl.known e he
  · rw [Option.mem_toList] at he
    cases act?_change h with
    | schedule id p start hp _ _ hevent =>
      rw [← Option.some.inj (hevent.symm.trans he)]
      exact lt_length_lives hp
    | invalidate id p hp _ hevent =>
      rw [← Option.some.inj (hevent.symm.trans he)]
      exact lt_length_lives hp
    | keep hevent => cases hevent.symm.trans he
    | found hevent => cases hevent.symm.trans he
    | work _ _ _ _ _ hevent => cases hevent.symm.trans he
    | settle _ _ _ _ _ _ hevent => cases hevent.symm.trans he
    | stick _ _ _ _ hevent => cases hevent.symm.trans he

theorem builds_act (hl : Ledger s log) (h : s.act? a = some s') (id : PackageId) (m : BuildId) :
    .scheduled id m ∈ log ++ (s.event? a).toList ↔ s'.origin? m = some id := by
  have hquiet : s'.origin? = s.origin? → s.event? a = none →
      (.scheduled id m ∈ log ++ (s.event? a).toList ↔ s'.origin? m = some id) := by
    intro horigin hevent
    rw [hevent, horigin, Option.toList_none, List.append_nil]
    exact hl.builds id m
  cases act?_change h with
  | keep hevent hbuilds => exact hquiet (origin?_of_builds hbuilds) hevent
  | found hevent hbuilds => exact hquiet (origin?_of_builds hbuilds) hevent
  | work n b stage hn _ hevent hbuilds => exact hquiet (origin?_of_stage hn hbuilds) hevent
  | settle n b o hn _ _ hevent hbuilds => exact hquiet (origin?_of_stage hn hbuilds) hevent
  | stick _ _ _ _ hevent hbuilds => exact hquiet (origin?_of_builds hbuilds) hevent
  | schedule id' p start hp hdue hclock hevent hbuilds =>
    -- the number of the new build is the next one, which no build has had so far
    have hnone : s.origin? s.parties.length = none := by
      rw [origin?, build?, look_of_length_le _ (Nat.le_refl _)]
      rfl
    rw [hevent, Option.toList_some, List.mem_append, List.mem_singleton, hl.builds,
      origin?_update hbuilds, Function.update_apply]
    split
    · rename_i hm
      subst hm
      rw [hnone]
      simp [eq_comm]
    · rename_i hm
      simp [hm]
  | invalidate id' p hp _ hevent hbuilds =>
    rw [hevent, Option.toList_some, List.mem_append, List.mem_singleton,
      origin?_of_builds hbuilds, ← hl.builds]
    simp

theorem honest_act (hl : Ledger s log) (h : s.act? a = some s') (m : BuildId) (b : Build)
    (hb : s'.build? m = some b) : b.IsHonest ∧
      (b.restore = true ↔ Opens (log ++ (s.event? a).toList) b.package m) := by
  cases (act?_change h).build hb with
  | stay b₀ stage hb₀ hhonest =>
    -- a build that goes on has been told when it was scheduled whether it may restore
    obtain ⟨hhonest₀, hopens⟩ := hl.honest m b₀ hb₀
    have hm : .scheduled b₀.package m ∈ log := (hl.builds _ m).mpr (by rw [origin?, hb₀]; rfl)
    exact ⟨hhonest hhonest₀, hopens.trans (opens_append_iff hm _).symm⟩
  | schedule id p start hp hdue hclock hevent hm =>
    -- the new build may restore only if nothing has happened to its package yet
    have hnew : .scheduled id m ∉ log := by
      rw [hl.builds, origin?, build?, look_of_length_le _ (Nat.le_of_eq hm.symm)]
      exact nofun
    rw [hevent]
    exact ⟨trivial, ((hl.packages id p hp).mayRestore).trans (opens_concat_iff hnew).symm⟩

theorem act (hs : Sound s) (hl : Ledger s log) (h : s.act? a = some s') :
    Ledger s' (log ++ (s.event? a).toList) where
  known := hl.known_act h
  builds := hl.builds_act h
  packages := hl.packages_act hs h
  honest := hl.honest_act h

end Ledger

/-- Every run that begins on an empty site keeps its ledger. -/
theorem ledger_of_run {epoch : Nat} {tree : FileTree}
    (hrun : (Site.empty epoch tree).run? acts = some s) :
    Ledger s ((Site.empty epoch tree).history acts) := by
  refine run?_induction (P := fun acts s => Ledger s ((Site.empty epoch tree).history acts))
    (.empty epoch tree) (fun {acts s a s'} hrun h hl => ?_) hrun
  rw [history_concat hrun]
  exact hl.act (sound_of_run hrun) h

/-! ## 3. Packages that are never rebuilt -/

/-- The package is never rebuilt, and ready with an artifact. -/
def Keeps (s : Site) (id : PackageId) (artifact : Artifact) : Prop :=
  ∃ p, s.package? id = some p ∧ p.options.rebuild = .never ∧
    p.lifecycle.phase = .ready artifact ∧ p.lifecycle.dirty = false

theorem Keeps.act {artifact : Artifact} (hs : Sound s) (h : s.act? a = some s')
    (hkeeps : s.Keeps id artifact) : s'.Keeps id artifact := by
  obtain ⟨p, hp, hnever, hphase, hclean⟩ := hkeeps
  obtain ⟨p', hp', hoptions⟩ := package?_act h hp
  refine ⟨p', hp', hoptions ▸ hnever, ?_⟩
  have hlife := (act?_change h).life (act?_plans h) hp hp'
  generalize p'.lifecycle = l at hlife
  cases hlife with
  | keep => exact ⟨hphase, hclean⟩
  | settle n o hflies =>
    -- a package that is settled has no build in flight
    have hbuilding := (hs.building id n).mpr hflies
    rw [phase?, lives_getElem?, hp] at hbuilding
    cases hphase.symm.trans (Option.some.inj hbuilding)
  | schedule start hdue =>
    have hdirty := hdue.stale (.ok artifact) (by rw [hphase]; rfl)
    cases hclean.symm.trans hdirty
  | stick hclock =>
    rw [hnever] at hclock
    exact absurd p.lifecycle.onClock_never hclock
  | invalidate haccepts =>
    have hfaulted := haccepts hnever
    rw [Package.state, hphase] at hfaulted
    cases hfaulted

/-- A caller who asks for a settled package gets at once what it is settled with. -/
theorem act?_asking_settled {allowance : Budget.Allowance} (hi : s.call? i = some c)
    (hc : c.stage = .asking allowance) (hp : s.package? c.package = some p)
    (ho : p.lifecycle.phase.outcome? = some o) (hclean : p.lifecycle.dirty = false) :
    ∃ s', s.act? (.move i) = some s' ∧
      s'.call? i = some { c with stage := c.after allowance s.now o } := by
  have hdemand : p.lifecycle.demand p.options.rebuild s.now s.parties.length =
      (p.lifecycle, .settled o) := Lifecycle.demand_of_settled ho hclean _ _
  have hparties : (answerDemand i c allowance (s.demand c.package p)).parties =
      s.parties.set i (.call { c with stage := c.after allowance s.now o }) := by
    rw [demand, hdemand, answerDemand, afterOutcome_eq]
    rfl
  refine ⟨_, act?_asking hi hc hp, ?_⟩
  rw [call?, look_set _ (call?_eq_some.mp hi) hparties, Function.update_self]
  rfl

/-! ## 4. Rebuilding -/

/-- What a run from `start` to `s` says about rebuilding. -/
structure Rebuilding (start : Site) (acts : List Act) (s : Site) : Prop where
  /-- The builds of a package are those that have been scheduled. -/
  builds : ∀ id n, .scheduled id n ∈ start.history acts ↔
    ∃ b, s.build? n = some b ∧ b.package = id
  /-- A caller who asks makes a new build exactly if one is due.  Only a build that could not start
  before the end of the clock is not made. -/
  schedules : ∀ i c allowance p, s.call? i = some c → c.stage = .asking allowance →
    s.package? c.package = some p → ∃ s', s.act? (.move i) = some s' ∧
      ((∃ n b, s.build? n = none ∧ s'.build? n = some b ∧ b.package = c.package) ↔
        Due (start.history acts) c.package p.state ∧ p.lifecycle.OnClock p.options.rebuild)
  /-- An invalidation is accepted exactly if builds of the package are throttled or the last one has
  failed. -/
  accepts : ∀ id p, s.package? id = some p →
    ((s.invalidate id p).2 = true ↔
      (∃ window, p.options.rebuild = .throttled window) ∨ p.state = .faulted)
  /-- A package that is never rebuilt answers with the same artifact from when it is ready. -/
  keeps : ∀ id p artifact, s.package? id = some p → p.options.rebuild = .never →
    p.lifecycle.phase = .ready artifact → ∀ rest s', s.run? rest = some s' →
      s'.phase? id = some (.ready artifact) ∧
      ∀ i c allowance, s'.call? i = some c → c.package = id → c.stage = .asking allowance →
        ∃ s'', s'.act? (.move i) = some s'' ∧
          s''.call? i = some { c with stage := c.after allowance s'.now (.ok artifact) }
  /-- Only the first build of a package can come to a restored artifact, and only if no invalidation
  had been accepted when it was scheduled. -/
  restores : ∀ n artifact, s.published? n = some (.ok artifact) → artifact.restored = true →
    ∃ b, s.build? n = some b ∧ Opens (start.history acts) b.package n

/-- A caller who asks makes a new build exactly if the record says that one is due. -/
theorem Ledger.schedules {allowance : Budget.Allowance} (hl : Ledger s log)
    (hi : s.call? i = some c) (hc : c.stage = .asking allowance)
    (hp : s.package? c.package = some p) : ∃ s', s.act? (.move i) = some s' ∧
      ((∃ n b, s.build? n = none ∧ s'.build? n = some b ∧ b.package = c.package) ↔
        Due log c.package p.state ∧ p.lifecycle.OnClock p.options.rebuild) := by
  have hact := act?_asking hi hc hp
  have hbuilds := hl.builds_act hact c.package
  refine ⟨_, hact, ?_⟩
  have hdue : p.lifecycle.IsDue ∧ p.lifecycle.OnClock p.options.rebuild ↔
      Due log c.package p.state ∧ p.lifecycle.OnClock p.options.rebuild :=
    and_congr_left fun hclock => (hl.packages _ p hp).isDue_iff hclock
  rw [← hdue]
  rcases event?_asking hi hc hp with ⟨hdue, hevent⟩ | ⟨hdue, hevent⟩
  · refine iff_of_true ?_ hdue
    rw [hevent] at hbuilds
    obtain ⟨b, hb, hid⟩ := Option.map_eq_some_iff.mp ((hbuilds _).mp List.mem_concat_self)
    exact ⟨s.parties.length, b, look_of_length_le _ (Nat.le_refl _), hb, hid⟩
  · refine iff_of_false ?_ hdue
    rintro ⟨n, b, hnone, hb, hid⟩
    -- a new build would be on the record, which has not grown
    have hn := (hbuilds n).mpr (by rw [origin?, hb, ← hid]; rfl)
    rw [hevent, Option.toList_none, List.append_nil, hl.builds, origin?, hnone] at hn
    cases hn

theorem Ledger.keeps {artifact : Artifact} (hs : Sound s) (hl : Ledger s log)
    (hp : s.package? id = some p) (hnever : p.options.rebuild = .never)
    (hphase : p.lifecycle.phase = .ready artifact) {rest : List Act}
    (hrest : s.run? rest = some s') : s'.Keeps id artifact := by
  have hclean : p.lifecycle.dirty = false := by
    -- only a failure lets such a package accept an invalidation
    refine eq_false_of_ne_true fun hdirty => ?_
    have hfaulted := (hl.packages id p hp).never hnever hdirty
    rw [hphase] at hfaulted
    cases hfaulted
  have hlast : Sound s' ∧ s'.Keeps id artifact :=
    run?_preserves (P := fun s => Sound s ∧ s.Keeps id artifact)
      (fun hact h => ⟨h.1.act hact, h.2.act h.1 hact⟩) hrest ⟨hs, p, hp, hnever, hphase, hclean⟩
  exact hlast.2

theorem invalidate_snd (s : Site) (id : PackageId) (p : Package) :
    (s.invalidate id p).2 = true ↔
      (∃ window, p.options.rebuild = .throttled window) ∨ p.state = .faulted := by
  have haccepts : (s.invalidate id p).2 = true ↔
      (p.options.rebuild = .never → p.state = .faulted) := by
    by_cases h : p.options.rebuild = .never → p.state = .faulted
    · rw [invalidate, Lifecycle.invalidate_of_accepts h]
      exact iff_of_true rfl h
    · rw [invalidate, Lifecycle.invalidate_of_refuses h]
      exact iff_of_false Bool.false_ne_true h
  rw [haccepts]
  cases p.options.rebuild with
  | throttled window => simp
  | never => simp

/-- A package is built, and invalidated twice while it is.  The build is dropped, and the next
demand makes one more build, in which a second caller has to wait. -/
def invalidatedRun : List Act :=
  let terms : Budget.Terms := ⟨none, false, none⟩
  [.provide fun _ _ => ⟨none, fun t => (.broken, t)⟩, .found "p" "p" 0 .standard,
    .come 0 0 terms .ready, .move 0, .move 0, .invalidate 0, .invalidate 0, .drop 1, .move 1,
    .come 0 0 terms .ready, .move 2, .move 2, .come 0 0 terms .ready, .move 4, .move 4]

end Site

end Playground
