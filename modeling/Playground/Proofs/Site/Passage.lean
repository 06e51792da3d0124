import Playground.Proofs.Site.Event
/-!
# What outlasts the steps of a site

A site goes on by its own acts and by demands from outside.  Either step is read here as a passage,
that is, as a change of the builds and the lifecycles together with the event that it is.  Packages,
builds and what these came to outlast all passages.  So does a package that a build has settled, as
long as nobody invalidates it.
-/

namespace Playground

/-- The event that a demand for a package is. -/
def Demand.event? (id : PackageId) : Demand → Option Event
  | scheduled n _ _ => some (.scheduled id n)
  | _ => none

theorem Demand.event?_ne_invalidated (demand : Demand) (id id' : PackageId) :
    demand.event? id ≠ some (.invalidated id') := by
  intro h
  cases demand <;> cases h

namespace Site

variable {s s' s'' : Site} {a : Act} {event : Option Event} {id : PackageId} {n : BuildId}
  {p : Package} {b : Build} {o : Outcome}

/-! ## 1. Passages -/

/-- What a step changes about the builds and the packages, with its event. -/
structure Passage (s : Site) (event : Option Event) (s' : Site) : Prop where
  builds : BuildsEffect s s'
  shift : Shift s event s'
  plans : s.plans <+: s'.plans

theorem Passage.refl (s : Site) : Passage s none s :=
  ⟨.keep rfl rfl, .keep rfl rfl rfl, List.prefix_refl _⟩

theorem Passage.act (h : s.act? a = some s') : Passage s (s.event? a) s' :=
  ⟨act?_builds h, act?_change h, act?_plans h⟩

/-- The site with another lifecycle of one package. -/
def withLife (s : Site) (id : PackageId) (lifecycle : Lifecycle) : Site :=
  s.updatePackage id fun p => { p with lifecycle }

theorem lives_withLife (s : Site) (id : PackageId) (lifecycle : Lifecycle) :
    (s.withLife id lifecycle).lives = s.lives.modify id fun _ => lifecycle :=
  lives_updatePackage s id fun _ => rfl

/-- What a demand does, and what it leads to. -/
inductive DemandForm (s : Site) (id : PackageId) (p : Package) : Site × Demand → Prop where
  | settled (o : Outcome) (ho : p.lifecycle.phase.outcome? = some o)
      (hclean : p.lifecycle.dirty = false) :
      DemandForm s id p (s.withLife id p.lifecycle, .settled o)
  | joined (n : BuildId) (hn : p.lifecycle.phase = .building n) :
      DemandForm s id p (s.withLife id p.lifecycle, .joined n)
  | scheduled (start : Instant) (hdue : p.lifecycle.IsDue)
      (hclock : p.lifecycle.OnClock p.options.rebuild) :
      DemandForm s id p
        (((s.withLife id ⟨.building s.parties.length, false, some start, false⟩).addParty
          (.build ⟨id, start, p.lifecycle.mayRestore, .delayed⟩)).1,
        .scheduled s.parties.length start p.lifecycle.mayRestore)
  | offTheClock (hdue : p.lifecycle.IsDue) (hclock : ¬ p.lifecycle.OnClock p.options.rebuild) :
      DemandForm s id p (s.withLife id { p.lifecycle with phase := .notReady }, .offTheClock)

theorem demandForm (s : Site) (id : PackageId) (p : Package) :
    DemandForm s id p (s.demand id p) := by
  by_cases hdue : p.lifecycle.IsDue
  · by_cases hclock : p.lifecycle.OnClock p.options.rebuild
    · obtain ⟨start, h⟩ := Lifecycle.demand_of_onClock hdue hclock s.now s.parties.length
      rw [demand, h]
      exact .scheduled start hdue hclock
    · rw [demand, Lifecycle.demand_of_not_onClock hdue hclock s.now s.parties.length]
      exact .offTheClock hdue hclock
  · have hresult := p.lifecycle.demandResult_demand p.options.rebuild s.now s.parties.length
    unfold demand
    generalize p.lifecycle.demand p.options.rebuild s.now s.parties.length = d at hresult ⊢
    cases hresult with
    | settled o ho hclean => exact .settled o ho hclean
    | joined n hn => exact .joined n hn
    | scheduled start h => exact absurd h hdue
    | offTheClock h => exact absurd h hdue

/-- A demand that comes from outside does to the package what a caller's does. -/
theorem Passage.of_demand (hp : s.package? id = some p) :
    Passage s ((s.demand id p).2.event? id) (s.demand id p).1 := by
  have hplans : s.plans <+: (s.demand id p).1.plans := plans_demand s id p ▸ List.prefix_refl _
  have hform := s.demandForm id p
  have hidle : p.lifecycle.IsDue → ∀ m, s.phase? id ≠ some (.building m) := by
    intro hdue m hphase
    rw [phase?, lives_getElem?, hp] at hphase
    exact hdue.idle m (Option.some.inj hphase)
  -- a demand that changes nothing writes the lifecycle back all the same
  have hback : (s.withLife id p.lifecycle).lives = s.lives :=
    (lives_withLife s id _).trans (lives_modify_self hp)
  have hphase : ∀ l, (s.withLife id l).phase? = Function.update s.phase? id (some l.phase) :=
    fun l => phase?_modify_of_lt (lt_length_lives hp) (fun _ => rfl) (lives_withLife s id l)
  generalize s.demand id p = d at hplans hform ⊢
  cases hform with
  | settled o ho hclean => exact ⟨.keep rfl (phase?_of_lives hback), .keep rfl rfl hback, hplans⟩
  | joined n hn => exact ⟨.keep rfl (phase?_of_lives hback), .keep rfl rfl hback, hplans⟩
  | scheduled start hdue hclock =>
    have hparties : ∀ l b, ((s.withLife id l).addParty (.build b)).1.parties =
        s.parties ++ [.build b] := fun _ _ => rfl
    refine ⟨.schedule s.parties.length _ (fun m => look_of_length_le _) rfl (hidle hdue)
      (look_concat _ (hparties _ _)) (hphase _) rfl, ?_, hplans⟩
    exact .schedule id p start hp hdue hclock rfl (look_concat _ (hparties _ _))
      (lives_withLife s id _)
  | offTheClock hdue hclock =>
    refine ⟨.reset id (hidle hdue) rfl (hphase _), .stick id p hp hclock rfl rfl ?_ hdue, hplans⟩
    exact (lives_withLife s id _).trans
      (lives_modify_const hp fun l => { l with phase := .notReady })

/-- Callers take no notice of a demand from outside. -/
theorem call?_demand (s : Site) (id : PackageId) (p : Package) :
    (s.demand id p).1.call? = s.call? := by
  have hform := s.demandForm id p
  generalize s.demand id p = d at hform ⊢
  cases hform with
  | scheduled => exact look_concat_of_none _ rfl rfl
  | _ => exact look_of_eq _ rfl

/-! ## 2. What outlasts passages -/

theorem BuildsEffect.build? (h : BuildsEffect s s') (hb : s.build? n = some b) :
    ∃ b', s'.build? n = some b' ∧ b'.package = b.package := by
  have hstage : ∀ {m b₀ stage}, s.build? m = some b₀ →
      s'.build? = Function.update s.build? m (some { b₀ with stage }) →
      ∃ b', s'.build? n = some b' ∧ b'.package = b.package := by
    intro m b₀ stage hm hbuilds
    rw [hbuilds, Function.update_apply]
    split
    · rename_i heq
      rw [heq, hm] at hb
      exact ⟨_, rfl, by rw [← Option.some.inj hb]⟩
    · exact ⟨b, hb, rfl⟩
  cases h with
  | keep hbuilds _ => exact ⟨b, hbuilds ▸ hb, rfl⟩
  | work m b₀ stage hm _ _ hbuilds _ => exact hstage hm hbuilds
  | settle m b₀ o hm _ _ hbuilds _ => exact hstage hm hbuilds
  | tell m b₀ o hm _ hbuilds _ => exact hstage hm hbuilds
  | schedule m b₀ hm _ _ hbuilds _ =>
    have hne : n ≠ m := by
      rintro rfl
      rw [hm n (Nat.le_refl _)] at hb
      cases hb
    exact ⟨b, by rw [hbuilds, Function.update_of_ne hne, hb], rfl⟩
  | reset _ _ hbuilds _ => exact ⟨b, hbuilds ▸ hb, rfl⟩

/-- The next build of the package could not start on the clock. -/
def OffClock (s : Site) (id : PackageId) : Prop :=
  ∃ p, s.package? id = some p ∧ ¬ p.lifecycle.OnClock p.options.rebuild

/-- What the first of two sites has, the second has as well. -/
structure Outlasts (s s' : Site) : Prop where
  packages : ∀ {id p}, s.package? id = some p → ∃ p', s'.package? id = some p'
  builds : ∀ {n b}, s.build? n = some b → ∃ b', s'.build? n = some b' ∧ b'.package = b.package
  published : ∀ {n o}, s.published? n = some o → s'.published? n = some o
  offClock : ∀ {id}, s.OffClock id → s'.OffClock id

theorem Outlasts.refl (s : Site) : Outlasts s s :=
  ⟨fun h => ⟨_, h⟩, fun h => ⟨_, h, rfl⟩, id, id⟩

theorem Outlasts.trans (h : Outlasts s s') (h' : Outlasts s' s'') : Outlasts s s'' where
  packages hp := by
    obtain ⟨p', hp'⟩ := h.packages hp
    exact h'.packages hp'
  builds hb := by
    obtain ⟨b', hb', hid⟩ := h.builds hb
    obtain ⟨b'', hb'', hid'⟩ := h'.builds hb'
    exact ⟨b'', hb'', hid'.trans hid⟩
  published ho := h'.published (h.published ho)
  offClock hoff := h'.offClock (h.offClock hoff)

theorem Passage.package? (h : Passage s event s') (hp : s.package? id = some p) :
    ∃ p', s'.package? id = some p' ∧ p'.options = p.options ∧
      LifeShift s id p event s' p'.lifecycle := by
  obtain ⟨p', hp', hoptions⟩ := package?_of_plans h.plans hp
  exact ⟨p', hp', hoptions, h.shift.life h.plans hp hp'⟩

theorem Passage.offClock (h : Passage s event s') (hoff : s.OffClock id) : s'.OffClock id := by
  obtain ⟨p, hp, hclock⟩ := hoff
  obtain ⟨p', hp', hoptions, hlife⟩ := h.package? hp
  refine ⟨p', hp', ?_⟩
  -- the clock is asked for the start of the last build only, which just a new build changes
  have hstart : p'.lifecycle.lastStart = p.lifecycle.lastStart := by
    generalize p'.lifecycle = l at hlife
    cases hlife with
    | settle n o => cases o <;> rfl
    | schedule start _ hclock' => exact absurd hclock' hclock
    | _ => rfl
  rw [hoptions, Lifecycle.OnClock, hstart]
  exact hclock

theorem Passage.outlasts (h : Passage s event s') : Outlasts s s' where
  packages hp := (h.package? hp).imp fun _ h => h.1
  builds := h.builds.build?
  published := h.builds.published?
  offClock := h.offClock

/-- What a demand for a package leads to is there. -/
inductive Offers (s : Site) (id : PackageId) : Demand → Prop where
  | settled (n : BuildId) (o : Outcome) (hn : s.published? n = some o) : Offers s id (.settled o)
  | joined (n : BuildId) (hn : ∃ b, s.build? n = some b ∧ b.package = id) : Offers s id (.joined n)
  | scheduled (n : BuildId) (start : Instant) (restore : Bool)
      (hn : ∃ b, s.build? n = some b ∧ b.package = id) : Offers s id (.scheduled n start restore)
  | offTheClock (hoff : s.OffClock id) : Offers s id .offTheClock

theorem offers_demand (hs : Sound s) (hp : s.package? id = some p) :
    (s.demand id p).1.Offers id (s.demand id p).2 := by
  have hpassage := Passage.of_demand hp
  have hform := s.demandForm id p
  have hphase : s.phase? id = some p.lifecycle.phase := by
    rw [phase?, lives_getElem?, hp]
    rfl
  generalize s.demand id p = d at hpassage hform ⊢
  cases hform with
  | settled o ho hclean =>
    obtain ⟨n, hn⟩ := hs.origins id _ o hphase ho
    exact .settled n o (hpassage.builds.published? hn)
  | joined n hn =>
    rw [hn] at hphase
    obtain ⟨b, hb, hid, -⟩ := (hs.building id n).mp hphase
    obtain ⟨b', hb', hid'⟩ := hpassage.builds.build? hb
    exact .joined n ⟨b', hb', hid'.trans hid⟩
  | scheduled start hdue hclock =>
    refine .scheduled _ start _ ⟨⟨id, start, p.lifecycle.mayRestore, .delayed⟩, ?_, rfl⟩
    exact build?_eq_some.mpr List.getElem?_concat_length
  | offTheClock hdue hclock => exact .offTheClock (hpassage.offClock ⟨p, hp, hclock⟩)

/-! ## 3. A build that stands -/

/-- The package is in build `n`, or settled with what that has come to, and nobody has asked for
another build. -/
def Stands (s : Site) (id : PackageId) (n : BuildId) : Prop :=
  ∃ p, s.package? id = some p ∧ p.lifecycle.dirty = false ∧
    (p.lifecycle.phase = .building n ∨
      ∃ o, s.published? n = some o ∧ p.lifecycle.phase.outcome? = some o)

theorem Stands.passage (hs : Sound s) (h : Passage s event s')
    (hevent : event ≠ some (.invalidated id)) (hstands : s.Stands id n) : s'.Stands id n := by
  obtain ⟨p, hp, hclean, hphase⟩ := hstands
  obtain ⟨p', hp', -, hlife⟩ := h.package? hp
  refine ⟨p', hp', ?_⟩
  -- nothing is due as long as the package is in a build, or settled and clean
  have hidle : ¬ p.lifecycle.IsDue := by
    intro hdue
    rcases hphase with hphase | ⟨o, -, ho⟩
    · exact hdue.idle n hphase
    · exact Bool.false_ne_true (hclean.symm.trans (hdue.stale o ho))
  generalize p'.lifecycle = l at hlife
  cases hlife with
  | keep =>
    refine ⟨hclean, hphase.imp_right ?_⟩
    rintro ⟨o, hpublished, ho⟩
    exact ⟨o, h.builds.published? hpublished, ho⟩
  | settle m o hflies hpublished =>
    have hbuilding : p.lifecycle.phase = .building m := by
      have hphase := (hs.building id m).mpr hflies
      rw [phase?, lives_getElem?, hp] at hphase
      exact Option.some.inj hphase
    rw [hbuilding] at hphase
    rcases hphase with hsame | ⟨_, -, ho⟩
    · rw [Phase.building.inj hsame] at hpublished
      refine ⟨by cases o <;> exact hclean, .inr ⟨o, hpublished, ?_⟩⟩
      rw [Lifecycle.publish_phase, Phase.outcome?_ofOutcome]
    · cases ho
  | schedule _ hdue => exact absurd hdue hidle
  | stick _ hdue => exact absurd hdue hidle
  | invalidate _ h => exact absurd h hevent

/-- A build that is there after a passage but not before stands. -/
theorem Passage.stands (h : Passage s event s') (hnone : s.build? n = none)
    (hb : s'.build? n = some b) : s'.Stands b.package n := by
  cases h.shift.build hb with
  | stay b₀ stage hb₀ => cases hnone.symm.trans hb₀
  | schedule k p start hp _ _ _ _ hlives =>
    obtain ⟨p', hp', -⟩ := h.package? hp
    have hlifecycle := lives_getElem? s' k
    rw [hlives, List.getElem?_modify_eq, lives_getElem?, hp, hp'] at hlifecycle
    have hlifecycle : _ = p'.lifecycle := Option.some.inj hlifecycle
    exact ⟨p', hp', by rw [← hlifecycle], .inl (by rw [← hlifecycle])⟩

/-- Once a build that stands has come to something, its package is settled with that. -/
theorem Stands.settled (hs : Sound s) (hstands : s.Stands id n) (ho : s.published? n = some o) :
    ∃ p, s.package? id = some p ∧ p.lifecycle.phase.outcome? = some o ∧
      p.lifecycle.dirty = false := by
  obtain ⟨p, hp, hclean, hphase | ⟨o', ho', hphase⟩⟩ := hstands
  · -- a build in flight has come to nothing yet
    have hflies : s.Flies id n := by
      rw [← hs.building, phase?, lives_getElem?, hp]
      exact congrArg some hphase
    obtain ⟨b, hb, -, hopen⟩ := hflies
    rw [published?_of_build? hb, Build.outcome?_of_isOpen hopen] at ho
    cases ho
  · rw [ho'] at ho
    exact ⟨p, hp, Option.some.inj ho ▸ hphase, hclean⟩

end Site

end Playground
