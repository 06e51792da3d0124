import Playground.Proofs.Site.Run
/-!
# What moves leave alone

The options of a package are fixed when it is founded.  A build is told when it is scheduled whether
it may take over what is there already, and only such a build comes to an artifact that it has not
built.
-/

namespace Playground

/-- Whether a stage fits a build that may take over what is there already, or may not. -/
def BuildStage.Fits (restore : Bool) : BuildStage → Prop
  | restoring _ => restore = true
  | marking a => a.restored = false
  | telling o => ∀ a, o = .ok a → a.restored = true → restore = true
  | ended o => ∀ a, o = .ok a → a.restored = true → restore = true
  | _ => True

/-- Whether a build takes over nothing that it may not. -/
def Build.IsHonest (b : Build) : Prop := b.stage.Fits b.restore

theorem Build.IsHonest.restore_of_outcome? {b : Build} (hb : b.IsHonest) {a : Artifact}
    (ho : b.outcome? = some (.ok a)) (ha : a.restored = true) : b.restore = true := by
  unfold IsHonest at hb
  unfold outcome? at ho
  split at ho
  · rename_i o hstage
    rw [hstage] at hb
    exact hb a (Option.some.inj ho) ha
  · rename_i o hstage
    rw [hstage] at hb
    exact hb a (Option.some.inj ho) ha
  · cases ho

namespace Site

variable {s s' s₁ : Site} {a : Act} {i : PartyId} {b : Build} {c : Call} {p : Package}

/-! ## 1. Options -/

/-- The options of the packages, in order. -/
def plans (s : Site) : List PackageOptions := s.packages.map (·.options)

@[simp] theorem plans_setParty (s : Site) (i : PartyId) (party : Party) :
    (s.setParty i party).plans = s.plans := rfl

@[simp] theorem plans_addPackage (s : Site) (p : Package) :
    (s.addPackage p).1.plans = s.plans ++ [p.options] := List.map_append

theorem plans_updatePackage (s : Site) (id : PackageId) {change : Package → Package}
    (h : ∀ p, (change p).options = p.options) : (s.updatePackage id change).plans = s.plans := by
  have hmodify : (s.updatePackage id change).plans = s.plans.modify id fun options => options :=
    map_modify h s.packages id
  rw [hmodify]
  exact List.modify_id id s.plans

@[simp] theorem plans_release (s : Site) (id : PackageId) (i : PartyId) :
    (s.release id i).plans = s.plans := by
  have h : (s.updatePackage id fun p => { p with lock := p.lock.leave i }).plans = s.plans :=
    plans_updatePackage s id fun _ => rfl
  exact h

@[simp] theorem plans_publish (s : Site) (i : PartyId) (b : Build) (p : Package) (o : Outcome) :
    (s.publish i b p o).plans = s.plans :=
  plans_updatePackage s b.package fun _ => rfl

@[simp] theorem plans_conclude (s : Site) (i : PartyId) (b : Build) (p : Package) (o : Outcome) :
    (s.conclude i b p o).plans = s.plans := by
  rw [conclude, plans_publish, plans_release]

@[simp] theorem plans_mark (s : Site) (p : Package) (artifact : Artifact) :
    (s.mark p artifact).plans = s.plans := by
  unfold mark
  split <;> rfl

@[simp] theorem plans_demand (s : Site) (id : PackageId) (p : Package) :
    (s.demand id p).1.plans = s.plans := by
  unfold demand
  dsimp only
  split
  · exact plans_updatePackage s id fun _ => rfl
  · exact plans_updatePackage s id fun _ => rfl

@[simp] theorem plans_invalidate (s : Site) (id : PackageId) (p : Package) :
    (s.invalidate id p).1.plans = s.plans := plans_updatePackage s id fun _ => rfl

@[simp] theorem plans_counted (s : Site) (id : PackageId) : (s.counted id).plans = s.plans :=
  plans_updatePackage s id fun _ => rfl

theorem GripTurn.plans {id : PackageId} {grip : Grip} {step : GripStep}
    (h : GripTurn s id p i grip step) (hsite : step.site? = some s') : s'.plans = s.plans := by
  cases h with
  | enter =>
    cases hsite
    exact plans_updatePackage s id fun _ => rfl
  | failed grip e =>
    cases hsite
    exact plans_release s id i
  | stay => cases hsite
  | _ =>
    cases hsite
    rfl

/-! ## 2. Builds -/

/-- What a move of a build leaves alone: the options of all packages, and that it takes over
nothing that it may not. -/
structure BuildMove (s : Site) (i : PartyId) (b : Build) (s' : Site) : Prop where
  plans : s'.plans = s.plans
  honest : b.IsHonest → ∃ (s₁ : Site) (stage : BuildStage),
    s' = s₁.setParty i (.build { b with stage }) ∧ stage.Fits b.restore

theorem BuildMove.of_stage {stage : BuildStage} (hplans : s₁.plans = s.plans)
    (hfits : b.IsHonest → stage.Fits b.restore) :
    BuildMove s i b (s₁.setParty i (.build { b with stage })) where
  plans := hplans
  honest hb := ⟨s₁, stage, rfl, hfits hb⟩

theorem BuildMove.of_publish (hplans : s₁.plans = s.plans) {o : Outcome}
    (ho : b.IsHonest → ∀ a, o = .ok a → a.restored = true → b.restore = true) :
    BuildMove s i b (s₁.publish i b p o) where
  plans := (plans_publish s₁ i b p o).trans hplans
  honest hb := by
    refine ⟨_, _, rfl, fun a ha => ho hb a ?_⟩
    cases o with
    | error e => cases ha
    | ok _ => exact ha

theorem BuildMove.of_conclude (hplans : s₁.plans = s.plans) {o : Outcome}
    (ho : b.IsHonest → ∀ a, o = .ok a → a.restored = true → b.restore = true) :
    BuildMove s i b (s₁.conclude i b p o) :=
  .of_publish ((plans_release _ _ _).trans hplans) ho

/-- A build that fails has nothing to take over. -/
theorem BuildMove.of_fail (hplans : s₁.plans = s.plans) (e : PackageError) :
    BuildMove s i b (s₁.conclude i b p (.error e)) := by
  refine .of_conclude hplans fun _ a ha => ?_
  cases ha

/-- Artifacts come from `restoring`, which only a build reaches that may take them over, and from
`marking`, where they have just been built. -/
theorem moveBuild?_move (h : s.moveBuild? i b = some s') : BuildMove s i b s' := by
  obtain ⟨p, -, hturn⟩ := moveBuild?_turn h
  generalize hstage : b.stage = stage at hturn
  have hfits : b.IsHonest → stage.Fits b.restore := fun hb => hstage ▸ hb
  cases hturn with
  | setOut => exact .of_stage rfl fun _ => trivial
  | approach budget grip grip' s₁ hgrip => exact .of_stage (hgrip.plans rfl) fun _ => trivial
  | enter budget grip s₁ hgrip =>
    refine .of_stage (hgrip.plans rfl) fun _ => ?_
    -- here the build goes separate ways
    split
    · assumption
    · trivial
  | giveUp budget grip s₁ e hgrip => exact .of_publish (hgrip.plans rfl) fun _ _ => nofun
  | takeOver => exact .of_conclude rfl fun hb _ _ _ => hfits hb
  | distrust => exact .of_stage rfl fun _ => trivial
  | clear => exact .of_stage rfl fun _ => trivial
  | expire => exact .of_fail (plans_counted s b.package) _
  | call => exact .of_stage (plans_counted s b.package) fun _ => trivial
  | finish => exact .of_stage rfl fun _ => rfl
  | fail budget invocation since result tree =>
    have hplans : ({ s with tree } : Site).plans = s.plans := rfl
    exact .of_fail hplans _
  | timeOut => exact .of_fail rfl _
  | mark a =>
    refine .of_conclude (plans_mark s p a) fun hb built hbuilt hrestored => ?_
    rw [← Except.ok.inj hbuilt] at hrestored
    exact absurd (hrestored.symm.trans (hfits hb)) Bool.noConfusion
  | tell o => exact .of_stage rfl hfits

/-- The stage that a build has reached is one that it may reach. -/
theorem BuildMove.isHonest {stage : BuildStage} (hmove : BuildMove s i b s')
    (hi : s.parties[i]? = some (.build b))
    (hparties : s'.parties = s.parties.set i (.build { b with stage })) (hb : b.IsHonest) :
    ({ b with stage } : Build).IsHonest := by
  obtain ⟨s₁, stage', hs', hfits⟩ := hmove.honest hb
  have hlt : i < s.parties.length := (List.getElem?_eq_some_iff.mp hi).1
  -- both descriptions of the new state show the same party
  have hsame : s₁.parties.set i (.build { b with stage := stage' }) =
      s.parties.set i (.build { b with stage }) := by
    rw [← hparties, hs', parties_setParty]
  have hlt₁ : i < s₁.parties.length := by
    have hlength := congrArg List.length hsame
    rw [List.length_set, List.length_set] at hlength
    exact hlength ▸ hlt
  have hparty : (s₁.parties.set i _)[i]? = (s.parties.set i _)[i]? := congrArg (·[i]?) hsame
  rw [List.getElem?_set_self hlt₁, List.getElem?_set_self hlt] at hparty
  have hstage : stage' = stage := congrArg Build.stage (Party.build.inj (Option.some.inj hparty))
  exact hstage ▸ hfits

/-! ## 3. Calls and acts -/

theorem plans_afterOutcome (s : Site) (i : PartyId) (c : Call) (allowance : Budget.Allowance)
    (o : Outcome) : (s.afterOutcome i c allowance o).plans = s.plans := by
  rw [afterOutcome_eq, plans_setParty]

theorem plans_answerDemand (i : PartyId) (c : Call) (allowance : Budget.Allowance)
    (d : Site × Demand) : (answerDemand i c allowance d).plans = d.1.plans := by
  obtain ⟨s, demand⟩ := d
  cases demand with
  | settled o => exact plans_afterOutcome s i c allowance o
  | _ => rfl

/-- Packages keep their options, and new ones get the next numbers; they have the options of packages
that were there before. -/
def KeepsPlans (s s' : Site) : Prop := ∃ new, s'.plans = s.plans ++ new ∧ ∀ o ∈ new, o ∈ s.plans

theorem KeepsPlans.of_eq (h : s'.plans = s.plans) : KeepsPlans s s' :=
  ⟨[], h.trans (List.append_nil _).symm, nofun⟩

theorem plans_getElem? (s : Site) (id : PackageId) :
    s.plans[id]? = (s.package? id).map (·.options) := List.getElem?_map

/-- A package that is copied brings a new one with it. -/
theorem plans_afterCopy {id : PackageId} (hp : s.package? id = some p) (i : PartyId) (c : Call)
    (order : CopyOrder) (result : Except FileError Unit) :
    KeepsPlans s (s.afterCopy i c p order result) := by
  have hrelease := plans_release s c.package i
  unfold afterCopy
  cases result with
  | error e => exact .of_eq hrelease
  | ok _ =>
    refine ⟨[p.options], ?_, fun o ho => ?_⟩
    · rw [← hrelease]
      exact plans_addPackage (s.release c.package i) (p.copyTo order.name order.destination)
    · have hplan : s.plans[id]? = some p.options := by rw [plans_getElem?, hp, Option.map_some]
      exact List.mem_singleton.mp ho ▸ List.mem_of_getElem? hplan

theorem moveCall?_plans (h : s.moveCall? i c = some s') : KeepsPlans s s' := by
  obtain ⟨p, hp, hturn⟩ := moveCall?_turn h
  generalize c.stage = stage at hturn
  -- only a copy that is done adds a package
  cases hturn with
  | ask a => exact .of_eq ((plans_answerDemand i c a _).trans (plans_demand s c.package p))
  | get _ a n o => exact .of_eq (plans_afterOutcome s i c a o)
  | approach a order grip grip' s₁ hgrip =>
    exact .of_eq ((plans_setParty s₁ i _).trans (hgrip.plans rfl))
  | enter a order grip s₁ hgrip =>
    have hplans : s₁.plans = s.plans := hgrip.plans rfl
    exact .of_eq hplans
  | expire a order grip s₁ e hgrip =>
    exact .of_eq ((plans_release s₁ c.package i).trans (hgrip.plans rfl))
  | fail a order grip s₁ e hgrip =>
    exact .of_eq ((plans_setParty s₁ i _).trans (hgrip.plans rfl))
  | finish a order worker result => exact plans_afterCopy hp i c order result
  | abandon => exact .of_eq (plans_release s c.package i)
  | _ => exact .of_eq rfl

/-- An act keeps the plans of packages, but a package that is founded may have new ones. -/
theorem act?_newPlans (h : s.act? a = some s') : KeepsPlans s s' ∨
    ∃ name directory builder options, a = .found name directory builder options ∧
      s'.plans = s.plans ++ [options] := by
  cases act?_turn h with
  | build i b _ hi h => exact .inl (.of_eq (moveBuild?_move h).plans)
  | call i c _ hi h => exact .inl (moveCall?_plans h)
  | drop i b p => exact .inl (.of_eq (plans_conclude s i b p _))
  | invalidate id p => exact .inl (.of_eq (plans_invalidate s id p))
  | found name directory builder options =>
    refine .inr ⟨name, directory, builder, options, rfl, ?_⟩
    exact plans_addPackage s (.fresh name directory builder options)
  | _ => exact .inl (.of_eq rfl)

theorem act?_plans (h : s.act? a = some s') : s.plans <+: s'.plans := by
  rcases act?_newPlans h with ⟨new, hplans, -⟩ | ⟨name, directory, builder, options, -, hplans⟩
  · exact hplans ▸ List.prefix_append s.plans new
  · exact hplans ▸ List.prefix_append s.plans [options]

theorem length_plans (s : Site) : s.plans.length = s.lives.length := by
  rw [plans, lives, List.length_map, List.length_map]

theorem package?_of_length {id : PackageId} (h : id < s.lives.length) :
    ∃ p, s.package? id = some p := by
  rw [lives, List.length_map] at h
  exact ⟨_, List.getElem?_eq_getElem h⟩

/-- A package keeps its options. -/
theorem package?_of_plans {id : PackageId} (hplans : s.plans <+: s'.plans)
    (hp : s.package? id = some p) : ∃ p', s'.package? id = some p' ∧ p'.options = p.options := by
  obtain ⟨rest, hplans⟩ := hplans
  have hplan : s'.plans[id]? = some p.options := by
    have hlt : id < s.plans.length := s.length_plans ▸ lt_length_lives hp
    rw [← hplans, List.getElem?_append_left hlt, plans_getElem?, hp]
    rfl
  rw [plans_getElem?] at hplan
  exact Option.map_eq_some_iff.mp hplan

theorem package?_act {id : PackageId} (h : s.act? a = some s') (hp : s.package? id = some p) :
    ∃ p', s'.package? id = some p' ∧ p'.options = p.options := package?_of_plans (act?_plans h) hp

theorem package?_before {id : PackageId} (hplans : s.plans <+: s'.plans)
    (hlt : id < s.lives.length) (hp : s'.package? id = some p) :
    ∃ p₀, s.package? id = some p₀ ∧ p.options = p₀.options := by
  obtain ⟨p₀, hp₀⟩ := package?_of_length hlt
  obtain ⟨p', hp', hoptions⟩ := package?_of_plans hplans hp₀
  exact ⟨p₀, hp₀, Option.some.inj (hp.symm.trans hp') ▸ hoptions⟩

/-- The packages that there were before one of them changed. -/
theorem package?_of_modify {id k : PackageId} {f : Lifecycle → Lifecycle}
    (hplans : s.plans <+: s'.plans) (hlives : s'.lives = s.lives.modify id f)
    (hp : s'.package? k = some p) :
    ∃ p₀, s.package? k = some p₀ ∧ p.options = p₀.options ∧
      p.lifecycle = if id = k then f p₀.lifecycle else p₀.lifecycle := by
  have hlt : k < s.lives.length := by
    have hlt := lt_length_lives hp
    rwa [hlives, List.length_modify] at hlt
  obtain ⟨p₀, hp₀, hoptions⟩ := package?_before hplans hlt hp
  refine ⟨p₀, hp₀, hoptions, ?_⟩
  have hl : s'.lives[k]? = some p.lifecycle := by rw [lives_getElem?, hp]; rfl
  rw [hlives, List.getElem?_modify, lives_getElem?, hp₀] at hl
  rw [← Option.some.inj hl]

end Site

end Playground
