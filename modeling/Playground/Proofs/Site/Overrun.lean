import Playground.Proofs.Overrun
import Playground.Proofs.Site.Passage
/-!
# Overruns on a site

A caller is told of an overrun only if it is one of its own budget.  A build that overruns its time
fails like any other build, so its callers are told of a failed build and not of an overrun.
-/

namespace Playground

/-- The budget that a call runs under.  It is granted when the call comes. -/
def Call.budget? (c : Call) (now : Instant) : Option Budget :=
  match c.stage with
  | .coming => some (c.terms.grant now).budget
  | stage => stage.allowance?.map (·.budget)

theorem Call.budget?_of_coming {c : Call} (h : c.stage = .coming) (now : Instant) :
    c.budget? now = some (c.terms.grant now).budget := by
  rw [budget?, h]

theorem Call.budget?_of_allowance? {c : Call} {a : Budget.Allowance}
    (h : c.stage.allowance? = some a) (now : Instant) : c.budget? now = some a.budget := by
  unfold budget?
  split
  · rename_i hcoming
    rw [hcoming] at h
    cases h
  · rw [h]
    rfl

theorem CallStage.allowance?_withAllowance {stage : CallStage} {old : Budget.Allowance}
    (h : stage.allowance? = some old) (a : Budget.Allowance) :
    (stage.withAllowance a).allowance? = some a := by
  cases stage <;> first | rfl | cases h

theorem Call.allowance?_after {c : Call} {a a' : Budget.Allowance} {t : Instant} {o : Outcome}
    (h : (c.after a t o).allowance? = some a') : a = a' := by
  obtain ⟨_, _, _, wish, _⟩ := c
  cases o with
  | error e => cases h
  | ok artifact =>
    cases wish with
    | ready => cases h
    | copy order => exact Option.some.inj h

/-- The reason of a build that has overrun its time. -/
def Budget.Exceeded.timedOut (e : Budget.Exceeded) : String :=
  "timed out at " ++ e.checkpoint ++ " after " ++ Clock.durationText e.elapsed

namespace Site

variable {s s' s₁ : Site} {i : PartyId} {n : BuildId} {c c' : Call} {p : Package} {b : Build}
  {budget : Budget} {grip : Grip} {id : PackageId} {e : Budget.Exceeded} {t : Instant}

/-! ## 1. On the way to the locks -/

/-- Who is told of an overrun on the way to the locks has overrun. -/
theorem overran_of_gripStep (h : s.gripStep id p i budget grip = .failed s' (.budget e)) :
    budget.Overran s.now e := by
  -- the overrun comes from a check or a race; opening the lock file has neither
  cases grip with
  | wanted =>
    unfold gripStep at h
    dsimp only at h
    split at h
    · rename_i hcheck
      rw [← PackageError.budget.inj (GripStep.failed.inj h).2]
      exact Budget.overran_of_ensureWithin hcheck
    · cases h
  | queued =>
    unfold gripStep at h
    dsimp only at h
    split at h
    · cases h
    · cases h
    · rename_i hlost
      rw [← PackageError.budget.inj (GripStep.failed.inj h).2]
      exact Budget.overran_of_poll hlost
  | opening =>
    unfold gripStep openLock at h
    dsimp only at h
    split at h <;> cases h
  | trying file =>
    unfold gripStep tryLock at h
    dsimp only at h
    split at h
    · split at h
      · rename_i hcheck
        rw [← PackageError.budget.inj (GripStep.failed.inj h).2]
        exact Budget.overran_of_ensureWithin hcheck
      · cases h
    · cases h
  | pausing file until_ =>
    unfold gripStep at h
    dsimp only at h
    split at h
    · cases h
    · cases h
    · rename_i hlost
      rw [← PackageError.budget.inj (GripStep.failed.inj h).2]
      exact Budget.overran_of_poll hlost

/-! ## 2. Callers -/

/-- A call may go on to a stage.  If that is an overrun, then it is one of the call's own budget, at
the time of the move; and if the call has not ended, then it keeps its budget. -/
structure CallGoes (s : Site) (c : Call) (stage : CallStage) : Prop where
  overrun : ∀ t e, stage = .answered t (.error (.budget e)) →
    t = s.now ∧ ∃ b, c.budget? s.now = some b ∧ b.Overran s.now e
  budget : ∀ a, stage.allowance? = some a → c.budget? s.now = some a.budget

/-- A move of a call takes it to a stage that it may go on to. -/
def CallMove (s : Site) (i : PartyId) (c : Call) (s' : Site) : Prop :=
  ∃ (s₁ : Site) (stage : CallStage),
    s' = s₁.setParty i (.call { c with stage }) ∧ CallGoes s c stage

theorem CallMove.of_keep {stage : CallStage} {a : Budget.Allowance}
    (hb : c.budget? s.now = some a.budget) (h : stage.allowance? = some a) :
    CallMove s i c (s₁.setParty i (.call { c with stage })) := by
  refine ⟨s₁, stage, rfl, fun t e hstage => ?_, fun a' ha' => ?_⟩
  · rw [hstage] at h
    cases h
  · rw [h] at ha'
    rw [hb, Option.some.inj ha']

theorem CallMove.of_end {stage : CallStage} (h : stage.allowance? = none)
    (hover : ∀ t e, stage ≠ .answered t (.error (.budget e))) :
    CallMove s i c (s₁.setParty i (.call { c with stage })) := by
  refine ⟨s₁, stage, rfl, fun t e hstage => absurd hstage (hover t e), fun a ha => ?_⟩
  rw [h] at ha
  cases ha

theorem CallMove.of_reply {error : PackageError} (h : ∀ e, error ≠ .budget e) :
    CallMove s i c (s₁.reply i c (.error error)) := by
  refine .of_end rfl fun t e hstage => h e ?_
  exact Except.error.inj (CallStage.answered.inj hstage).2

theorem CallMove.of_overrun (hnow : s₁.now = s.now) (hb : c.budget? s.now = some budget)
    (h : budget.Overran s.now e) : CallMove s i c (s₁.reply i c (.error (.budget e))) := by
  refine ⟨s₁, _, rfl, fun t e' hstage => ?_, fun _ ha => ?_⟩
  · obtain ⟨rfl, he⟩ := CallStage.answered.inj hstage
    rw [← PackageError.budget.inj (Except.error.inj he)]
    exact ⟨hnow, budget, hb, h⟩
  · cases ha

theorem CallMove.of_afterOutcome {a : Budget.Allowance} {o : Outcome}
    (hb : c.budget? s.now = some a.budget) (ho : NoOverrun o) :
    CallMove s i c (s₁.afterOutcome i c a o) := by
  rw [afterOutcome_eq]
  refine ⟨s₁, _, rfl, fun t e hstage => ?_, fun a' ha' => ?_⟩
  · exact absurd (Call.eq_error_of_after hstage) (ho e)
  · rw [hb, Call.allowance?_after ha']

theorem CallMove.of_startCopy {a : Budget.Allowance} {order : CopyOrder} (hnow : s₁.now = s.now)
    (hb : c.budget? s.now = some a.budget) : CallMove s i c (s₁.startCopy i c p a order) := by
  unfold Site.startCopy
  split
  · rename_i hcheck
    rw [hnow] at hcheck
    exact .of_overrun hnow hb (Budget.overran_of_ensureWithin hcheck)
  · exact .of_keep hb rfl

theorem CallMove.of_afterCopy {order : CopyOrder} {result : Except FileError Unit} :
    CallMove s i c (s₁.afterCopy i c p order result) := by
  unfold afterCopy
  cases result with
  | error e => exact .of_reply fun _ h => by cases h
  | ok _ => exact .of_end rfl fun _ _ h => by cases h

/-- Who asks is answered at once only with what the package is settled with. -/
theorem CallMove.of_demand (hs : Sound s) {a : Budget.Allowance}
    (hp : s.package? c.package = some p) (hb : c.budget? s.now = some a.budget) :
    CallMove s i c (answerDemand i c a (s.demand c.package p)) := by
  have hform := s.demandForm c.package p
  have hphase : s.phase? c.package = some p.lifecycle.phase := by
    rw [phase?, lives_getElem?, hp]
    rfl
  generalize s.demand c.package p = d at hform ⊢
  cases hform with
  | settled o ho _ => exact .of_afterOutcome hb (hs.phases _ _ o hphase ho)
  | joined => exact .of_keep hb rfl
  | scheduled => exact .of_keep hb rfl
  | offTheClock => exact .of_end rfl fun _ _ h => by cases h

theorem noOverrun_of_outcome? {o : Outcome} (hs : Sound s) (h : s.outcome? n = some o) :
    NoOverrun o := hs.outcomes n o (published?_of_outcome? h)

/-- A step towards the locks of a package that is to be copied. -/
theorem callMove_of_gripping {a : Budget.Allowance} {order : CopyOrder}
    (hb : c.budget? s.now = some a.budget) (hp : s.package? c.package = some p)
    (hstage : c.stage = .gripping a order grip) (h : s.moveCall? i c = some s') :
    CallMove s i c s' := by
  have hturn := s.gripTurn c.package p i a.budget grip
  rw [moveCall?, hp, Option.bind_eq_bind, Option.bind_some] at h
  dsimp only at h
  rw [hstage] at h
  dsimp only at h
  generalize hgrip : s.gripStep c.package p i a.budget grip = step at h hturn
  cases step with
  | stay => cases h
  | next s₁ grip' =>
    cases h
    exact .of_keep hb rfl
  | held s₁ =>
    cases h
    exact .of_startCopy (hturn.now s₁ rfl) hb
  | failed s₁ error =>
    cases h
    cases error with
    | budget e => exact .of_overrun (hturn.now s₁ rfl) hb (overran_of_gripStep hgrip)
    | _ => exact .of_reply nofun

theorem moveCall?_move (hs : Sound s) (h : s.moveCall? i c = some s') : CallMove s i c s' := by
  obtain ⟨p, hp, hmove⟩ := Option.bind_eq_some_iff.mp h
  -- every check and every race is against the budget that the stage of the caller holds
  have hcoming := fun h => c.budget?_of_coming h s.now
  have hbudget := fun a h => c.budget?_of_allowance? (a := a) h s.now
  generalize hstage : c.stage = stage at hmove hcoming hbudget
  cases stage with
  | coming =>
    dsimp only at hmove
    split at hmove
    · cases hmove
    · split at hmove
      · rename_i hcheck
        cases hmove
        exact .of_overrun rfl (hcoming rfl) (Budget.overran_of_ensureWithin hcheck)
      · cases hmove
        exact .of_keep (hcoming rfl) rfl
  | asking a =>
    rw [moveCall?_asking hp hstage] at h
    cases h
    exact .of_demand hs hp (hbudget a rfl)
  | joining a m =>
    dsimp only at hmove
    split at hmove
    · cases hmove
      exact .of_keep (hbudget a rfl) rfl
    · rename_i hwon
      cases hmove
      exact .of_afterOutcome (hbudget a rfl) (noOverrun_of_outcome? hs (Budget.of_open?_won hwon))
    · rename_i hlost
      cases hmove
      exact .of_overrun rfl (hbudget a rfl) (Budget.overran_of_open? hlost)
  | waiting a m =>
    dsimp only at hmove
    split at hmove
    · cases hmove
    · rename_i hwon
      cases hmove
      exact .of_afterOutcome (hbudget a rfl) (noOverrun_of_outcome? hs (Budget.of_poll_won hwon))
    · rename_i hlost
      cases hmove
      exact .of_overrun rfl (hbudget a rfl) (Budget.overran_of_poll hlost)
  | gripping a order grip => exact callMove_of_gripping (hbudget a rfl) hp hstage h
  | copying a order worker =>
    dsimp only at hmove
    split at hmove
    · cases hmove
    · cases hmove
      exact .of_afterCopy
    · rename_i hlost
      cases hmove
      exact .of_overrun rfl (hbudget a rfl) (Budget.overran_of_poll hlost)
  | answered t answer => cases hmove
  | offTheClock => cases hmove

/-- The stage that a move takes a call to is one that it may go on to. -/
theorem callGoes_of_move {stage : CallStage} (hs : Sound s) (hi : s.call? i = some c)
    (h : s.act? (.move i) = some s') (hi' : s'.call? i = some { c with stage }) :
    CallGoes s c stage := by
  rw [act?, call?_eq_some.mp hi, Option.bind_some] at h
  obtain ⟨s₁, stage', rfl, hgoes⟩ := moveCall?_move hs h
  have hparty := call?_eq_some.mp hi'
  rw [parties_setParty, List.getElem?_set_self'] at hparty
  obtain ⟨_, -, hparty⟩ := Option.map_eq_some_iff.mp hparty
  have hsame : stage' = stage := congrArg Call.stage (Party.call.inj hparty)
  exact hsame ▸ hgoes

/-- A call is answered with an overrun by its own move only, and then its own budget has run out. -/
theorem overran_of_answer {a : Act} (hs : Sound s) (h : s.act? a = some s')
    (hi' : s'.call? i = some c') (hstage : c'.stage = .answered t (.error (.budget e))) :
    s.call? i = some c' ∨ a = .move i ∧ t = s.now ∧
      ∃ c b, s.call? i = some c ∧ c'.terms = c.terms ∧ c.budget? t = some b ∧ b.Overran t e := by
  cases hi : s.call? i with
  | none =>
    have hcoming := (act?_calls h).new i c' hi hi'
    cases hstage.symm.trans hcoming
  | some c =>
    obtain ⟨c₁, hi₁, hchange⟩ := (act?_calls h).old i c hi
    obtain rfl := Option.some.inj (hi₁.symm.trans hi')
    cases hchange with
    | keep => exact .inl rfl
    | cancel allowance =>
      -- a cancelled budget leaves the stage as it is
      apply Or.inl
      obtain ⟨id, start, terms, wish, stage⟩ := c
      cases stage <;> first | rfl | cases hstage
    | move stage ha _ =>
      subst ha
      obtain ⟨rfl, b, hb, hover⟩ := (callGoes_of_move hs hi h hi').overrun t e hstage
      exact .inr ⟨rfl, rfl, c, b, rfl, rfl, hb, hover⟩

/-- Every call runs under the budget that it was granted. -/
def Granted (s : Site) : Prop :=
  ∀ i c a, s.call? i = some c → c.stage.allowance? = some a → c.terms.Granted a.budget

theorem Granted.budget? {b : Budget} (hgranted : s.Granted) (hi : s.call? i = some c)
    (hb : c.budget? t = some b) : c.terms.Granted b := by
  unfold Call.budget? at hb
  split at hb
  · rw [← Option.some.inj hb]
    exact .grant c.terms t
  · obtain ⟨a, ha, rfl⟩ := Option.map_eq_some_iff.mp hb
    exact hgranted i c a hi ha

theorem Granted.act {a : Act} (hs : Sound s) (h : s.act? a = some s') (hgranted : s.Granted) :
    s'.Granted := by
  intro i c' a' hi' ha'
  cases hi : s.call? i with
  | none =>
    rw [(act?_calls h).new i c' hi hi'] at ha'
    cases ha'
  | some c =>
    obtain ⟨c₁, hi₁, hchange⟩ := (act?_calls h).old i c hi
    obtain rfl := Option.some.inj (hi₁.symm.trans hi')
    cases hchange with
    | keep => exact hgranted i c a' hi ha'
    | cancel allowance hallowance =>
      obtain ⟨old, hold, rfl⟩ := hallowance
      have hnew : (c.stage.withAllowance { old with budget := old.budget.cancel }).allowance? =
          some a' := ha'
      rw [CallStage.allowance?_withAllowance hold] at hnew
      rw [← Option.some.inj hnew]
      exact (hgranted i c old hi hold).cancel
    | move stage ha _ =>
      subst ha
      have hb := (callGoes_of_move hs hi h hi').budget a' ha'
      have hterms : c.terms.Granted a'.budget := hgranted.budget? hi hb
      exact hterms

/-! ## 3. Builds -/

/-- The overrun that a build fails with if it moves now. -/
def overrun? (s : Site) (n : BuildId) (b : Build) (p : Package) : Option Budget.Exceeded :=
  match b.stage with
  | .gripping budget grip =>
      match s.gripStep b.package p n budget grip with
      | .failed _ (.budget e) => some e
      | _ => none
  | .invoking budget =>
      match budget.ensureWithin s.now "package.build" with
      | .error e => some e
      | .ok () => none
  | .working budget invocation since =>
      match budget.poll s.now "package.build"
          (if s.isDone invocation since then some () else none) with
      | .lost e => some e
      | _ => none
  | _ => none

/-- Every build runs under the budget that the options of its package allow. -/
def Timed (s : Site) : Prop :=
  ∀ n b budget, s.build? n = some b → b.stage.budget? = some budget →
    ∃ p since, s.package? b.package = some p ∧
      budget = .withTimeout since p.options.buildTimeout

theorem Timed.passage {event : Option Event} (h : Passage s event s') (htimed : s.Timed) :
    s'.Timed := by
  intro n b' budget hb' hbudget
  have hpackage : ∀ {p since}, s.package? b'.package = some p →
      budget = .withTimeout since p.options.buildTimeout → ∃ p' since,
        s'.package? b'.package = some p' ∧
        budget = .withTimeout since p'.options.buildTimeout := by
    intro p since hp heq
    obtain ⟨p', hp', hoptions, -⟩ := h.package? hp
    exact ⟨p', since, hp', hoptions ▸ heq⟩
  have hold : s.build? n = some b' → ∃ p' since, s'.package? b'.package = some p' ∧
      budget = .withTimeout since p'.options.buildTimeout := by
    intro hb
    obtain ⟨p, since, hp, heq⟩ := htimed n b' budget hb hbudget
    exact hpackage hp heq
  -- one build is replaced, and the others are as before
  have hupdate : ∀ {m b₀}, s'.build? = Function.update s.build? m (some b₀) →
      (b₀ = b' → ∃ p' since, s'.package? b'.package = some p' ∧
        budget = .withTimeout since p'.options.buildTimeout) →
      ∃ p' since, s'.package? b'.package = some p' ∧
        budget = .withTimeout since p'.options.buildTimeout := by
    intro m b₀ hbuilds hnew
    rw [hbuilds, Function.update_apply] at hb'
    split at hb'
    · exact hnew (Option.some.inj hb')
    · exact hold hb'
  cases h.builds with
  | keep hbuilds _ => exact hold (hbuilds ▸ hb')
  | reset _ _ hbuilds _ => exact hold (hbuilds ▸ hb')
  | work m b₀ stage hm _ _ hbuilds _ htime =>
    refine hupdate hbuilds ?_
    rintro rfl
    rcases htime budget hbudget with hbefore | ⟨p, hp, heq⟩
    · obtain ⟨p, since, hp, heq⟩ := htimed m b₀ budget hm hbefore
      exact hpackage hp heq
    · exact hpackage hp heq
  | settle m b₀ o _ _ _ hbuilds _ =>
    refine hupdate hbuilds ?_
    rintro rfl
    cases hbudget
  | tell m b₀ o _ _ hbuilds _ =>
    refine hupdate hbuilds ?_
    rintro rfl
    cases hbudget
  | schedule m b₀ _ _ _ hbuilds _ hstage =>
    refine hupdate hbuilds ?_
    rintro rfl
    rw [hstage] at hbudget
    cases hbudget

/-- What a build waits for: one of the locks, or its builder. -/
inductive Waits (s : Site) (n : BuildId) (p : Package) : BuildStage → Budget → Prop where
  | queued (budget : Budget) (h : p.lock.isHeldBy n = false) :
      Waits s n p (.gripping budget .queued) budget
  | trying (budget : Budget) (file : Nat) (h : s.isHeld file = true) :
      Waits s n p (.gripping budget (.trying file)) budget
  | pausing (budget : Budget) (file : Nat) (until_ : Instant)
      (h : Clock.hasFired s.now until_ = false) :
      Waits s n p (.gripping budget (.pausing file until_)) budget
  | working (budget : Budget) (invocation : Invocation) (since : Instant)
      (h : s.isDone invocation since = false) :
      Waits s n p (.working budget invocation since) budget

theorem Waits.budget? {stage : BuildStage} (h : Waits s n p stage budget) :
    stage.budget? = some budget := by
  cases h <;> rfl

/-- A build that waits when its time is up fails with an overrun. -/
theorem overrun?_of_waits (hwaits : Waits s n p b.stage budget)
    (hfired : budget.deadline.any (Clock.hasFired s.now) = true) :
    ∃ e, s.overrun? n b p = some e ∧ budget.Overran s.now e := by
  have hexceeded : budget.isExceeded s.now = true := by
    rw [Budget.isExceeded, Budget.isDue_of_hasFired hfired, Bool.or_true]
  obtain ⟨id, start, restore, stage⟩ := b
  cases hwaits with
  | queued _ h =>
    refine ⟨budget.exceeded s.now "lock.acquire", ?_, hexceeded, rfl⟩
    simp [overrun?, gripStep, h, Budget.poll_of_hasFired hfired]
  | trying _ file h =>
    refine ⟨budget.exceeded s.now "package.dir_lock", ?_, hexceeded, rfl⟩
    simp [overrun?, gripStep, tryLock, h, Budget.ensureWithin_of_isExceeded hexceeded]
  | pausing _ file until_ h =>
    refine ⟨budget.exceeded s.now "package.dir_lock", ?_, hexceeded, rfl⟩
    simp [overrun?, gripStep, h, Budget.poll_of_hasFired hfired]
  | working _ invocation since h =>
    refine ⟨budget.exceeded s.now "package.build", ?_, hexceeded, rfl⟩
    simp [overrun?, h, Budget.poll_of_hasFired hfired]

theorem published?_publish {o : Outcome} (hn : n < s₁.parties.length) :
    (s₁.publish n b p o).published? n = some (o.mapError (.ofBuild p.name)) := by
  have hbuild : (s₁.publish n b p o).build? n =
      some { b with stage := .telling (o.mapError (.ofBuild p.name)) } := by
    rw [build?_eq_some, publish, parties_setParty]
    exact List.getElem?_set_self hn
  rw [published?_of_build? hbuild]
  rfl

/-- A build that overruns its time settles its package as one that has failed to build. -/
theorem published?_of_overrun (hb : s.build? n = some b) (hp : s.package? b.package = some p)
    (he : s.overrun? n b p = some e) : ∃ s', s.act? (.move n) = some s' ∧
      s'.published? n = some (.error (.buildFailed p.name e.timedOut)) := by
  have hparty := build?_eq_some.mp hb
  have hn : n < s.parties.length := (List.getElem?_eq_some_iff.mp hparty).1
  have hconclude : ∀ s₁ : Site, s₁.parties = s.parties →
      (s₁.conclude n b p (.error (.budget e))).published? n =
        some (.error (.buildFailed p.name e.timedOut)) := by
    intro s₁ hparties
    apply published?_publish
    rw [(same_release _ _ _).parties, hparties]
    exact hn
  have hact : s.act? (.move n) = s.moveBuild? n b := by
    rw [act?, hparty]
    rfl
  rw [hact, moveBuild?, hp, Option.bind_eq_bind, Option.bind_some]
  dsimp only
  -- the three places where a build may find its time over
  unfold overrun? at he
  split at he
  · rename_i budget grip hstage
    rw [hstage]
    dsimp only
    split at he
    · rename_i s₁ e' hgrip
      obtain rfl := Option.some.inj he
      rw [hgrip]
      refine ⟨_, rfl, published?_publish ?_⟩
      have hturn := s.gripTurn b.package p n budget grip
      rw [hgrip] at hturn
      have hsame : Same s s₁ := hturn.same rfl
      rw [hsame.parties]
      exact hn
    · cases he
  · rename_i budget hstage
    rw [hstage]
    dsimp only
    split at he
    · rename_i hcheck
      obtain rfl := Option.some.inj he
      have hcount : (s.updatePackage b.package fun p => { p with builds := p.builds + 1 }).now =
          s.now := rfl
      rw [hcount, hcheck]
      exact ⟨_, rfl, hconclude _ rfl⟩
    · cases he
  · rename_i budget invocation since hstage
    rw [hstage]
    dsimp only
    split at he
    · rename_i hlost
      obtain rfl := Option.some.inj he
      rw [hlost]
      exact ⟨_, rfl, hconclude _ rfl⟩
    · cases he
  · cases he

end Site

end Playground
