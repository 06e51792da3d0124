import Playground.Proofs.Site.Exclusion
import Playground.Proofs.Site.Products
/-!
# What is copied

A caller who wants a copy first waits until the package is ready, and then takes its locks.  Until it
has them, the package may be invalidated and built again.  If it is not, the copy is one of the build
that the caller waited for.
-/

namespace Playground

namespace CallStage

theorem withAllowance_eq_copying {stage : CallStage} {a allowance : Budget.Allowance}
    {order : CopyOrder} {worker : PartyId}
    (h : stage.withAllowance a = .copying allowance order worker) :
    ∃ allowance, stage = .copying allowance order worker := by
  cases stage <;> cases h
  exact ⟨_, rfl⟩

theorem withAllowance_eq_answered {stage : CallStage} {a : Budget.Allowance} {t : Instant}
    {answer : Except PackageError Gain} (h : stage.withAllowance a = .answered t answer) :
    stage = .answered t answer := by
  cases stage <;> cases h
  rfl

end CallStage

namespace Site

variable {start s s' s₀ s₁ : Site} {a : Act} {acts before rest : List Act} {i : PartyId}
  {id : PackageId} {n : BuildId} {c c' : Call} {p : Package} {o : Outcome}

/-! ## 1. How a copy comes about -/

/-- In a run, caller `i` gets the locks of its package in state `s₀` and starts the copy. -/
structure StartsCopy (start : Site) (before : List Act) (i : PartyId) (id : PackageId)
    (s₀ s₁ : Site) : Prop where
  run : start.run? before = some s₀
  act : s₀.act? (.move i) = some s₁
  old : ∃ c, s₀.call? i = some c ∧ c.package = id ∧
    ∃ allowance order grip, c.stage = .gripping allowance order grip
  new : ∃ c, s₁.call? i = some c ∧ c.package = id ∧
    ∃ allowance order worker, c.stage = .copying allowance order worker

/-- In a run, caller `i` copies its package, and no build has done anything for the package since it
has started. -/
def IsCopying (start : Site) (acts : List Act) (i : PartyId) (id : PackageId) : Prop :=
  ∃ before middle s₀ s₁, acts = before ++ .move i :: middle ∧ StartsCopy start before i id s₀ s₁ ∧
    ∀ d ∈ s₁.deeds middle, d.package ≠ id

/-- In a run, caller `i` has copied its package, and no build has done anything for the package
meanwhile. -/
def HasCopied (start : Site) (acts : List Act) (i : PartyId) (id : PackageId) : Prop :=
  ∃ before rest, acts = before ++ .move i :: rest ∧ IsCopying start before i id

/-- A caller who copies is inside, and so no build does anything for the package. -/
theorem Custody.package_ne_of_deed {allowance : Budget.Allowance} {order : CopyOrder}
    {worker : PartyId} {d : Deed} (hc : Custody s) (hi : s.call? i = some c)
    (hstage : c.stage = .copying allowance order worker) (h : s.act? a = some s')
    (hd : s.deed? s' a = some d) : d.package ≠ c.package := by
  have hinside : s.standing? i = some (.inside c.package) := by
    rw [standing?_of_party (call?_eq_some.mp hi), Party.standing?, hstage]
    rfl
  intro hid
  cases act?_doing h with
  | idle hnone => cases hnone.symm.trans hd
  | work m b p w stage ha hm hp hlabour hbuilds =>
    rw [ha, deed?_of_labour hm hp hlabour hbuilds] at hd
    rw [← Option.some.inj hd] at hid
    have hbuild : s.standing? m = some (.inside c.package) := by
      rw [standing?_of_party (build?_eq_some.mp hm)]
      exact (hlabour.standing? b.package).trans (congrArg (some ∘ Standing.inside) hid)
    obtain rfl := (hc.leads_inside hbuild).unique (hc.leads_inside hinside)
    cases (build?_eq_some.mp hm).symm.trans (call?_eq_some.mp hi)

theorem IsCopying.concat {allowance : Budget.Allowance} {order : CopyOrder} {worker : PartyId}
    (hcopying : IsCopying start acts i c.package) (hc : Custody s) (hrun : start.run? acts = some s)
    (hi : s.call? i = some c) (hstage : c.stage = .copying allowance order worker)
    (h : s.act? a = some s') : IsCopying start (acts ++ [a]) i c.package := by
  obtain ⟨before, middle, s₀, s₁, rfl, hstarts, hquiet⟩ := hcopying
  refine ⟨before, middle ++ [a], s₀, s₁, by simp, hstarts, ?_⟩
  rw [run?_append, hstarts.run, Option.bind_some, run?, hstarts.act, Option.bind_some] at hrun
  rw [deeds_concat hrun h]
  intro d hd
  rcases List.mem_append.mp hd with hd | hd
  · exact hquiet d hd
  · exact hc.package_ne_of_deed hi hstage h (Option.mem_toList.mp hd)

theorem HasCopied.concat (h : HasCopied start acts i id) (a : Act) :
    HasCopied start (acts ++ [a]) i id := by
  obtain ⟨before, rest, rfl, hcopying⟩ := h
  exact ⟨before, rest ++ [a], by simp, hcopying⟩

/-- What a caller that copies, or has copied, has done before. -/
structure CopyPast (start : Site) (acts : List Act) (i : PartyId) (c : Call) : Prop where
  copies : ∀ allowance order worker, c.stage = .copying allowance order worker →
    IsCopying start acts i c.package
  copied : ∀ t k, c.stage = .answered t (.ok (.copied k)) → HasCopied start acts i c.package

theorem call?_of_set {old : Party} (hi : s.parties[i]? = some old)
    (h : s'.parties = s.parties.set i (.call c)) : s'.call? i = some c := by
  have hcalls : s'.call? = Function.update s.call? i (some c) := look_set _ hi h
  rw [hcalls, Function.update_self]

theorem call?_of_concat_set {old entering : Party} (hi : s.parties[i]? = some old)
    (hentering : entering.call? = none)
    (h : s'.parties = (s.parties ++ [entering]).set i (.call c)) : s'.call? i = some c := by
  have hcalls : s'.call? = Function.update s.call? i (some c) := look_concat_set _ hi hentering h
  rw [hcalls, Function.update_self]

/-- How a caller comes to copy, and how to a copy. -/
structure CopySteps (c : Call) (stage : CallStage) : Prop where
  copies : ∀ allowance order worker, stage = .copying allowance order worker →
    ∃ allowance order grip, c.stage = .gripping allowance order grip
  copied : ∀ t k, stage = .answered t (.ok (.copied k)) →
    ∃ allowance order worker, c.stage = .copying allowance order worker

/-- The call is in its copy, or has got one. -/
def isOnCopy : CallStage → Bool
  | .copying .. => true
  | .answered _ (.ok (.copied _)) => true
  | _ => false

theorem CopySteps.of_not_onCopy {stage : CallStage} (h : isOnCopy stage = false) :
    CopySteps c stage where
  copies allowance order worker hstage := by
    rw [hstage] at h
    cases h
  copied t k hstage := by
    rw [hstage] at h
    cases h

theorem CopySteps.of_after (allowance : Budget.Allowance) (t : Instant) (o : Outcome) :
    CopySteps c (c.after allowance t o) := by
  obtain ⟨id, start, terms, wish, stage⟩ := c
  cases o with
  | error e => exact .of_not_onCopy rfl
  | ok artifact => cases wish <;> exact .of_not_onCopy rfl

theorem copySteps_of_move (hi : s.call? i = some c) (h : s.act? (.move i) = some s') :
    ∃ stage, s'.call? i = some { c with stage } ∧ CopySteps c stage := by
  have hparty : s.parties[i]? = some (.call c) := call?_eq_some.mp hi
  rw [act?, hparty] at h
  obtain ⟨p, hp, hturn⟩ := moveCall?_turn h
  have hset : ∀ {stage}, s'.parties = s.parties.set i (.call { c with stage }) →
      CopySteps c stage → ∃ stage, s'.call? i = some { c with stage } ∧ CopySteps c stage :=
    fun hparties hsteps => ⟨_, call?_of_set hparty hparties, hsteps⟩
  -- after a step towards the locks all parties are there
  have hgrips : ∀ {grip step s₁ stage}, GripTurn s c.package p i grip step →
      step.site? = some s₁ → s'.parties = s₁.parties.set i (.call { c with stage }) →
      CopySteps c stage → ∃ stage, s'.call? i = some { c with stage } ∧ CopySteps c stage :=
    fun hgrip hsite hparties => hset ((gripTurn_frame hgrip hsite).1 ▸ hparties)
  generalize hstage : c.stage = old at hturn
  cases hturn with
  | ask allowance =>
    have hform := s.demandForm c.package p
    generalize s.demand c.package p = d at hset hform ⊢
    cases hform with
    | settled o =>
      rw [answerDemand, afterOutcome_eq] at hset ⊢
      exact hset rfl (.of_after _ _ _)
    | joined n => exact hset rfl (.of_not_onCopy rfl)
    | scheduled start hdue hclock =>
      exact ⟨.joining allowance s.parties.length, call?_of_concat_set hparty rfl rfl,
        .of_not_onCopy rfl⟩
    | offTheClock => exact hset rfl (.of_not_onCopy rfl)
  | get _ allowance n o =>
    rw [afterOutcome_eq] at hset ⊢
    exact hset rfl (.of_after _ _ _)
  | approach allowance order grip grip' s₁ hgrip => exact hgrips hgrip rfl rfl (.of_not_onCopy rfl)
  | enter allowance order grip s₁ hgrip =>
    cases hgrip with
    | taken file hfree =>
      exact ⟨.copying allowance order s.parties.length, call?_of_concat_set hparty rfl rfl,
        fun _ _ _ _ => ⟨allowance, order, .trying file, hstage⟩, (by intro _ _ h; cases h)⟩
  | expire allowance order grip s₁ e hgrip => exact hgrips hgrip rfl rfl (.of_not_onCopy rfl)
  | fail allowance order grip s₁ e hgrip => exact hgrips hgrip rfl rfl (.of_not_onCopy rfl)
  | finish allowance order worker result =>
    cases result with
    | error e => exact hset rfl (.of_not_onCopy rfl)
    | ok _ => exact hset rfl ⟨(by intro _ _ _ h; cases h), fun _ _ _ => ⟨allowance, order, worker, hstage⟩⟩
  | _ => exact hset rfl (.of_not_onCopy rfl)

namespace CopyPast

theorem of_coming (h : c.stage = .coming) : CopyPast start acts i c where
  copies allowance order worker hc := by cases h.symm.trans hc
  copied t k hc := by cases h.symm.trans hc

theorem of_change (hc : Custody s) (hrun : start.run? acts = some s) (hi : s.call? i = some c)
    (h : s.act? a = some s') (hchange : CallChange s a s' i c c') (hi' : s'.call? i = some c')
    (hpast : CopyPast start acts i c) : CopyPast start (acts ++ [a]) i c' := by
  cases hchange with
  | keep =>
    exact ⟨fun _ _ _ hstage => (hpast.copies _ _ _ hstage).concat hc hrun hi hstage h,
      fun t k hstage => (hpast.copied t k hstage).concat a⟩
  | cancel allowance _ =>
    refine ⟨fun _ _ _ hstage => ?_, fun t k hstage => ?_⟩
    · obtain ⟨_, hstage⟩ := CallStage.withAllowance_eq_copying hstage
      exact (hpast.copies _ _ _ hstage).concat hc hrun hi hstage h
    · exact (hpast.copied t k (CallStage.withAllowance_eq_answered hstage)).concat a
  | move stage ha hstep =>
    subst ha
    obtain ⟨stage', hcall, hsteps⟩ := copySteps_of_move hi h
    obtain rfl : stage = stage' := congrArg Call.stage (Option.some.inj (hi'.symm.trans hcall))
    refine ⟨fun allowance order worker hstage => ?_, fun t k hstage => ?_⟩
    · -- the caller has just got its locks
      obtain ⟨old, order', grip, hold⟩ := hsteps.copies allowance order worker hstage
      refine ⟨acts, [], s, s', rfl, ⟨hrun, h, ⟨c, hi, rfl, old, order', grip, hold⟩, ?_⟩, nofun⟩
      exact ⟨_, hi', rfl, allowance, order, worker, hstage⟩
    · -- the caller gets the copy that it has been waiting for
      obtain ⟨allowance, order, worker, hold⟩ := hsteps.copied t k hstage
      exact ⟨acts, [], rfl, hpast.copies allowance order worker hold⟩

end CopyPast

theorem copyPast_of_run {epoch : Nat} {tree : FileTree}
    (hrun : (Site.empty epoch tree).run? acts = some s) (hi : s.call? i = some c) :
    CopyPast (.empty epoch tree) acts i c := by
  refine call?_induction (P := fun acts _ c => CopyPast (.empty epoch tree) acts i c) rfl .of_coming ?_
    hrun hi
  intro acts s a s' c c' hrun hold h hchange hi hpast
  exact .of_change (custody_of_run hrun) hrun hold h hchange hi hpast

/-! ## 2. Which build is copied -/

theorem CallChange.package (h : CallChange s a s' i c c') : c'.package = c.package := by
  cases h <;> rfl

/-- A call is for the same package as long as it lasts. -/
theorem call?_of_run {rest : List Act} (hrun : s.run? rest = some s') (hi : s.call? i = some c) :
    ∃ c', s'.call? i = some c' ∧ c'.package = c.package := by
  refine run?_preserves (P := fun s => ∃ c', s.call? i = some c' ∧ c'.package = c.package)
    ?_ hrun ⟨c, hi, rfl⟩
  rintro s a s' h ⟨c', hi', hid⟩
  obtain ⟨c'', hi'', hchange⟩ := (act?_calls h).old i c' hi'
  exact ⟨c'', hi'', hchange.package.trans hid⟩

theorem origin?_of_run {rest : List Act} (hrun : s.run? rest = some s')
    (hn : s.origin? n = some id) : s'.origin? n = some id := by
  refine run?_preserves (P := fun s => s.origin? n = some id) (fun hact hn => ?_) hrun hn
  obtain ⟨b, hb, hid⟩ := Option.map_eq_some_iff.mp hn
  obtain ⟨b', hb', hid'⟩ := (act?_builds hact).build? hb
  rw [origin?_of_build? hb', hid', hid]

/-- In a run, caller `i` asked for its package, and then either joined its build `n` or found it
settled with what its latest build `n` had come to. -/
inductive AsksFor (start : Site) (acts : List Act) (i : PartyId) (id : PackageId) (n : BuildId)
    (o : Outcome) : Prop where
  | joined (s₀ s₁ : Site) (hasks : Asks start acts i id s₀ s₁)
      (hphase : s₁.phase? id = some (.building n))
  | found (s₀ s₁ : Site) (hasks : Asks start acts i id s₀ s₁) (hlatest : s₀.IsLatest id n)
      (phase : Phase) (hphase : s₀.phase? id = some phase) (ho : phase.outcome? = some o)

theorem AsksFor.of_served {epoch : Nat} {tree : FileTree}
    (hrun : (Site.empty epoch tree).run? acts = some s) (hi : s.call? i = some c)
    (h : Served (.empty epoch tree) acts s i o) :
    ∃ n, AsksFor (.empty epoch tree) acts i c.package n o ∧ s.published? n = some o := by
  have hcall : ∀ {id s₀ s₁}, Asks (.empty epoch tree) acts i id s₀ s₁ → id = c.package ∧
      ∃ before rest, (Site.empty epoch tree).run? before = some s₀ ∧ s₀.run? rest = some s := by
    rintro id s₀ s₁ ⟨before, rest, c₀, allowance, rfl, hbefore, hi₀, rfl, -, -⟩
    rw [run?_append, hbefore, Option.bind_some] at hrun
    obtain ⟨c', hi', hid⟩ := call?_of_run hrun hi₀
    rw [hi] at hi'
    exact ⟨by rw [Option.some.inj hi', hid], before, .move i :: rest, hbefore, hrun⟩
  cases h with
  | joined n hjoins ho =>
    obtain ⟨id, s₀, s₁, hasks, hphase⟩ := hjoins
    obtain ⟨rfl, -⟩ := hcall hasks
    exact ⟨n, .joined s₀ s₁ hasks hphase, ho⟩
  | found hfinds =>
    obtain ⟨id, s₀, s₁, l, hasks, hl, ho, -⟩ := hfinds
    obtain ⟨rfl, before, rest, hbefore, hrest⟩ := hcall hasks
    have hphase : s₀.phase? c.package = some l.phase := by rw [phase?, hl]; rfl
    obtain ⟨n, hlatest, hn⟩ := settled_of_run hbefore _ _ _ hphase ho
    exact ⟨n, .found s₀ s₁ hasks hlatest l.phase hphase ho, run?_preserves published?_act hrest hn⟩

/-- The build that a caller asked for is one of its package. -/
theorem AsksFor.origin {epoch : Nat} {tree : FileTree}
    (hrun : (Site.empty epoch tree).run? acts = some s)
    (h : AsksFor (.empty epoch tree) acts i id n o) : s.origin? n = some id := by
  have hcut : ∀ {s₀ s₁}, Asks (.empty epoch tree) acts i id s₀ s₁ →
      (∃ before, (Site.empty epoch tree).run? before = some s₁) ∧ (∃ rest, s₀.run? rest = some s) ∧
        ∃ rest, s₁.run? rest = some s := by
    rintro s₀ s₁ ⟨before, rest, c₀, allowance, rfl, hbefore, -, -, -, hact⟩
    rw [run?_append, hbefore, Option.bind_some] at hrun
    refine ⟨⟨before ++ [.move i], by rw [run?_concat, hbefore, Option.bind_some, hact]⟩,
      ⟨_, hrun⟩, rest, ?_⟩
    rwa [run?, hact, Option.bind_some] at hrun
  cases h with
  | joined s₀ s₁ hasks hphase =>
    obtain ⟨⟨before, hbefore⟩, -, rest, hrest⟩ := hcut hasks
    exact origin?_of_run hrest ((sound_of_run hbefore).isLatest hphase).origin
  | found s₀ s₁ hasks hlatest =>
    obtain ⟨-, ⟨rest, hrest⟩, -⟩ := hcut hasks
    exact origin?_of_run hrest hlatest.origin

theorem call?_of_answer? {t : Instant} {answer : Except PackageError Gain}
    (h : s.answer? i = some (t, answer)) :
    ∃ c, s.call? i = some c ∧ c.stage = .answered t answer := by
  unfold answer? at h
  split at h
  · rename_i id start terms wish time given hi
    obtain ⟨rfl, rfl⟩ := Prod.mk.inj (Option.some.inj h)
    exact ⟨_, call?_eq_some.mpr hi, rfl⟩
  · cases h

/-- What stands behind a copy that caller `i` has started: build `n` of the package, with its
product. -/
structure CopySource (start : Site) (before : List Act) (i : PartyId) (id : PackageId)
    (s₀ s₁ : Site) (n : BuildId) (artifact : Artifact) : Prop where
  starts : StartsCopy start before i id s₀ s₁
  /-- The caller asked for this very build, and it came to the product. -/
  asked : AsksFor start before i id n (.ok artifact)
  published : s₀.published? n = some (.ok artifact)
  /-- No build of the package holds its locks. -/
  alone : ∀ m, s₁.standing? m = some (.inside id) → m = i
  /-- Unless an invalidation of the package has been accepted since the build was scheduled, the
  builder's latest call for the package was made by this build and came to the product; or the
  product is restored, and the builder has not been called for the package. -/
  latest : Outdated (start.history before) id n ∨ lastCall? (Deed.isFor id) (start.deeds before) =
    if artifact.restored then none else some (n, some artifact)

theorem CopySource.of_starts {epoch : Nat} {tree : FileTree}
    (h : StartsCopy (.empty epoch tree) before i id s₀ s₁) :
    ∃ n artifact, CopySource (.empty epoch tree) before i id s₀ s₁ n artifact := by
  obtain ⟨c, hi, rfl, allowance, order, grip, hstage⟩ := h.old
  have hcopy : c.stage.isCopy = true := by rw [hstage]; rfl
  obtain ⟨-, artifact, hserved⟩ := (past_of_run (fun _ => rfl) h.run hi).copies hcopy
  obtain ⟨n, hasked, hn⟩ := AsksFor.of_served h.run hi hserved
  have horigin := hasked.origin h.run
  obtain ⟨hordered, haccounts⟩ := accounts_of_run h.run
  refine ⟨n, artifact, h, hasked, hn, fun m hm => ?_, ?_⟩
  · have hrun : (Site.empty epoch tree).run? (before ++ [.move i]) = some s₁ := by
      rw [run?_concat, h.run, Option.bind_some, h.act]
    obtain ⟨c', hi', hid, allowance, order, worker, hstage⟩ := h.new
    have hinside : s₁.standing? i = some (.inside c.package) := by
      rw [standing?_of_party (call?_eq_some.mp hi'), Party.standing?, hstage, ← hid]
      rfl
    have hc := custody_of_run hrun
    exact (hc.leads_inside hm).unique (hc.leads_inside hinside)
  · -- either there is a later build, which makes this one out of date, or this one is the latest
    by_cases hlatest : s₀.IsLatest c.package n
    · obtain ⟨b, hb, ho⟩ := Option.bind_eq_some_iff.mp hn
      exact .inr (haccounts.products _ n b artifact hlatest hb (Build.product?_of_outcome? ho))
    · have hlater : ∃ m, s₀.origin? m = some c.package ∧ n < m := by
        by_contra hnone
        exact hlatest ⟨horigin, fun m hm => Nat.le_of_not_lt fun hlt => hnone ⟨m, hm, hlt⟩⟩
      obtain ⟨m, hm, hlt⟩ := hlater
      exact .inl (hordered.outdated _ n m horigin hm hlt)

/-- However one copy is interleaved with invalidations, callers and builds: whoever gets a copy has
copied what the build left that it asked for, unless the package has been invalidated since that was
scheduled. -/
theorem copied_build (epoch : Nat) (tree : FileTree) (acts : List Act) (s : Site)
    (hrun : (Site.empty epoch tree).run? acts = some s) (i : PartyId) (t : Instant)
    (copy : PackageId) (hcopied : s.answer? i = some (t, .ok (.copied copy))) :
    ∃ id before middle rest s₀ s₁ n artifact,
      acts = before ++ .move i :: (middle ++ .move i :: rest) ∧
      CopySource (.empty epoch tree) before i id s₀ s₁ n artifact ∧
      ∀ d ∈ s₁.deeds middle, d.package ≠ id := by
  obtain ⟨c, hi, hstage⟩ := call?_of_answer? hcopied
  obtain ⟨_, rest, rfl, before, middle, s₀, s₁, rfl, hstarts, hquiet⟩ :=
    (copyPast_of_run hrun hi).copied t copy hstage
  obtain ⟨n, artifact, hsource⟩ := CopySource.of_starts hstarts
  exact ⟨c.package, before, middle, rest, s₀, s₁, n, artifact, by simp, hsource, hquiet⟩

/-- A package with a builder that works once and then fails. -/
def fickleRun : List Act :=
  let builder : Builder := fun n _ => ⟨some 0, fun t =>
    (if n = 0 then .built "app" else .failed "broken", t)⟩
  [.provide builder, .edit (FileTree.empty.put ["work", "p"] .directory),
    .found "p" "p" 0 ⟨.throttled 0, Clock.seconds 1⟩, .come 0 0 ⟨none, false, none⟩
      (.copy ⟨"c", "c"⟩), .move 0, .move 0,
    .move 1, .move 1, .move 1, .move 1, .move 1, .move 1, .move 1, .move 1, .move 1, .move 1,
    .move 1, .move 0]

/-- The caller's own way to the locks, and its copy. -/
def copyActs (worker : PartyId) : List Act :=
  [.move 0, .move 0, .move 0, .move 0, .move worker, .move 0]

theorem copied_build_fickleRun :
    ∃ s, (Site.empty 0 .empty).run? (fickleRun ++ copyActs 2) = some s ∧
      s.answer? 0 = some (0, .ok (.copied 1)) ∧
      ∃ id before middle rest s₀ s₁ n artifact,
        fickleRun ++ copyActs 2 = before ++ .move 0 :: (middle ++ .move 0 :: rest) ∧
        CopySource (.empty 0 .empty) before 0 id s₀ s₁ n artifact ∧
        ∀ d ∈ s₁.deeds middle, d.package ≠ id := by
  have hanswer : ((Site.empty 0 .empty).run? (fickleRun ++ copyActs 2)).map (·.answer? 0) =
      some (some (0, .ok (.copied 1))) := by decide +kernel
  obtain ⟨s, hrun, hanswer⟩ := Option.map_eq_some_iff.mp hanswer
  exact ⟨s, hrun, hanswer, copied_build 0 .empty (fickleRun ++ copyActs 2) s hrun 0 0 1 hanswer⟩

/-- While the caller is on its way to the locks, the package is invalidated and built again, which
fails.  All the same the caller gets its copy. -/
def invalidatedCopyRun : List Act :=
  fickleRun ++ [.invalidate 0, .come 0 0 ⟨none, false, none⟩ .ready, .move 2, .move 2,
    .move 3, .move 3, .move 3, .move 3, .move 3, .move 3, .move 3, .move 3, .move 0, .move 0, .move 0]

theorem copied_failure :
    ∃ s₀ s₁ s, (Site.empty 0 .empty).run? invalidatedCopyRun = some s₀ ∧
      lastCall? (Deed.isFor 0) ((Site.empty 0 .empty).deeds invalidatedCopyRun) = some (3, none) ∧
      s₀.act? (.move 0) = some s₁ ∧
      (s₀.standing? 0, s₁.standing? 0) = (some (.atDoor 0 (some 0)), some (.inside 0)) ∧
      s₁.run? [.move 4, .move 0] = some s ∧ s.answer? 0 = some (0, .ok (.copied 1)) := by
  have hviews : (((Site.empty 0 .empty).run? invalidatedCopyRun).bind fun s₀ =>
      (s₀.act? (.move 0)).bind fun s₁ => (s₁.run? [.move 4, .move 0]).map fun s =>
        ((s₀.standing? 0, s₁.standing? 0), s.answer? 0)) =
      some ((some (.atDoor 0 (some 0)), some (.inside 0)), some (0, .ok (.copied 1))) := by
    decide +kernel
  obtain ⟨s₀, hbefore, h⟩ := Option.bind_eq_some_iff.mp hviews
  obtain ⟨s₁, hact, h⟩ := Option.bind_eq_some_iff.mp h
  obtain ⟨s, hrest, h⟩ := Option.map_eq_some_iff.mp h
  obtain ⟨hstanding, hanswer⟩ := Prod.mk.inj h
  exact ⟨s₀, s₁, s, hbefore, by decide +kernel, hact, hstanding, hrest, hanswer⟩

end Site

end Playground
