import Playground.Proofs.Site.Copying
/-!
# What a caller gets who has ordered a copy

A caller who wants a copy has it made by somebody who is on his own once he has begun.  Whoever gets a
copy gets the package that was ordered, in a directory into which the one of the package has been
copied without a fault.
-/

namespace Playground

/-- The copy at work that a party is. -/
def Party.copyWork? : Party → Option CopyWork
  | copyWork w => some w
  | _ => none

/-- What does not change in the life of a package. -/
theorem Package.kept_of_asFounded {p p' : Package} (h : p'.asFounded = p.asFounded) :
    p'.directory = p.directory ∧
      ∀ name destination, p'.copyTo name destination = p.copyTo name destination := by
  have hdirectory : p'.asFounded.directory = p.asFounded.directory := by rw [h]
  have hbuilder : p'.asFounded.builder = p.asFounded.builder := by rw [h]
  have hoptions : p'.asFounded.options = p.asFounded.options := by rw [h]
  refine ⟨hdirectory, fun name destination => ?_⟩
  rw [copyTo, copyTo]
  exact congr (congrArg (Package.fresh name destination) hbuilder) hoptions

namespace Site

variable {start s s' s₀ s₁ : Site} {a : Act} {acts before rest : List Act} {i worker : PartyId}
  {id : PackageId} {c c' : Call} {p : Package} {w : CopyWork} {stage : CallStage}
  {source target : Path}

/-! ## 1. Copies at work -/

/-- The copy at work with a number. -/
def copyWork? (s : Site) (i : PartyId) : Option CopyWork := s.look Party.copyWork? i

theorem copyWork?_eq_some : s.copyWork? i = some w ↔ s.parties[i]? = some (.copyWork w) := by
  unfold copyWork? look
  cases s.parties[i]? with
  | none => simp
  | some party => cases party <;> simp [Party.copyWork?]

theorem copyResult?_eq_some {result : Except FileError Unit} (h : s.copyResult? i = some result) :
    ∃ w, s.copyWork? i = some w ∧ w.result = some result := by
  unfold copyResult? at h
  split at h
  · exact ⟨_, copyWork?_eq_some.mpr ‹_›, h⟩
  · cases h

/-- Caller `i` gets its locks, and the next party is set to copy its package. -/
structure Hires (s : Site) (i : PartyId) (c : Call) (order : CopyOrder) (w : CopyWork) (s' : Site) :
    Prop where
  old : s.call? i = some c
  gripping : ∃ allowance grip, c.stage = .gripping allowance order grip
  work : ∃ p, s.package? c.package = some p ∧ w = ⟨p.directory, order.destination, none⟩
  new : ∃ allowance,
    s'.call? i = some { c with stage := .copying allowance order s.parties.length }

/-- What an act changes about the copies at work. -/
inductive WorksEffect (s : Site) (a : Act) (s' : Site) : Prop where
  | keep (hworks : s'.copyWork? = s.copyWork?)
  | enter (w : CopyWork) (hnone : w.result = none)
      (hworks : s'.copyWork? = Function.update s.copyWork? s.parties.length (some w))
      (hhires : ∃ i c order, a = .move i ∧ Hires s i c order w s')
  | done (i : PartyId) (w : CopyWork) (result : Except FileError Unit) (ha : a = .move i)
      (hi : s.copyWork? i = some w)
      (hrun : (FileAction.copyOutside lockName w.source w.target).run s.tree = (result, s'.tree))
      (hworks : s'.copyWork? =
        Function.update s.copyWork? i (some { w with result := some result }))

theorem WorksEffect.of_one {old new : Party} (hi : s.parties[i]? = some old)
    (hold : old.copyWork? = none) (hnew : new.copyWork? = none)
    (h : s'.parties = s.parties.set i new) : WorksEffect s a s' :=
  .keep (look_set_of_none _ hi hold hnew h)

theorem WorksEffect.of_build {b : Build} (hi : s.parties[i]? = some (.build b))
    (h : BuildEffect s i b s') : WorksEffect s a s' := by
  cases h with
  | work stage _ _ hparties => exact .of_one hi rfl rfl hparties
  | settle o _ _ _ hparties => exact .of_one hi rfl rfl hparties
  | tell o _ hparties => exact .of_one hi rfl rfl hparties

theorem worksEffect_of_call (hi : s.parties[i]? = some (.call c)) (h : s.moveCall? i c = some s') :
    WorksEffect s (.move i) s' := by
  obtain ⟨p, hp, hturn⟩ := moveCall?_turn h
  have hset : ∀ {c'}, s'.parties = s.parties.set i (.call c') → WorksEffect s (.move i) s' :=
    fun hparties => .of_one hi rfl rfl hparties
  -- a step towards the locks leaves the list of parties alone
  have hgrips : ∀ {grip step s₁ c'}, GripTurn s c.package p i grip step → step.site? = some s₁ →
      s'.parties = s₁.parties.set i (.call c') → WorksEffect s (.move i) s' :=
    fun hgrip hsite hparties => hset ((gripTurn_frame hgrip hsite).1 ▸ hparties)
  generalize hstage : c.stage = stage at hturn
  cases hturn with
  | ask allowance =>
    have hform := s.demandForm c.package p
    generalize s.demand c.package p = d at hset hform ⊢
    cases hform with
    | settled o =>
      rw [answerDemand, afterOutcome_eq] at hset ⊢
      exact hset rfl
    | joined n => exact hset rfl
    | scheduled start hdue hclock =>
      exact .keep (look_concat_set_of_nones _ hi rfl rfl rfl rfl)
    | offTheClock => exact hset rfl
  | get _ allowance n o =>
    rw [afterOutcome_eq] at hset ⊢
    exact hset rfl
  | approach allowance order grip grip' s₁ hgrip => exact hgrips hgrip rfl rfl
  | enter allowance order grip s₁ hgrip =>
    have hparties : ∀ {s₂ : Site}, s₂.parties = (s₁.parties ++
        [Party.copyWork ⟨p.directory, order.destination, none⟩]).set i
          (.call { c with stage := .copying allowance order s₁.parties.length }) →
        WorksEffect s (.move i) s₂ := by
      intro s₂ hparties
      rw [(gripTurn_frame hgrip rfl).1] at hparties
      exact .enter _ rfl (look_concat_set_of_none _ hi rfl rfl hparties)
        ⟨i, c, order, rfl, call?_eq_some.mpr hi, ⟨allowance, grip, hstage⟩, ⟨p, hp, rfl⟩,
          ⟨allowance, call?_of_concat_set hi rfl hparties⟩⟩
    exact hparties rfl
  | expire allowance order grip s₁ e hgrip => exact hgrips hgrip rfl rfl
  | fail allowance order grip s₁ e hgrip => exact hgrips hgrip rfl rfl
  | finish allowance order worker result => cases result <;> exact hset rfl
  | _ => exact hset rfl

theorem moveCopy?_of_run {result : Except FileError Unit} {tree : FileTree} (hnone : w.result = none)
    (hrun : (FileAction.copyOutside lockName w.source w.target).run s.tree = (result, tree))
    (i : PartyId) : s.moveCopy? i w =
      some ({ s with tree }.setParty i (.copyWork { w with result := some result })) := by
  rw [moveCopy?, hnone, onTree, hrun]

theorem act?_works (h : s.act? a = some s') : WorksEffect s a s' := by
  cases act?_turn h with
  | build i b _ hi h => exact .of_build hi (moveBuild?_effect h)
  | call i c _ hi h => exact worksEffect_of_call hi h
  | copy i w result tree hi hnone hrun =>
    exact .done i w result rfl (copyWork?_eq_some.mpr hi) hrun
      (look_set Party.copyWork? hi (parties_setParty _ i _))
  | depart i o hi => exact .of_one hi rfl rfl rfl
  | cancel i c allowance hi => exact .of_one hi rfl rfl rfl
  | drop i b p hi => exact .of_one hi rfl rfl rfl
  | come => exact .keep (look_concat_of_none _ rfl rfl)
  | visit => exact .keep (look_concat_of_none _ rfl rfl)
  | dismiss i o hi => exact .of_one hi rfl rfl rfl
  | _ => exact .keep rfl

/-- A copy at work is for the same directories as long as it lasts. -/
theorem WorksEffect.copyWork? (h : WorksEffect s a s') (hi : s.copyWork? i = some w) :
    ∃ w', s'.copyWork? i = some w' ∧ w'.source = w.source ∧ w'.target = w.target := by
  cases h with
  | keep hworks => exact ⟨w, hworks ▸ hi, rfl, rfl⟩
  | enter new _ hworks =>
    have hne : i ≠ s.parties.length := by
      rintro rfl
      cases hi.symm.trans (look_of_length_le _ (Nat.le_refl _))
    exact ⟨w, by rw [hworks, Function.update_of_ne hne, hi], rfl, rfl⟩
  | done j old result _ hj _ hworks =>
    by_cases hij : i = j
    · subst hij
      obtain rfl := Option.some.inj (hi.symm.trans hj)
      exact ⟨{ w with result := some result }, by rw [hworks, Function.update_self], rfl, rfl⟩
    · exact ⟨w, by rw [hworks, Function.update_of_ne hij, hi], rfl, rfl⟩

/-- In a run, party `i` copies a directory into another one without a fault, which leads from `s₀` to
`s₁`. -/
structure Copies (start : Site) (before : List Act) (i : PartyId) (source target : Path)
    (s₀ s₁ : Site) : Prop where
  run : start.run? before = some s₀
  worker : ∃ w, s₀.copyWork? i = some w ∧ w.source = source ∧ w.target = target
  act : s₀.act? (.move i) = some s₁
  copied : (FileAction.copyOutside lockName source target).run s₀.tree = (.ok (), s₁.tree)

/-- In a run, a directory has been copied into another one without a fault. -/
def HasBeenCopied (start : Site) (acts : List Act) (source target : Path) : Prop :=
  ∃ before i rest s₀ s₁, acts = before ++ .move i :: rest ∧
    Copies start before i source target s₀ s₁

theorem HasBeenCopied.concat (h : HasBeenCopied start acts source target) (a : Act) :
    HasBeenCopied start (acts ++ [a]) source target := by
  obtain ⟨before, i, rest, s₀, s₁, rfl, hcopies⟩ := h
  exact ⟨before, i, rest ++ [a], s₀, s₁, by simp, hcopies⟩

/-- In a run, party `i` copies a directory to another one and comes to `result`, all in the act from `s₀`
to `s₁`. -/
structure CarriesOut (start : Site) (before : List Act) (i : PartyId) (source target : Path)
    (result : Except FileError Unit) (s₀ s₁ : Site) : Prop where
  run : start.run? before = some s₀
  worker : ∃ w, s₀.copyWork? i = some w ∧ w.source = source ∧ w.target = target
  act : s₀.act? (.move i) = some s₁
  copied : (FileAction.copyOutside lockName source target).run s₀.tree = (result, s₁.tree)

/-- A worker that has come to something has come to it in one act of the run. -/
theorem carriesOut_of_run {result : Except FileError Unit}
    (hstart : ∀ w, start.copyWork? i = some w → w.result = none) (hrun : start.run? acts = some s)
    (hi : s.copyWork? i = some w) (hresult : w.result = some result) :
    ∃ before rest s₀ s₁, acts = before ++ .move i :: rest ∧
      CarriesOut start before i w.source w.target result s₀ s₁ := by
  refine run?_induction (P := fun acts s => ∀ {w}, s.copyWork? i = some w → w.result = some result →
    ∃ before rest s₀ s₁, acts = before ++ .move i :: rest ∧
      CarriesOut start before i w.source w.target result s₀ s₁)
    (fun {w} hi hresult => ?_) (fun {acts s a s'} hbefore h ih w hi hresult => ?_) hrun hi hresult
  · cases (hstart w hi).symm.trans hresult
  · have hkeep : s.copyWork? i = some w → ∃ before rest s₀ s₁, acts ++ [a] = before ++ .move i :: rest ∧
        CarriesOut start before i w.source w.target result s₀ s₁ := by
      intro hi
      obtain ⟨before, rest, s₀, s₁, rfl, hcarries⟩ := ih hi hresult
      exact ⟨before, rest ++ [a], s₀, s₁, by simp, hcarries⟩
    cases act?_works h with
    | keep hworks => exact hkeep (hworks ▸ hi)
    | enter new hnone hworks =>
      rw [hworks, Function.update_apply] at hi
      split at hi
      · rw [Option.some.inj hi] at hnone
        cases hnone.symm.trans hresult
      · exact hkeep hi
    | done j old r ha hj hcopy hworks =>
      rw [hworks, Function.update_apply] at hi
      split at hi
      · rename_i hij
        subst hij ha
        obtain rfl := (Option.some.inj hi).symm
        obtain rfl := Option.some.inj hresult
        exact ⟨acts, [], s, s', rfl, hbefore, ⟨old, hj, rfl, rfl⟩, h, hcopy⟩
      · exact hkeep hi

/-- A copy that says that it has gone well has gone well. -/
theorem hasBeenCopied_of_run (hstart : ∀ i, start.copyWork? i = none) (hrun : start.run? acts = some s)
    (hi : s.copyWork? i = some w) (hresult : w.result = some (.ok ())) :
    HasBeenCopied start acts w.source w.target := by
  obtain ⟨before, rest, s₀, s₁, rfl, hrun, hworker, hact, hcopied⟩ := carriesOut_of_run
    (fun w hw => by cases (hstart i).symm.trans hw) hrun hi hresult
  exact ⟨before, i, rest, s₀, s₁, rfl, hrun, hworker, hact, hcopied⟩

/-! ## 2. Orders -/

/-- How a caller gets on with the copy that it has ordered. -/
inductive OrderStep (s : Site) (c : Call) (s' : Site) : CallStage → Prop where
  | other (stage : CallStage) (h : isOnCopy stage = false)
      (hgrip : ∀ allowance order grip, stage ≠ .gripping allowance order grip) : OrderStep s c s' stage
  | want (allowance : Budget.Allowance) (order : CopyOrder) (h : c.wish = .copy order) :
      OrderStep s c s' (.gripping allowance order .wanted)
  | near (allowance : Budget.Allowance) (order : CopyOrder) (grip grip' : Grip)
      (h : c.stage = .gripping allowance order grip) :
      OrderStep s c s' (.gripping allowance order grip')
  | start (allowance : Budget.Allowance) (order : CopyOrder) (grip : Grip) (p : Package)
      (h : c.stage = .gripping allowance order grip) (hp : s.package? c.package = some p)
      (hworker : s'.copyWork? s.parties.length = some ⟨p.directory, order.destination, none⟩) :
      OrderStep s c s' (.copying allowance order s.parties.length)
  | finish (allowance : Budget.Allowance) (order : CopyOrder) (worker : PartyId) (p : Package)
      (k : PackageId) (t : Instant) (h : c.stage = .copying allowance order worker)
      (hp : s.package? c.package = some p) (hresult : s.copyResult? worker = some (.ok ()))
      (hcopy : s'.package? k = some (p.copyTo order.name order.destination)) :
      OrderStep s c s' (.answered t (.ok (.copied k)))

/-- Whether the caller is after the locks for a copy. -/
def isGripping : CallStage → Bool
  | .gripping .. => true
  | _ => false

theorem OrderStep.of_next {stage : CallStage} (h : (isOnCopy stage || isGripping stage) = false) :
    OrderStep s c s' stage := by
  obtain ⟨honCopy, hgripping⟩ := Bool.or_eq_false_iff.mp h
  refine .other stage honCopy ?_
  rintro allowance order grip rfl
  cases hgripping

theorem OrderStep.of_after (allowance : Budget.Allowance) (t : Instant) (o : Outcome) :
    OrderStep s c s' (c.after allowance t o) := by
  obtain ⟨id, start, terms, wish, stage⟩ := c
  cases o with
  | error e => exact .of_next rfl
  | ok artifact =>
    cases wish with
    | ready => exact .of_next rfl
    | copy order => exact .want allowance order rfl

theorem orderStep_of_move (hi : s.call? i = some c) (h : s.act? (.move i) = some s') :
    ∃ stage, s'.call? i = some { c with stage } ∧ OrderStep s c s' stage := by
  have hparty : s.parties[i]? = some (.call c) := call?_eq_some.mp hi
  rw [act?, hparty] at h
  obtain ⟨p, hp, hturn⟩ := moveCall?_turn h
  have hset : ∀ {stage}, s'.parties = s.parties.set i (.call { c with stage }) →
      OrderStep s c s' stage → ∃ stage, s'.call? i = some { c with stage } ∧ OrderStep s c s' stage :=
    fun hparties hstep => ⟨_, call?_of_set hparty hparties, hstep⟩
  -- a step towards the locks leaves the list of parties alone
  have hgrips : ∀ {grip step s₁ stage}, GripTurn s c.package p i grip step →
      step.site? = some s₁ → s'.parties = s₁.parties.set i (.call { c with stage }) →
      OrderStep s c s' stage → ∃ stage, s'.call? i = some { c with stage } ∧ OrderStep s c s' stage :=
    fun hgrip hsite hparties => hset ((gripTurn_frame hgrip hsite).1 ▸ hparties)
  generalize hstage : c.stage = old at hturn
  cases hturn with
  | ask allowance =>
    have hform := s.demandForm c.package p
    generalize s.demand c.package p = d at hset hform ⊢
    cases hform with
    | settled o =>
      rw [answerDemand, afterOutcome_eq] at hset ⊢
      exact hset rfl (.of_after _ _ _)
    | joined n => exact hset rfl (.of_next rfl)
    | scheduled start hdue hclock =>
      exact ⟨.joining allowance s.parties.length, call?_of_concat_set hparty rfl rfl,
        .of_next rfl⟩
    | offTheClock => exact hset rfl (.of_next rfl)
  | get _ allowance n o =>
    rw [afterOutcome_eq] at hset ⊢
    exact hset rfl (.of_after _ _ _)
  | approach allowance order grip grip' s₁ hgrip =>
    exact hgrips hgrip rfl rfl (.near allowance order grip grip' hstage)
  | enter allowance order grip s₁ hgrip =>
    have hframe := (gripTurn_frame hgrip rfl).1
    have henter : ∀ {s₂ : Site}, s₂.parties = (s₁.parties ++
        [Party.copyWork ⟨p.directory, order.destination, none⟩]).set i
          (.call { c with stage := .copying allowance order s₁.parties.length }) →
        ∃ stage, s₂.call? i = some { c with stage } ∧ OrderStep s c s₂ stage := by
      intro s₂ hparties
      rw [hframe] at hparties
      have hworks : s₂.copyWork? = Function.update s.copyWork? s.parties.length
          (some ⟨p.directory, order.destination, none⟩) :=
        look_concat_set_of_none _ hparty rfl rfl hparties
      exact ⟨_, call?_of_concat_set hparty rfl hparties,
        .start allowance order grip p hstage hp (by rw [hworks, Function.update_self])⟩
    exact henter rfl
  | expire allowance order grip s₁ e hgrip => exact hgrips hgrip rfl rfl (.of_next rfl)
  | fail allowance order grip s₁ e hgrip => exact hgrips hgrip rfl rfl (.of_next rfl)
  | finish allowance order worker result hresult =>
    cases result with
    | error e => exact hset rfl (.of_next rfl)
    | ok _ =>
      refine hset rfl (.finish allowance order worker p _ _ hstage hp hresult ?_)
      exact List.getElem?_concat_length
  | _ => exact hset rfl (.of_next rfl)

/-- What there is of the copy that a caller has ordered. -/
structure OrderPast (start : Site) (acts : List Act) (s : Site) (c : Call) : Prop where
  wanted : ∀ allowance order grip, c.stage = .gripping allowance order grip → c.wish = .copy order
  works : ∀ allowance order worker, c.stage = .copying allowance order worker →
    c.wish = .copy order ∧ ∃ p w, s.package? c.package = some p ∧ s.copyWork? worker = some w ∧
      w.source = p.directory ∧ w.target = order.destination
  copied : ∀ t k, c.stage = .answered t (.ok (.copied k)) → ∃ order p copy, c.wish = .copy order ∧
    s.package? c.package = some p ∧ s.package? k = some copy ∧
    copy.asFounded = p.copyTo order.name order.destination ∧
    HasBeenCopied start acts p.directory order.destination

namespace OrderPast

theorem of_other (h : isOnCopy c.stage = false)
    (hgrip : ∀ allowance order grip, c.stage ≠ .gripping allowance order grip) :
    OrderPast start acts s c where
  wanted allowance order grip hstage := absurd hstage (hgrip allowance order grip)
  works allowance order worker hstage := by
    rw [hstage] at h
    cases h
  copied t k hstage := by
    rw [hstage] at h
    cases h

/-- Packages keep their directories, and so does a copy at work. -/
theorem concat (hpast : OrderPast start acts s c) (h : s.act? a = some s') :
    OrderPast start (acts ++ [a]) s' c where
  wanted := hpast.wanted
  works allowance order worker hstage := by
    obtain ⟨hwish, p, w, hp, hw, hsource, htarget⟩ := hpast.works allowance order worker hstage
    obtain ⟨p', hp', hfounded⟩ := package?_founded (act?_founded h) hp
    obtain ⟨w', hw', hsource', htarget'⟩ := (act?_works h).copyWork? hw
    obtain ⟨hdirectory, -⟩ := Package.kept_of_asFounded hfounded
    refine ⟨hwish, p', w', hp', hw', ?_, htarget'.trans htarget⟩
    rw [hsource', hsource, hdirectory]
  copied t k hstage := by
    obtain ⟨order, p, copy, hwish, hp, hk, hcopy, hmade⟩ := hpast.copied t k hstage
    obtain ⟨p', hp', hfounded⟩ := package?_founded (act?_founded h) hp
    obtain ⟨copy', hk', hfounded'⟩ := package?_founded (act?_founded h) hk
    obtain ⟨hdirectory, hsame⟩ := Package.kept_of_asFounded hfounded
    refine ⟨order, p', copy', hwish, hp', hk', ?_, hdirectory ▸ hmade.concat a⟩
    rw [hfounded', hcopy, hsame]

theorem withAllowance (hpast : OrderPast start acts s c) (allowance : Budget.Allowance) :
    OrderPast start acts s { c with stage := c.stage.withAllowance allowance } := by
  obtain ⟨id, time, terms, wish, stage⟩ := c
  cases stage with
  | gripping a order grip =>
    refine ⟨fun _ _ _ hstage => ?_, nofun, nofun⟩
    cases hstage
    exact hpast.wanted a order grip rfl
  | copying a order worker =>
    refine ⟨nofun, fun _ _ _ hstage => ?_, nofun⟩
    cases hstage
    exact hpast.works a order worker rfl
  | answered t answer => exact hpast
  | _ => exact of_other rfl nofun

theorem of_step (hstart : ∀ i, start.copyWork? i = none) (hrun : start.run? acts = some s)
    (h : s.act? a = some s') (hpast : OrderPast start acts s c) (hstep : OrderStep s c s' stage) :
    OrderPast start (acts ++ [a]) s' { c with stage } := by
  cases hstep with
  | other stage hother hgrip => exact of_other hother hgrip
  | want allowance order hwish =>
    refine ⟨fun _ _ _ hstage => ?_, nofun, nofun⟩
    cases hstage
    exact hwish
  | near allowance order grip grip' hold =>
    refine ⟨fun _ _ _ hstage => ?_, nofun, nofun⟩
    cases hstage
    exact hpast.wanted allowance order grip hold
  | start allowance order grip p hold hp hworker =>
    refine ⟨nofun, fun _ _ _ hstage => ?_, nofun⟩
    cases hstage
    obtain ⟨p', hp', hfounded⟩ := package?_founded (act?_founded h) hp
    obtain ⟨hdirectory, -⟩ := Package.kept_of_asFounded hfounded
    exact ⟨hpast.wanted allowance order grip hold, p', _, hp', hworker, hdirectory.symm, rfl⟩
  | finish allowance order worker p k t hold hp hresult hcopy =>
    refine ⟨nofun, nofun, fun _ _ hstage => ?_⟩
    cases hstage
    obtain ⟨hwish, q, w, hq, hw, hsource, htarget⟩ := hpast.works allowance order worker hold
    obtain rfl := Option.some.inj (hp.symm.trans hq)
    obtain ⟨w', hw', hdone⟩ := copyResult?_eq_some hresult
    obtain rfl := Option.some.inj (hw.symm.trans hw')
    -- the worker was given the directory of the package and the destination of the order
    have hmade := (hasBeenCopied_of_run hstart hrun hw hdone).concat a
    rw [hsource, htarget] at hmade
    obtain ⟨p', hp', hfounded⟩ := package?_founded (act?_founded h) hp
    obtain ⟨hdirectory, hsame⟩ := Package.kept_of_asFounded hfounded
    refine ⟨order, p', _, hwish, hp', hcopy, ?_, hdirectory ▸ hmade⟩
    rw [hsame]
    rfl

end OrderPast

theorem orderPast_of_run (hcalls : ∀ i, start.call? i = none) (hworks : ∀ i, start.copyWork? i = none)
    (hrun : start.run? acts = some s) (hi : s.call? i = some c) : OrderPast start acts s c := by
  refine call?_induction (P := fun acts s c => OrderPast start acts s c) (hcalls i)
    (fun hcoming => ?_) (fun {acts s a s' c c'} hbefore hold h hchange hi hpast => ?_) hrun hi
  · exact .of_other (by rw [hcoming]; rfl) (by rw [hcoming]; exact nofun)
  · cases hchange with
    | keep => exact hpast.concat h
    | cancel allowance => exact (hpast.concat h).withAllowance allowance
    | move stage ha =>
      subst ha
      obtain ⟨stage', hcall, hstep⟩ := orderStep_of_move hold h
      obtain rfl : stage = stage' := congrArg Call.stage (Option.some.inj (hi.symm.trans hcall))
      exact hpast.of_step hworks hbefore h hstep

end Site

end Playground
