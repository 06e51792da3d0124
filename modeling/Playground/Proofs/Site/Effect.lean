import Mathlib.Data.List.Basic
import Playground.Proofs.Site.Turns
/-!
# What a move of a party changes

Moves do many things to the file tree, the locks and the builders.  For the course of builds and
calls it matters only what becomes of the parties and of the lifecycles of the packages, and that is
said here once for each kind of party.
-/

namespace Playground

/-- What a settled phase came to. -/
def Phase.outcome? : Phase → Option Outcome
  | ready a => some (.ok a)
  | faulted e => some (.error e)
  | _ => none

/-- Whether a demand makes a new build: there is none under way, and what the last one came to is
there no more or out of date. -/
structure Lifecycle.IsDue (l : Lifecycle) : Prop where
  idle : ∀ b, l.phase ≠ .building b
  stale : ∀ o, l.phase.outcome? = some o → l.dirty = true

/-- What a demand can lead to. -/
inductive DemandResult (l : Lifecycle) (new : BuildId) : Lifecycle × Demand → Prop where
  | settled (o : Outcome) (ho : l.phase.outcome? = some o) (hclean : l.dirty = false) :
      DemandResult l new (l, .settled o)
  | joined (b : BuildId) (hb : l.phase = .building b) : DemandResult l new (l, .joined b)
  | scheduled (start : Instant) (hdue : l.IsDue) :
      DemandResult l new
        (⟨.building new, false, some start, false⟩, .scheduled new start l.mayRestore)
  | offTheClock (hdue : l.IsDue) :
      DemandResult l new ({ l with phase := .notReady }, .offTheClock)

theorem Lifecycle.demandResult_schedule (l : Lifecycle) (rebuild : Rebuild) (now : Instant)
    (new : BuildId) (hdue : l.IsDue) :
    DemandResult l new (({ l with phase := .notReady } : Lifecycle).schedule rebuild now new) := by
  unfold schedule
  split
  · exact .offTheClock hdue
  · exact .scheduled _ hdue

theorem Lifecycle.demandResult_demand (l : Lifecycle) (rebuild : Rebuild) (now : Instant)
    (new : BuildId) : DemandResult l new (l.demand rebuild now new) := by
  unfold demand
  cases hphase : l.phase with
  | notReady =>
    have hdue : l.IsDue := by
      constructor
      · intro b h
        cases hphase.symm.trans h
      · intro o h
        rw [hphase] at h
        cases h
    have h := l.demandResult_schedule rebuild now new hdue
    rw [← hphase] at h
    exact h
  | building b => exact .joined b hphase
  | ready a =>
    dsimp only
    split
    · rename_i hdirty
      refine l.demandResult_schedule rebuild now new ⟨fun b h => ?_, fun _ _ => hdirty⟩
      cases hphase.symm.trans h
    · exact .settled _ (by rw [hphase]; rfl) (eq_false_of_ne_true ‹_›)
  | faulted e =>
    dsimp only
    split
    · rename_i hdirty
      refine l.demandResult_schedule rebuild now new ⟨fun b h => ?_, fun _ _ => hdirty⟩
      cases hphase.symm.trans h
    · exact .settled _ (by rw [hphase]; rfl) (eq_false_of_ne_true ‹_›)

/-- Whether a build has not settled its package yet. -/
def Build.isOpen (b : Build) : Bool :=
  match b.stage with
  | .telling _ => false
  | .ended _ => false
  | _ => true

/-- The budget that a build runs under, which it gets when it sets out for the locks. -/
def BuildStage.budget? : BuildStage → Option Budget
  | gripping budget _ => some budget
  | restoring budget => some budget
  | clearing budget => some budget
  | invoking budget => some budget
  | working budget _ _ => some budget
  | _ => none

/-- Where an outcome takes a caller. -/
def Call.after (c : Call) (a : Budget.Allowance) (t : Instant) (o : Outcome) : CallStage :=
  match o, c.wish with
  | .error e, _ => .answered t (.error e)
  | .ok artifact, .ready => .answered t (.ok (.artifact artifact))
  | .ok _, .copy order => .gripping a order .wanted

/-- Whether a caller has got as far as copying the package. -/
def CallStage.isCopy : CallStage → Bool
  | gripping .. => true
  | copying .. => true
  | _ => false

theorem CallStage.build?_withAllowance (stage : CallStage) (a : Budget.Allowance) :
    (stage.withAllowance a).build? = stage.build? := by
  cases stage <;> rfl

theorem Call.after_ready {c : Call} (h : c.wish = .ready) (a : Budget.Allowance) (t : Instant)
    (o : Outcome) : c.after a t o = .answered t (o.map .artifact) := by
  unfold after
  rw [h]
  cases o <;> rfl

theorem Call.eq_error_of_after {c : Call} {a : Budget.Allowance} {t u : Instant} {o : Outcome}
    {e : PackageError} (h : c.after a t o = .answered u (.error e)) : o = .error e := by
  obtain ⟨_, _, _, wish, _⟩ := c
  cases o with
  | error e' => exact congrArg _ (Except.error.inj (CallStage.answered.inj h).2)
  | ok artifact => cases wish <;> cases h

theorem CallStage.build?_of_isCopy {stage : CallStage} (h : stage.isCopy = true) :
    stage.build? = none := by
  cases stage with
  | gripping => rfl
  | copying => rfl
  | _ => cases h

/-- Where a view of the entries changes by `f`, the list of the views changes by `f` too. -/
theorem map_modify {α β : Type} {g : α → β} {change : α → α} {f : β → β}
    (h : ∀ a, g (change a) = f (g a)) (l : List α) (n : Nat) :
    (l.modify n change).map g = (l.map g).modify n f := by
  refine List.ext_getElem? fun m => ?_
  rw [List.getElem?_map, List.getElem?_modify, List.getElem?_modify, List.getElem?_map]
  cases l[m]? with
  | none => rfl
  | some a =>
    by_cases hm : n = m
    · simp [hm, h]
    · simp [hm]

namespace Site

variable {s s' : Site} {i : PartyId}

/-! ## 1. Frames -/

/-- The lifecycles of the packages, in order. -/
def lives (s : Site) : List Lifecycle := s.packages.map (·.lifecycle)

/-- Neither the parties nor the lifecycles have changed. -/
structure Same (s s' : Site) : Prop where
  parties : s'.parties = s.parties
  lives : s'.lives = s.lives

theorem Same.refl (s : Site) : Same s s := ⟨rfl, rfl⟩

theorem Same.trans {s₁ s₂ s₃ : Site} (h : Same s₁ s₂) (h' : Same s₂ s₃) : Same s₁ s₃ :=
  ⟨h'.parties.trans h.parties, h'.lives.trans h.lives⟩

@[simp] theorem parties_setParty (s : Site) (i : PartyId) (party : Party) :
    (s.setParty i party).parties = s.parties.set i party := rfl

@[simp] theorem lives_setParty (s : Site) (i : PartyId) (party : Party) :
    (s.setParty i party).lives = s.lives := rfl

theorem lives_getElem? (s : Site) (id : PackageId) :
    s.lives[id]? = (s.package? id).map (·.lifecycle) := List.getElem?_map

theorem lt_length_lives {id : PackageId} {p : Package} (h : s.package? id = some p) :
    id < s.lives.length := by
  rw [lives, List.length_map]
  exact (List.getElem?_eq_some_iff.mp h).1

theorem lives_updatePackage (s : Site) (id : PackageId) {change : Package → Package}
    {f : Lifecycle → Lifecycle} (h : ∀ p, (change p).lifecycle = f p.lifecycle) :
    (s.updatePackage id change).lives = s.lives.modify id f := map_modify h s.packages id

/-- A lifecycle that is written where it stands already changes nothing. -/
theorem lives_modify_self {id : PackageId} {p : Package} (hp : s.package? id = some p) :
    s.lives.modify id (fun _ => p.lifecycle) = s.lives := by
  have hl : s.lives[id]? = some p.lifecycle := by rw [lives_getElem?, hp]; rfl
  obtain ⟨hlt, hget⟩ := List.getElem?_eq_some_iff.mp hl
  rw [← hget, List.modify_eq_set_get _ hlt]
  exact List.set_getElem_self hlt

/-- What is written to the lifecycle of one package depends on that lifecycle only. -/
theorem lives_modify_const {id : PackageId} {p : Package} (hp : s.package? id = some p)
    (f : Lifecycle → Lifecycle) :
    s.lives.modify id (fun _ => f p.lifecycle) = s.lives.modify id f := by
  refine List.ext_getElem? fun n => ?_
  rw [List.getElem?_modify, List.getElem?_modify]
  by_cases hn : id = n
  · rw [← hn, lives_getElem?, hp]
    rfl
  · simp [hn]

theorem same_updatePackage (s : Site) (id : PackageId) {change : Package → Package}
    (h : ∀ p, (change p).lifecycle = p.lifecycle) : Same s (s.updatePackage id change) := by
  refine ⟨rfl, ?_⟩
  rw [lives_updatePackage s id (f := fun l => l) h]
  exact List.modify_id id s.lives

theorem same_release (s : Site) (id : PackageId) (i : PartyId) : Same s (s.release id i) := by
  have h : Same s (s.updatePackage id fun p => { p with lock := p.lock.leave i }) :=
    same_updatePackage s id fun _ => rfl
  exact ⟨h.parties, h.lives⟩

theorem same_onTree {α : Type} (s : Site) (a : FileAction α) : Same s (s.onTree a).2 := ⟨rfl, rfl⟩

theorem same_mark (s : Site) (p : Package) (a : Artifact) : Same s (s.mark p a) := by
  unfold mark
  split
  · exact same_onTree _ _
  · exact .refl s

theorem same_counted (s : Site) (id : PackageId) : Same s (s.counted id) :=
  same_updatePackage s id fun _ => rfl

/-- A step towards the locks changes locks and files only. -/
theorem GripTurn.same {id : PackageId} {p : Package} {grip : Grip} {step : GripStep}
    (h : GripTurn s id p i grip step) (hsite : step.site? = some s') : Same s s' := by
  cases h with
  | enter =>
    cases hsite
    exact same_updatePackage s id fun _ => rfl
  | failed grip e =>
    cases hsite
    exact same_release s id i
  | stay => cases hsite
  | _ =>
    cases hsite
    exact ⟨rfl, rfl⟩

/-! ## 2. Builds -/

/-- An outcome that is no overrun of a budget. -/
def NoOverrun (o : Outcome) : Prop := ∀ e, o ≠ .error (.budget e)

theorem noOverrun_ofBuild (name : String) (o : Outcome) :
    NoOverrun (o.mapError (.ofBuild name)) := by
  intro e h
  cases o with
  | ok a => cases h
  | error reason => cases reason <;> cases h

/-- A build that goes on to a stage keeps its budget there, or gets the one that its package allows.
-/
def KeepsTime (s : Site) (b : Build) (stage : BuildStage) : Prop :=
  ∀ budget, stage.budget? = some budget → b.stage.budget? = some budget ∨
    ∃ p, s.package? b.package = some p ∧ budget = .withTimeout s.now p.options.buildTimeout

/-- What a move of a build `b` with number `i` changes. -/
inductive BuildEffect (s : Site) (i : PartyId) (b : Build) (s' : Site) : Prop where
  | work (stage : BuildStage) (hopen : b.isOpen = true)
      (hstage : ({ b with stage } : Build).isOpen = true)
      (hparties : s'.parties = s.parties.set i (.build { b with stage }))
      (hlives : s'.lives = s.lives) (htime : KeepsTime s b stage)
  | settle (o : Outcome) (hopen : b.isOpen = true) (hknown : b.package < s.lives.length)
      (ho : NoOverrun o)
      (hparties : s'.parties = s.parties.set i (.build { b with stage := .telling o }))
      (hlives : s'.lives = s.lives.modify b.package (·.publish o))
  | tell (o : Outcome) (hstage : b.stage = .telling o)
      (hparties : s'.parties = s.parties.set i (.build { b with stage := .ended o }))
      (hlives : s'.lives = s.lives)

variable {b : Build} {p : Package}

theorem BuildEffect.of_stage {s₁ : Site} (hsame : Same s s₁) {stage : BuildStage}
    (hopen : b.isOpen = true) (hstage : ({ b with stage } : Build).isOpen = true)
    (htime : KeepsTime s b stage) :
    BuildEffect s i b (s₁.setParty i (.build { b with stage })) := by
  refine .work stage hopen hstage ?_ ?_ htime
  · rw [parties_setParty, hsame.parties]
  · rw [lives_setParty, hsame.lives]

theorem KeepsTime.of_eq {stage : BuildStage} (h : stage.budget? = b.stage.budget?) :
    KeepsTime s b stage := fun _ hbudget => .inl (h ▸ hbudget)

theorem KeepsTime.of_none {stage : BuildStage} (h : stage.budget? = none) :
    KeepsTime s b stage := by
  intro budget hbudget
  rw [h] at hbudget
  cases hbudget

theorem BuildEffect.of_publish {s₁ : Site} (hsame : Same s s₁) (hopen : b.isOpen = true)
    (hknown : b.package < s.lives.length) (o : Outcome) :
    BuildEffect s i b (s₁.publish i b p o) := by
  refine .settle (o.mapError (.ofBuild p.name)) hopen hknown (noOverrun_ofBuild _ _) ?_ ?_
  · rw [publish, parties_setParty, ← hsame.parties]
    rfl
  · rw [publish, lives_setParty, ← hsame.lives]
    exact lives_updatePackage s₁ b.package fun _ => rfl

theorem BuildEffect.of_conclude {s₁ : Site} (hsame : Same s s₁) (hopen : b.isOpen = true)
    (hknown : b.package < s.lives.length) (o : Outcome) :
    BuildEffect s i b (s₁.conclude i b p o) :=
  .of_publish (hsame.trans (same_release _ _ _)) hopen hknown o

/-- Up to `marking` the build is in flight, and only `telling` and `ended` come after it has settled its
package. -/
theorem BuildTurn.effect (hp : s.package? b.package = some p) (hset : b.stage ≠ .delayed)
    (h : BuildTurn s i b p b.stage s') : BuildEffect s i b s' := by
  have hknown : b.package < s.lives.length := lt_length_lives hp
  generalize hstage : b.stage = stage at hset h
  have hopen : ({ b with stage } : Build).isOpen = true → b.isOpen = true := by
    intro hopen
    rw [Build.isOpen, hstage]
    exact hopen
  have hkeeps : ∀ {stage'}, stage'.budget? = stage.budget? → KeepsTime s b stage' :=
    fun hbudget => .of_eq (hstage ▸ hbudget)
  cases h with
  | setOut => exact absurd rfl hset
  | approach budget grip grip' s₁ hgrip =>
    exact .of_stage (hgrip.same rfl) (hopen rfl) rfl (hkeeps rfl)
  | enter budget grip s₁ hgrip =>
    apply BuildEffect.of_stage (hgrip.same rfl) (hopen rfl)
    · split <;> rfl
    · apply hkeeps
      split <;> rfl
  | giveUp budget grip s₁ e hgrip => exact .of_publish (hgrip.same rfl) (hopen rfl) hknown _
  | takeOver => exact .of_conclude (.refl s) (hopen rfl) hknown _
  | distrust => exact .of_stage (.refl s) (hopen rfl) rfl (hkeeps rfl)
  | clear => exact .of_stage (same_onTree _ _) (hopen rfl) rfl (hkeeps rfl)
  | expire => exact .of_conclude (same_counted s b.package) (hopen rfl) hknown _
  | call budget log =>
    have hlogged : Same s ((s.counted b.package).logged p.builder log) :=
      (same_counted s b.package).trans ⟨rfl, rfl⟩
    exact .of_stage hlogged (hopen rfl) rfl (hkeeps rfl)
  | finish budget invocation since entry tree =>
    have hsame : Same s { s with tree } := ⟨rfl, rfl⟩
    exact .of_stage hsame (hopen rfl) rfl (.of_none rfl)
  | fail budget invocation since result tree =>
    have hsame : Same s { s with tree } := ⟨rfl, rfl⟩
    exact .of_conclude hsame (hopen rfl) hknown _
  | timeOut => exact .of_conclude (.refl s) (hopen rfl) hknown _
  | mark a => exact .of_conclude (same_mark s p a) (hopen rfl) hknown _
  | tell o => exact .tell o hstage rfl rfl

theorem moveBuild?_effect (h : s.moveBuild? i b = some s') : BuildEffect s i b s' := by
  obtain ⟨p, hp, hturn⟩ := moveBuild?_turn h
  by_cases hstage : b.stage = .delayed
  · -- only here does a build come to a budget
    have hopen : b.isOpen = true := by rw [Build.isOpen, hstage]
    rw [moveBuild?_delayed hp hstage (hasFired_of_moveBuild? h hstage)] at h
    rw [← Option.some.inj h]
    refine .of_stage (.refl s) hopen rfl fun budget hbudget => .inr ⟨p, hp, ?_⟩
    exact (Option.some.inj hbudget).symm
  · exact hturn.effect hp hstage

/-! ## 3. Calls -/

theorem afterOutcome_eq (s : Site) (i : PartyId) (c : Call) (a : Budget.Allowance) (o : Outcome) :
    s.afterOutcome i c a o = s.setParty i (.call { c with stage := c.after a s.now o }) := by
  obtain ⟨id, start, terms, wish, stage⟩ := c
  cases o with
  | error e => rfl
  | ok artifact => cases wish <;> rfl

/-- The stages that a caller can reach without anybody else noticing. -/
inductive NextStage (s : Site) (c : Call) : CallStage → Prop where
  | refuse (t : Instant) (e : Budget.Exceeded) (h : c.stage = .coming) :
      NextStage s c (.answered t (.error (.budget e)))
  | come (a : Budget.Allowance) (h : c.stage = .coming) : NextStage s c (.asking a)
  | settled (a : Budget.Allowance) (l : Lifecycle) (t : Instant) (o : Outcome)
      (h : c.stage = .asking a) (hl : s.lives[c.package]? = some l)
      (ho : l.phase.outcome? = some o) (hclean : l.dirty = false) : NextStage s c (c.after a t o)
  | join (a : Budget.Allowance) (l : Lifecycle) (b : BuildId) (h : c.stage = .asking a)
      (hl : s.lives[c.package]? = some l) (hb : l.phase = .building b) :
      NextStage s c (.joining a b)
  | wait (a : Budget.Allowance) (b : BuildId) (h : c.stage.build? = some b) :
      NextStage s c (.waiting a b)
  | giveUp (b : BuildId) (t : Instant) (e : Budget.Exceeded) (h : c.stage.build? = some b) :
      NextStage s c (.answered t (.error (.budget e)))
  | get (a : Budget.Allowance) (b : BuildId) (t : Instant) (o : Outcome)
      (h : c.stage.build? = some b) (ho : s.outcome? b = some o) : NextStage s c (c.after a t o)
  | copy (stage : CallStage) (h : c.stage.isCopy = true)
      (hstage : stage.isCopy = true ∨ ∃ t answer, stage = .answered t answer) :
      NextStage s c stage

/-- What a move of a call `c` with number `i` changes. -/
inductive CallEffect (s : Site) (i : PartyId) (c : Call) (s' : Site) : Prop where
  | next (stage : CallStage) (h : NextStage s c stage)
      (hparties : s'.parties = s.parties.set i (.call { c with stage }))
      (hlives : s'.lives = s.lives)
  | schedule (a : Budget.Allowance) (l : Lifecycle) (start : Instant) (restore : Bool)
      (h : c.stage = .asking a) (hl : s.lives[c.package]? = some l) (hdue : l.IsDue)
      (hparties : s'.parties =
        (s.parties ++ [Party.build ⟨c.package, start, restore, .delayed⟩]).set i
          (.call { c with stage := .joining a s.parties.length }))
      (hlives : s'.lives = s.lives.modify c.package fun _ =>
        ⟨.building s.parties.length, false, some start, false⟩)
  | offTheClock (a : Budget.Allowance) (l : Lifecycle) (h : c.stage = .asking a)
      (hl : s.lives[c.package]? = some l) (hdue : l.IsDue)
      (hparties : s'.parties = s.parties.set i (.call { c with stage := .offTheClock }))
      (hlives : s'.lives = s.lives.modify c.package fun _ => { l with phase := .notReady })
  | startCopy (stage : CallStage) (w : CopyWork) (h : c.stage.isCopy = true)
      (hstage : stage.isCopy = true)
      (hparties : s'.parties = (s.parties ++ [Party.copyWork w]).set i (.call { c with stage }))
      (hlives : s'.lives = s.lives)
  | finishCopy (t : Instant) (answer : Except PackageError Gain) (h : c.stage.isCopy = true)
      (hparties : s'.parties = s.parties.set i (.call { c with stage := .answered t answer }))
      (hlives : s'.lives = s.lives ++ [.fresh])

variable {c : Call}

theorem CallEffect.of_next {s₁ : Site} (hsame : Same s s₁) {stage : CallStage}
    (h : NextStage s c stage) : CallEffect s i c (s₁.setParty i (.call { c with stage })) := by
  refine .next stage h ?_ ?_
  · rw [parties_setParty, hsame.parties]
  · rw [lives_setParty, hsame.lives]

theorem CallEffect.of_afterOutcome {s₁ : Site} (hsame : Same s s₁) {a : Budget.Allowance}
    {o : Outcome} (h : NextStage s c (c.after a s₁.now o)) :
    CallEffect s i c (s₁.afterOutcome i c a o) := by
  rw [afterOutcome_eq]
  exact .of_next hsame h

theorem CallEffect.of_afterCopy {order : CopyOrder} {result : Except FileError Unit}
    (hcopy : c.stage.isCopy = true) : CallEffect s i c (s.afterCopy i c p order result) := by
  have hrelease := same_release s c.package i
  unfold afterCopy
  cases result with
  | error e => exact .of_next hrelease (.copy _ hcopy (.inr ⟨_, _, rfl⟩))
  | ok _ =>
    apply CallEffect.finishCopy _ _ hcopy rfl
    rw [← hrelease.lives]
    exact List.map_append

theorem CallEffect.of_demand {a : Budget.Allowance} (hp : s.package? c.package = some p)
    (hstage : c.stage = .asking a) :
    CallEffect s i c (answerDemand i c a (s.demand c.package p)) := by
  have hl : s.lives[c.package]? = some p.lifecycle := by rw [lives_getElem?, hp]; rfl
  have hupdate : ∀ l, (s.updatePackage c.package fun p => { p with lifecycle := l }).lives =
      s.lives.modify c.package fun _ => l := fun l => lives_updatePackage s c.package fun _ => rfl
  -- a demand that changes nothing writes the lifecycle back all the same
  have hsame : Same s (s.updatePackage c.package fun q => { q with lifecycle := p.lifecycle }) :=
    ⟨rfl, (hupdate _).trans (lives_modify_self hp)⟩
  have hresult := p.lifecycle.demandResult_demand p.options.rebuild s.now s.parties.length
  unfold demand
  generalize p.lifecycle.demand p.options.rebuild s.now s.parties.length = d at hresult ⊢
  cases hresult with
  | settled o ho hclean => exact .of_afterOutcome hsame (.settled a _ _ o hstage hl ho hclean)
  | joined b hb => exact .of_next hsame (.join a _ b hstage hl hb)
  | scheduled start hdue =>
    exact .schedule a _ start p.lifecycle.mayRestore hstage hl hdue rfl (hupdate _)
  | offTheClock hdue => exact .offTheClock a _ hstage hl hdue rfl (hupdate _)

theorem moveCall?_effect (h : s.moveCall? i c = some s') : CallEffect s i c s' := by
  obtain ⟨p, hp, hturn⟩ := moveCall?_turn h
  generalize hstage : c.stage = stage at hturn
  have hbuild : ∀ {n}, stage.build? = some n → c.stage.build? = some n := fun hn => hstage ▸ hn
  have hcopy : stage.isCopy = true → c.stage.isCopy = true := fun h => hstage ▸ h
  cases hturn with
  | come => exact .of_next (.refl s) (.come _ hstage)
  | refuse => exact .of_next (.refl s) (.refuse _ _ hstage)
  | ask => exact .of_demand hp hstage
  | wait _ a n hn => exact .of_next (.refl s) (.wait a n (hbuild hn))
  | get _ a n o hn ho => exact .of_afterOutcome (.refl s) (.get a n _ o (hbuild hn) ho)
  | giveUp _ n e hn => exact .of_next (.refl s) (.giveUp n _ _ (hbuild hn))
  | approach a order grip grip' s₁ hgrip =>
    exact .of_next (hgrip.same rfl) (.copy _ (hcopy rfl) (.inl rfl))
  | enter a order grip s₁ hgrip =>
    have hsame : Same s s₁ := hgrip.same rfl
    refine .startCopy (.copying a order s₁.parties.length) ⟨p.directory, order.destination, none⟩
      (hcopy rfl) rfl ?_ ?_
    · rw [parties_setParty, addParty, hsame.parties]
    · rw [lives_setParty, ← hsame.lives]
      rfl
  | expire a order grip s₁ e hgrip =>
    have hsame : Same s (s₁.release c.package i) := (hgrip.same rfl).trans (same_release _ _ _)
    exact .of_next hsame (.copy _ (hcopy rfl) (.inr ⟨_, _, rfl⟩))
  | fail a order grip s₁ e hgrip =>
    exact .of_next (hgrip.same rfl) (.copy _ (hcopy rfl) (.inr ⟨_, _, rfl⟩))
  | finish => exact .of_afterCopy (hcopy rfl)
  | abandon => exact .of_next (same_release _ _ _) (.copy _ (hcopy rfl) (.inr ⟨_, _, rfl⟩))

end Site

end Playground
