import Playground.Proofs.Site.Passage
import Playground.Proofs.Site.Turns
/-!
# Where parties stand

On its way to the locks of a package a party first stands in line for the package's own lock, then at
the door of the directory, and then it is inside.  Every act is read here as one step of one party
between these places, together with what it does to the locks and to the lock files.
-/

namespace Playground

/-- Where a party stands that holds a lock or waits for one. -/
inductive Standing where
  /-- In line for the lock of a package. -/
  | inLine (id : PackageId)
  /-- In possession of the package's lock, with the lock file of the directory once it is open. -/
  | atDoor (id : PackageId) (file : Option Nat)
  /-- In possession of both locks. -/
  | inside (id : PackageId)
  /-- In possession of the lock file of a directory, and of nothing else. -/
  | guest (directory : Path)
deriving DecidableEq

/-- The package whose lock the party has or waits for. -/
def Standing.package? : Standing → Option PackageId
  | inLine id => some id
  | atDoor id _ => some id
  | inside id => some id
  | guest _ => none

/-- Whether the party has a lock file. -/
def Standing.hasFile : Standing → Bool
  | inside _ => true
  | guest _ => true
  | _ => false

/-- Where a party stands on its way to the locks. -/
def Grip.standing? (id : PackageId) : Grip → Option Standing
  | wanted => none
  | queued => some (.inLine id)
  | opening => some (.atDoor id none)
  | trying file => some (.atDoor id (some file))
  | pausing file _ => some (.atDoor id (some file))

/-- Where a build stands. -/
def BuildStage.standing? (id : PackageId) : BuildStage → Option Standing
  | gripping _ grip => grip.standing? id
  | restoring _ => some (.inside id)
  | clearing _ => some (.inside id)
  | invoking _ => some (.inside id)
  | working .. => some (.inside id)
  | marking _ => some (.inside id)
  | _ => none

/-- Where a caller stands. -/
def CallStage.standing? (id : PackageId) : CallStage → Option Standing
  | gripping _ _ grip => grip.standing? id
  | copying .. => some (.inside id)
  | _ => none

/-- Where a party stands. -/
def Party.standing? : Party → Option Standing
  | build b => b.stage.standing? b.package
  | call c => c.stage.standing? c.package
  | copyWork _ => none
  | outsider o => if o.holds then some (.guest o.directory) else none

/-- The package as it was when it was founded. -/
def Package.asFounded (p : Package) : Package :=
  .fresh p.name p.directory p.builder p.options

theorem Grip.package?_of_standing? {grip : Grip} {id : PackageId} {st : Standing}
    (h : grip.standing? id = some st) : st.package? = some id := by
  cases grip <;> cases h <;> rfl

theorem BuildStage.package?_of_standing? {stage : BuildStage} {id : PackageId} {st : Standing}
    (h : stage.standing? id = some st) : st.package? = some id := by
  cases stage with
  | gripping _ grip => exact grip.package?_of_standing? h
  | _ => cases h <;> rfl

theorem CallStage.package?_of_standing? {stage : CallStage} {id : PackageId} {st : Standing}
    (h : stage.standing? id = some st) : st.package? = some id := by
  cases stage with
  | gripping _ _ grip => exact grip.package?_of_standing? h
  | _ => cases h <;> rfl

theorem CallStage.standing?_withAllowance (stage : CallStage) (a : Budget.Allowance)
    (id : PackageId) : (stage.withAllowance a).standing? id = stage.standing? id := by
  cases stage <;> rfl

theorem CallStage.standing?_of_build? {stage : CallStage} {n : BuildId} (h : stage.build? = some n)
    (id : PackageId) : stage.standing? id = none := by
  cases stage <;> first | rfl | cases h

theorem Call.standing?_after (c : Call) (a : Budget.Allowance) (t : Instant) (o : Outcome)
    (id : PackageId) : (c.after a t o).standing? id = none := by
  obtain ⟨_, _, _, wish, _⟩ := c
  cases o with
  | error e => rfl
  | ok artifact => cases wish <;> rfl

namespace Site

variable {s s' s₁ : Site} {a : Act} {i : PartyId} {id : PackageId} {b : Build} {c : Call}
  {p : Package}

/-! ## 1. Views -/

/-- Where a party stands. -/
def standing? (s : Site) (i : PartyId) : Option Standing := s.look Party.standing? i

/-- The locks of the packages, in order. -/
def locks (s : Site) : List Slots := s.packages.map (·.lock)

/-- The packages as they were when they were founded, in order. -/
def founded (s : Site) : List Package := s.packages.map (·.asFounded)

theorem standing?_of_party {party : Party} (h : s.parties[i]? = some party) :
    s.standing? i = party.standing? := by
  rw [standing?, look, h]
  rfl

theorem locks_getElem? (s : Site) (id : PackageId) :
    s.locks[id]? = (s.package? id).map (·.lock) := List.getElem?_map

theorem founded_getElem? (s : Site) (id : PackageId) :
    s.founded[id]? = (s.package? id).map (·.asFounded) := List.getElem?_map

theorem locks_updatePackage (s : Site) (id : PackageId) {change : Package → Package}
    {f : Slots → Slots} (h : ∀ p, (change p).lock = f p.lock) :
    (s.updatePackage id change).locks = s.locks.modify id f := map_modify h s.packages id

theorem locks_keep (s : Site) (id : PackageId) {change : Package → Package}
    (h : ∀ p, (change p).lock = p.lock) : (s.updatePackage id change).locks = s.locks := by
  rw [locks_updatePackage s id (f := fun l => l) h]
  exact List.modify_id id s.locks

theorem founded_keep (s : Site) (id : PackageId) {change : Package → Package}
    (h : ∀ p, (change p).asFounded = p.asFounded) :
    (s.updatePackage id change).founded = s.founded := by
  have hmodify : (s.updatePackage id change).founded = s.founded.modify id fun p => p :=
    map_modify h s.packages id
  rw [hmodify]
  exact List.modify_id id s.founded

@[simp] theorem locks_setParty (s : Site) (i : PartyId) (party : Party) :
    (s.setParty i party).locks = s.locks := rfl

@[simp] theorem locks_release (s : Site) (id : PackageId) (i : PartyId) :
    (s.release id i).locks = s.locks.modify id (·.leave i) :=
  locks_updatePackage s id fun _ => rfl

@[simp] theorem locks_publish (s : Site) (i : PartyId) (b : Build) (p : Package) (o : Outcome) :
    (s.publish i b p o).locks = s.locks := locks_keep s b.package fun _ => rfl

@[simp] theorem locks_counted (s : Site) (id : PackageId) : (s.counted id).locks = s.locks :=
  locks_keep s id fun _ => rfl

@[simp] theorem founded_setParty (s : Site) (i : PartyId) (party : Party) :
    (s.setParty i party).founded = s.founded := rfl

@[simp] theorem founded_addParty (s : Site) (party : Party) :
    (s.addParty party).1.founded = s.founded := rfl

@[simp] theorem founded_addPackage (s : Site) (p : Package) :
    (s.addPackage p).1.founded = s.founded ++ [p.asFounded] := List.map_append

@[simp] theorem founded_release (s : Site) (id : PackageId) (i : PartyId) :
    (s.release id i).founded = s.founded := by
  have h : (s.updatePackage id fun p => { p with lock := p.lock.leave i }).founded = s.founded :=
    founded_keep s id fun _ => rfl
  exact h

@[simp] theorem founded_publish (s : Site) (i : PartyId) (b : Build) (p : Package) (o : Outcome) :
    (s.publish i b p o).founded = s.founded := founded_keep s b.package fun _ => rfl

@[simp] theorem founded_conclude (s : Site) (i : PartyId) (b : Build) (p : Package) (o : Outcome) :
    (s.conclude i b p o).founded = s.founded := by
  rw [conclude, founded_publish, founded_release]

@[simp] theorem founded_counted (s : Site) (id : PackageId) : (s.counted id).founded = s.founded :=
  founded_keep s id fun _ => rfl

/-! ## 2. Steps -/

/-- What an act does to the locks: one party takes a step. -/
inductive LockStep (s s' : Site) : Prop where
  | rest (new : List Slots) (hnew : ∀ l ∈ new, l = .lock) (hstanding : s'.standing? = s.standing?)
      (hlocks : s'.locks = s.locks ++ new) (hheld : s'.held = s.held)
  | queue (i : PartyId) (id : PackageId) (hi : s.standing? i = none) (hid : id < s.locks.length)
      (hstanding : s'.standing? = Function.update s.standing? i (some (.inLine id)))
      (hlocks : s'.locks = s.locks.modify id (·.enter i)) (hheld : s'.held = s.held)
  | approach (i : PartyId) (id : PackageId) (hi : s.standing? i = some (.inLine id))
      (hfirst : ∃ l, s.locks[id]? = some l ∧ l.isHeldBy i = true)
      (hstanding : s'.standing? = Function.update s.standing? i (some (.atDoor id none)))
      (hlocks : s'.locks = s.locks) (hheld : s'.held = s.held)
  | unlatch (i : PartyId) (p : Package) (id : PackageId) (file : Nat)
      (hi : s.standing? i = some (.atDoor id none)) (hp : s.founded[id]? = some p)
      (hopen : (FileAction.openFile (lockPath p.directory)).run s.tree = (.ok file, s'.tree))
      (hstanding : s'.standing? = Function.update s.standing? i (some (.atDoor id (some file))))
      (hlocks : s'.locks = s.locks) (hheld : s'.held = s.held)
  | enter (i : PartyId) (id : PackageId) (file : Nat)
      (hi : s.standing? i = some (.atDoor id (some file))) (hfree : s.isHeld file = false)
      (hstanding : s'.standing? = Function.update s.standing? i (some (.inside id)))
      (hlocks : s'.locks = s.locks) (hheld : s'.held = (file, i) :: s.held)
  | leave (i : PartyId) (id : PackageId) (new : List Slots) (hnew : ∀ l ∈ new, l = .lock)
      (hi : ∀ st, s.standing? i = some st → st.package? = some id)
      (hstanding : s'.standing? = Function.update s.standing? i none)
      (hlocks : s'.locks = s.locks.modify id (·.leave i) ++ new)
      (hheld : s'.held = s.held.filter (·.2 != i))
  | visit (i : PartyId) (directory : Path) (file : Nat) (hi : s.standing? i = none)
      (hopen : (FileAction.openFile (lockPath directory)).run s.tree = (.ok file, s'.tree))
      (hfree : s.isHeld file = false)
      (hstanding : s'.standing? = Function.update s.standing? i (some (.guest directory)))
      (hlocks : s'.locks = s.locks) (hheld : s'.held = (file, i) :: s.held)
  | depart (i : PartyId) (directory : Path) (hi : s.standing? i = some (.guest directory))
      (hstanding : s'.standing? = Function.update s.standing? i none)
      (hlocks : s'.locks = s.locks) (hheld : s'.held = s.held.filter (·.2 != i))

theorem standing?_set {old new : Party} {st : Option Standing} (hi : s.parties[i]? = some old)
    (h : s'.parties = s.parties.set i new) (hnew : new.standing? = st) :
    s'.standing? = Function.update s.standing? i st := hnew ▸ look_set _ hi h

theorem standing?_concat {new : Party} {st : Option Standing} (h : s'.parties = s.parties ++ [new])
    (hnew : new.standing? = st) :
    s'.standing? = Function.update s.standing? s.parties.length st := hnew ▸ look_concat _ h

theorem standing?_concat_set {old new entering : Party} {st : Option Standing}
    (hi : s.parties[i]? = some old) (h : s'.parties = (s.parties ++ [entering]).set i new)
    (hentering : entering.standing? = none) (hnew : new.standing? = st) :
    s'.standing? = Function.update s.standing? i st := hnew ▸ look_concat_set _ hi hentering h

/-- A party goes on where it stands. -/
theorem LockStep.of_stay {old new : Party} (hi : s.parties[i]? = some old)
    (hparties : s'.parties = s.parties.set i new) (hstanding : new.standing? = old.standing?)
    (hlocks : s'.locks = s.locks) (hheld : s'.held = s.held) : LockStep s s' := by
  refine .rest [] nofun ?_ (hlocks.trans (List.append_nil _).symm) hheld
  rw [standing?_set hi hparties hstanding, Function.update_eq_self_iff, standing?_of_party hi]

/-- A party goes on where it stands, and another one comes that has nothing yet. -/
theorem LockStep.of_concat_set {old new entering : Party} (hi : s.parties[i]? = some old)
    (hparties : s'.parties = (s.parties ++ [entering]).set i new)
    (hstanding : new.standing? = old.standing?) (hentering : entering.standing? = none)
    (hlocks : s'.locks = s.locks) (hheld : s'.held = s.held) : LockStep s s' := by
  refine .rest [] nofun ?_ (hlocks.trans (List.append_nil _).symm) hheld
  rw [standing?_concat_set hi hparties hentering hstanding, Function.update_eq_self_iff,
    standing?_of_party hi]

/-- A party gives up what it has. -/
theorem LockStep.of_leave {old new : Party} (id : PackageId) (hi : s.parties[i]? = some old)
    (hold : ∀ st, old.standing? = some st → st.package? = some id)
    (hparties : s'.parties = s.parties.set i new) (hnew : new.standing? = none)
    (hlocks : s'.locks = s.locks.modify id (·.leave i))
    (hheld : s'.held = s.held.filter (·.2 != i)) : LockStep s s' := by
  refine .leave i id [] nofun (fun st hst => hold st ?_) (standing?_set hi hparties hnew) ?_ hheld
  · rwa [standing?_of_party hi] at hst
  · rw [hlocks, List.append_nil]

/-- A party that is on its way to the locks comes nearer. -/
theorem LockStep.of_next {old new : Party} {grip grip' : Grip} (hi : s.parties[i]? = some old)
    (hp : s.package? id = some p) (hold : old.standing? = grip.standing? id)
    (hnew : new.standing? = grip'.standing? id) (h : GripTurn s id p i grip (.next s₁ grip')) :
    LockStep s (s₁.setParty i new) := by
  have hstands : s.standing? i = grip.standing? id := (standing?_of_party hi).trans hold
  have hset : ∀ s₁ : Site, s₁.parties = s.parties →
      (s₁.setParty i new).standing? = Function.update s.standing? i (grip'.standing? id) := by
    intro s₁ hparties
    exact standing?_set hi (by rw [parties_setParty, hparties]) hnew
  cases h with
  | enter =>
    refine .queue i id hstands ?_ (hset _ rfl) (locks_updatePackage s id fun _ => rfl) rfl
    rw [locks, List.length_map]
    exact (List.getElem?_eq_some_iff.mp hp).1
  | promoted h =>
    refine .approach i id hstands ⟨p.lock, ?_, h⟩ (hset _ rfl) rfl rfl
    rw [locks_getElem?, hp]
    rfl
  | opened file tree h =>
    refine .unlatch i p.asFounded id file hstands ?_ h (hset _ rfl) rfl rfl
    rw [founded_getElem?, hp]
    rfl
  | contended file until_ h => exact .of_stay hi rfl (hnew.trans hold.symm) rfl rfl
  | retry file until_ => exact .of_stay hi rfl (hnew.trans hold.symm) rfl rfl

/-- A party that fails on its way to the locks gives up what it has. -/
theorem LockStep.of_failed {old new : Party} {grip : Grip} {e : PackageError}
    (hi : s.parties[i]? = some old) (hold : old.standing? = grip.standing? id)
    (hnew : new.standing? = none) (h : GripTurn s id p i grip (.failed s₁ e))
    (hparties : s'.parties = s₁.parties.set i new) (hlocks : s'.locks = s₁.locks)
    (hheld : s'.held = s₁.held) : LockStep s s' := by
  cases h with
  | refused => exact .of_stay hi hparties (hnew.trans hold.symm) hlocks hheld
  | failed _ _ _ =>
    refine .of_leave id hi (fun st hst => ?_) hparties hnew (hlocks.trans (locks_release ..))
      hheld
    exact grip.package?_of_standing? (hold ▸ hst)

/-- A build that ends gives up what it has. -/
theorem LockStep.of_conclude (s₁ : Site) (hi : s.parties[i]? = some (.build b))
    (hparties : s₁.parties = s.parties) (hlocks : s₁.locks = s.locks) (hheld : s₁.held = s.held) (o : Outcome) :
    LockStep s (s₁.conclude i b p o) := by
  have hset : (s₁.conclude i b p o).parties =
      s.parties.set i (.build { b with stage := .telling (o.mapError (.ofBuild p.name)) }) := by
    rw [← hparties]
    rfl
  refine .of_leave b.package hi (fun st hst => b.stage.package?_of_standing? hst) hset rfl ?_ ?_
  · rw [conclude, locks_publish, locks_release, hlocks]
  · rw [← hheld]
    rfl

theorem lockStep_of_build (hi : s.parties[i]? = some (.build b)) (h : s.moveBuild? i b = some s') :
    LockStep s s' := by
  obtain ⟨p, hp, hturn⟩ := moveBuild?_turn h
  have hold : (Party.build b).standing? = b.stage.standing? b.package := rfl
  generalize b.stage = stage at hturn hold
  cases hturn with
  | setOut budget => exact .of_stay hi rfl hold.symm rfl rfl
  | approach budget grip grip' s₁ hgrip => exact .of_next hi hp hold rfl hgrip
  | enter budget grip s₁ hgrip =>
    cases hgrip with
    | taken file hfree =>
      refine .enter i b.package file ((standing?_of_party hi).trans hold) hfree
        (standing?_set hi rfl ?_) rfl rfl
      rw [Party.standing?]
      split <;> rfl
  | giveUp budget grip s₁ e hgrip =>
    exact .of_failed hi hold rfl hgrip rfl (locks_publish ..) rfl
  | takeOver => exact .of_conclude s hi rfl rfl rfl _
  | distrust => exact .of_stay hi rfl hold.symm rfl rfl
  | clear => exact .of_stay hi rfl hold.symm rfl rfl
  | expire => exact .of_conclude (s.counted b.package) hi rfl (locks_counted ..) rfl _
  | call => exact .of_stay hi rfl hold.symm (locks_counted ..) rfl
  | finish => exact .of_stay hi rfl hold.symm rfl rfl
  | fail budget invocation since result tree => exact .of_conclude { s with tree } hi rfl rfl rfl _
  | timeOut => exact .of_conclude s hi rfl rfl rfl _
  | mark a =>
    have hmark : (s.mark p a).parties = s.parties ∧ (s.mark p a).locks = s.locks ∧
        (s.mark p a).held = s.held := by
      unfold mark
      split <;> exact ⟨rfl, rfl, rfl⟩
    exact .of_conclude (s.mark p a) hi hmark.1 hmark.2.1 hmark.2.2 _
  | tell o => exact .of_stay hi rfl hold.symm rfl rfl

/-- A party comes that has nothing yet. -/
theorem LockStep.of_concat {new : Party} (hparties : s'.parties = s.parties ++ [new])
    (hnew : new.standing? = none) (hlocks : s'.locks = s.locks) (hheld : s'.held = s.held) :
    LockStep s s' := by
  refine .rest [] nofun ?_ (hlocks.trans (List.append_nil _).symm) hheld
  exact look_concat_of_none _ hnew hparties

/-- Nobody takes a step. -/
theorem LockStep.of_eq (hparties : s'.parties = s.parties) (hlocks : s'.locks = s.locks)
    (hheld : s'.held = s.held) : LockStep s s' :=
  .rest [] nofun (look_of_eq _ hparties) (hlocks.trans (List.append_nil _).symm) hheld

/-- A caller who leaves gives up what it has. -/
theorem LockStep.of_reply (s₁ : Site) (hi : s.parties[i]? = some (.call c))
    (hparties : s₁.parties = s.parties) (hlocks : s₁.locks = s.locks)
    (hheld : s₁.held.filter (·.2 != i) = s.held.filter (·.2 != i))
    (answer : Except PackageError Gain) : LockStep s ((s₁.release c.package i).reply i c answer) := by
  have hset : ((s₁.release c.package i).reply i c answer).parties =
      s.parties.set i (.call { c with stage := .answered s₁.now answer }) := by
    rw [← hparties]
    rfl
  refine .of_leave c.package hi (fun st hst => c.stage.package?_of_standing? hst) hset rfl ?_ hheld
  rw [reply, locks_setParty, locks_release, hlocks]

/-- A caller who asks for the package takes no step towards the locks, nor does a build that is
scheduled. -/
theorem lockStep_of_demand {allowance : Budget.Allowance} (hi : s.parties[i]? = some (.call c))
    (hc : (Party.call c).standing? = none) :
    LockStep s (answerDemand i c allowance (s.demand c.package p)) := by
  have hlocks : ∀ l, (s.withLife c.package l).locks = s.locks := fun l => locks_keep s _ fun _ => rfl
  have hform := s.demandForm c.package p
  generalize s.demand c.package p = d at hform ⊢
  cases hform with
  | settled o =>
    rw [answerDemand, afterOutcome_eq]
    exact .of_stay hi rfl ((c.standing?_after ..).trans hc.symm) (hlocks _) rfl
  | joined n => exact .of_stay hi rfl hc.symm (hlocks _) rfl
  | scheduled start hdue hclock =>
    exact .of_concat_set hi rfl hc.symm rfl (hlocks _) rfl
  | offTheClock => exact .of_stay hi rfl hc.symm (hlocks _) rfl

theorem lockStep_of_call (hi : s.parties[i]? = some (.call c)) (h : s.moveCall? i c = some s') :
    LockStep s s' := by
  obtain ⟨p, hp, hturn⟩ := moveCall?_turn h
  have hold : (Party.call c).standing? = c.stage.standing? c.package := rfl
  -- what a caller stands at depends on its stage alone
  generalize c.stage = stage at hturn hold
  cases hturn with
  | come => exact .of_stay hi rfl hold.symm rfl rfl
  | refuse => exact .of_stay hi rfl hold.symm rfl rfl
  | ask => exact lockStep_of_demand hi hold
  | wait _ a n hn =>
    rw [CallStage.standing?_of_build? hn] at hold
    exact .of_stay hi rfl hold.symm rfl rfl
  | get _ a n o hn =>
    rw [CallStage.standing?_of_build? hn] at hold
    rw [afterOutcome_eq]
    exact .of_stay hi rfl ((c.standing?_after ..).trans hold.symm) rfl rfl
  | giveUp _ n e hn =>
    rw [CallStage.standing?_of_build? hn] at hold
    exact .of_stay hi rfl hold.symm rfl rfl
  | approach a order grip grip' s₁ hgrip => exact .of_next hi hp hold rfl hgrip
  | enter a order grip s₁ hgrip =>
    cases hgrip with
    | taken file hfree =>
      exact .enter i c.package file ((standing?_of_party hi).trans hold) hfree
        (standing?_concat_set hi rfl rfl rfl) rfl rfl
  | expire a order grip s₁ e hgrip =>
    cases hgrip with
    | taken file hfree =>
      refine .of_reply { s with held := (file, i) :: s.held } hi rfl rfl ?_ _
      simp
  | fail a order grip s₁ e hgrip => exact .of_failed hi hold rfl hgrip rfl rfl rfl
  | finish a order worker result =>
    cases result with
    | error e => exact .of_reply s hi rfl rfl rfl _
    | ok _ =>
      refine .leave i c.package [.lock] (by simp) (fun st hst => ?_) (standing?_set hi rfl rfl) ?_ rfl
      · rw [standing?_of_party hi] at hst
        exact c.stage.package?_of_standing? hst
      · rw [← locks_release]
        exact List.map_append
  | abandon => exact .of_reply s hi rfl rfl rfl _

/-- Every act is a step of at most one party. -/
theorem act?_lockStep (h : s.act? a = some s') : LockStep s s' := by
  have hguest : ∀ {i o}, s.parties[i]? = some (.outsider o) → o.holds = true →
      s.standing? i = some (.guest o.directory) :=
    fun hi hholds => (standing?_of_party hi).trans (if_pos hholds)
  cases act?_turn h with
  | build i b _ hi h => exact lockStep_of_build hi h
  | call i c _ hi h => exact lockStep_of_call hi h
  | copy i w result tree hi => exact .of_stay hi rfl rfl rfl rfl
  | depart i o hi hholds =>
    exact .depart i o.directory (hguest hi hholds) (standing?_set hi rfl rfl) rfl rfl
  | cancel i c allowance hi =>
    exact .of_stay hi rfl (c.stage.standing?_withAllowance ..) rfl rfl
  | drop i b p hi => exact .of_conclude s hi rfl rfl rfl _
  | come => exact .of_concat rfl rfl rfl rfl
  | invalidate id => exact .of_eq rfl (locks_keep s id fun _ => rfl) rfl
  | found => exact .rest [.lock] (by simp) rfl List.map_append rfl
  | visit directory releaseAfter file tree hopen hfree =>
    exact .visit s.parties.length directory file (look_of_length_le _ (Nat.le_refl _)) hopen hfree
      (standing?_concat rfl rfl) rfl rfl
  | dismiss i o hi hholds =>
    exact .depart i o.directory (hguest hi hholds) (standing?_set hi rfl rfl) rfl rfl
  | _ => exact .of_eq rfl rfl rfl

/-! ## 3. Packages -/

theorem founded_gripTurn {grip : Grip} {step : GripStep} (h : GripTurn s id p i grip step)
    (hsite : step.site? = some s') : s'.founded = s.founded := by
  cases h with
  | enter =>
    rw [← Option.some.inj hsite]
    exact founded_keep s id fun _ => rfl
  | failed grip e hgrip =>
    rw [← Option.some.inj hsite, founded_release]
  | stay => cases hsite
  | promoted => rw [← Option.some.inj hsite]
  | contended => rw [← Option.some.inj hsite]
  | retry => rw [← Option.some.inj hsite]
  | refused => rw [← Option.some.inj hsite]
  | opened =>
    rw [← Option.some.inj hsite]
    rfl
  | taken =>
    rw [← Option.some.inj hsite]
    rfl

theorem founded_moveBuild? (h : s.moveBuild? i b = some s') : s'.founded = s.founded := by
  obtain ⟨p, -, hturn⟩ := moveBuild?_turn h
  generalize b.stage = stage at hturn
  cases hturn with
  | approach budget grip grip' s₁ hgrip => rw [founded_setParty, founded_gripTurn hgrip rfl]
  | enter budget grip s₁ hgrip => rw [founded_setParty, founded_gripTurn hgrip rfl]
  | giveUp budget grip s₁ e hgrip => rw [founded_publish, founded_gripTurn hgrip rfl]
  | takeOver => exact founded_conclude ..
  | expire => rw [founded_conclude, founded_counted]
  | call => exact founded_counted ..
  | fail => exact founded_conclude ..
  | timeOut => exact founded_conclude ..
  | mark a =>
    rw [founded_conclude, mark]
    split <;> rfl
  | _ => rfl

theorem founded_moveCall? (h : s.moveCall? i c = some s') : s.founded <+: s'.founded := by
  have keep : s'.founded = s.founded → s.founded <+: s'.founded := fun heq =>
    heq ▸ List.prefix_refl _
  obtain ⟨p, hp, hturn⟩ := moveCall?_turn h
  generalize c.stage = stage at hturn
  cases hturn with
  | ask a =>
    apply keep
    have hform := s.demandForm c.package p
    have hlife : ∀ l, (s.withLife c.package l).founded = s.founded := fun l =>
      founded_keep s c.package fun _ => rfl
    generalize s.demand c.package p = d at hform ⊢
    cases hform with
    | settled o =>
      rw [answerDemand, afterOutcome_eq]
      exact hlife _
    | _ => exact hlife _
  | get _ a n o =>
    rw [afterOutcome_eq] at h ⊢
    exact List.prefix_refl _
  | approach a order grip grip' s₁ hgrip =>
    exact keep (by rw [founded_setParty, founded_gripTurn hgrip rfl])
  | enter a order grip s₁ hgrip =>
    exact keep (by rw [founded_setParty, founded_addParty, founded_gripTurn hgrip rfl])
  | expire a order grip s₁ e hgrip =>
    exact keep (by rw [reply, founded_setParty, founded_release, founded_gripTurn hgrip rfl])
  | fail a order grip s₁ e hgrip =>
    exact keep (by rw [reply, founded_setParty, founded_gripTurn hgrip rfl])
  | finish a order worker result =>
    cases result with
    | error e => exact keep (founded_release ..)
    | ok _ =>
      -- only a copy that has gone well founds a package, behind all others
      have hadd := founded_addPackage (s.release c.package i) (p.copyTo order.name order.destination)
      rw [founded_release] at hadd
      exact ⟨[p.copyTo order.name order.destination], hadd.symm⟩
  | abandon => exact keep (founded_release ..)
  | _ => exact List.prefix_refl _

/-- Packages keep their names, directories, builders and options, and new ones get the next
numbers. -/
theorem act?_founded (h : s.act? a = some s') : s.founded <+: s'.founded := by
  have keep : s'.founded = s.founded → s.founded <+: s'.founded := fun heq =>
    heq ▸ List.prefix_refl _
  cases act?_turn h with
  | build i b _ hi h => exact keep (founded_moveBuild? h)
  | call i c _ hi h => exact founded_moveCall? h
  | drop => exact keep (founded_conclude ..)
  | invalidate id => exact keep (founded_keep s id fun _ => rfl)
  | found name directory builder options =>
    have hadd := founded_addPackage s (.fresh name directory builder options)
    exact ⟨[.fresh name directory builder options], hadd.symm⟩
  | _ => exact keep rfl

theorem package?_founded {p : Package} (hfounded : s.founded <+: s'.founded)
    (hp : s.package? id = some p) :
    ∃ p', s'.package? id = some p' ∧ p'.asFounded = p.asFounded := by
  obtain ⟨rest, hfounded⟩ := hfounded
  have hplain : s'.founded[id]? = some p.asFounded := by
    have hlt : id < s.founded.length := by
      rw [founded, List.length_map]
      exact (List.getElem?_eq_some_iff.mp hp).1
    rw [← hfounded, List.getElem?_append_left hlt, founded_getElem?, hp]
    rfl
  rw [founded_getElem?] at hplain
  exact Option.map_eq_some_iff.mp hplain

end Site

end Playground
