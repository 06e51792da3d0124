import Playground.Proofs.Files.Sparing
import Playground.Proofs.Site.Errands
/-!
# Callers that leave their package alone

A caller who wants a copy of a package touches the files twice: it opens the lock file of the package,
and it has a worker copy the directory.  Neither changes anything else in the directory of the package
as long as the destination does not get in its way, and a copy into the directory itself fails.
-/

namespace Playground.Site

open FileTree (KeepsAt Belongs IsAside IsLinkless IsTidy)

variable {s s' s₁ : Site} {a : Act} {acts rest : List Act} {i w : PartyId} {c c' : Call} {cw : CopyWork}
  {p : Package} {order : CopyOrder} {directory destination : Path} {S : Place} {t : FileTree}
  {stage : CallStage} {id : PackageId}

/-! ## 1. The lock file -/

/-- A lock file is opened where it is, or made there. -/
theorem openLock_keepsAt (hl : t.IsLinkless) (htidy : t.IsTidy) (hne : directory ≠ "")
    (hdirectory : t.folded directory = S) :
    KeepsAt (· ≠ S ++ [lockName]) t ((FileAction.openFile (lockPath directory)).run t).2 := by
  have hname : Path.IsName lockName := by decide
  have hplace : t.folded (lockPath directory) = S ++ [lockName] := by
    rw [lockPath, FileTree.folded_join t hne hname, hdirectory]
  rw [FileAction.openFile_run]
  split
  · exact .refl _ t
  · exact .refl _ t
  · rename_i dir name slash hseek
    have hnew := FileTree.eq_folded_of_seek_vacant hl hseek
    split
    · exact .refl _ t
    · rw [hnew]
      refine (KeepsAt.refl _ t).put ?_ (htidy.isName_folded _) rfl _
      exact fun hne => hne hplace
  · exact .refl _ t
  · exact .refl _ t

theorem tree_of_gripTurn {grip : Grip} {step : GripStep} (h : GripTurn s id p i grip step)
    (hsite : step.site? = some s₁) :
    s₁.tree = s.tree ∨ s₁.tree = ((FileAction.openFile (lockPath p.directory)).run s.tree).2 := by
  cases h with
  | stay => cases hsite
  | opened file tree hopen =>
    cases hsite
    exact .inr (by rw [hopen])
  | _ =>
    cases hsite
    exact .inl rfl

/-! ## 2. Callers -/

/-- What a turn of a caller does to the files of its package, and what it answers: a caller who wants a
copy gets nothing else. -/
structure CallerTurn (s : Site) (c : Call) (p : Package) (s' : Site) (stage : CallStage) : Prop where
  tree : s'.tree = s.tree ∨ s'.tree = ((FileAction.openFile (lockPath p.directory)).run s.tree).2
  gain : ∀ t artifact, stage = .answered t (.ok (.artifact artifact)) → c.wish = .ready

/-- Whether a caller has been told that the package is ready. -/
def hasArtifact : CallStage → Bool
  | .answered _ (.ok (.artifact _)) => true
  | _ => false

theorem CallerTurn.of_quiet {stage : CallStage}
    (htree : s'.tree = s.tree ∨ s'.tree = ((FileAction.openFile (lockPath p.directory)).run s.tree).2)
    (hquiet : hasArtifact stage = false) : CallerTurn s c p s' stage := by
  refine ⟨htree, fun t artifact hstage => ?_⟩
  rw [hstage] at hquiet
  cases hquiet

theorem wish_of_after {allowance : Budget.Allowance} {t u : Instant} {o : Outcome}
    {artifact : Artifact} (h : c.after allowance t o = .answered u (.ok (.artifact artifact))) :
    c.wish = .ready := by
  obtain ⟨id, start, terms, wish, stage⟩ := c
  cases o with
  | error e => cases h
  | ok artifact =>
    cases wish with
    | ready => rfl
    | copy order => cases h

theorem callerTurn_of_move (hi : s.call? i = some c) (h : s.act? (.move i) = some s') :
    ∃ p stage, s.package? c.package = some p ∧ s'.call? i = some { c with stage } ∧
      CallerTurn s c p s' stage := by
  have hparty : s.parties[i]? = some (.call c) := call?_eq_some.mp hi
  rw [act?, hparty] at h
  obtain ⟨p, hp, hturn⟩ := moveCall?_turn h
  have hset : ∀ {stage}, s'.parties = s.parties.set i (.call { c with stage }) →
      CallerTurn s c p s' stage → ∃ p stage, s.package? c.package = some p ∧
        s'.call? i = some { c with stage } ∧ CallerTurn s c p s' stage :=
    fun hparties hstep => ⟨p, _, hp, call?_of_set hparty hparties, hstep⟩
  have hgrips : ∀ {grip step s₁ stage}, GripTurn s c.package p i grip step →
      step.site? = some s₁ → s'.parties = s₁.parties.set i (.call { c with stage }) →
      s'.tree = s₁.tree → hasArtifact stage = false →
      ∃ p stage, s.package? c.package = some p ∧ s'.call? i = some { c with stage } ∧
        CallerTurn s c p s' stage :=
    fun hgrip hsite hparties htree hquiet =>
      hset ((gripTurn_frame hgrip hsite).1 ▸ hparties)
        (.of_quiet (htree ▸ tree_of_gripTurn hgrip hsite) hquiet)
  generalize hstage : c.stage = old at hturn
  cases hturn with
  | ask allowance =>
    have hform := s.demandForm c.package p
    generalize s.demand c.package p = d at hset hform ⊢
    cases hform with
    | settled o =>
      rw [answerDemand, afterOutcome_eq] at hset ⊢
      exact hset rfl ⟨.inl rfl, fun _ _ h => wish_of_after h⟩
    | joined n => exact hset rfl (.of_quiet (.inl rfl) rfl)
    | scheduled start hdue hclock =>
      -- the new build stands behind all parties, so the caller keeps its number
      exact ⟨p, .joining allowance s.parties.length, hp, call?_of_concat_set hparty rfl rfl,
        .of_quiet (.inl rfl) rfl⟩
    | offTheClock => exact hset rfl (.of_quiet (.inl rfl) rfl)
  | get _ allowance n o =>
    rw [afterOutcome_eq] at hset ⊢
    exact hset rfl ⟨.inl rfl, fun _ _ h => wish_of_after h⟩
  | approach allowance order grip grip' s₁ hgrip => exact hgrips hgrip rfl rfl rfl rfl
  | enter allowance order grip s₁ hgrip =>
    have htree := tree_of_gripTurn hgrip rfl
    cases hgrip with
    | taken file hfree =>
      exact ⟨p, .copying allowance order s.parties.length, hp, call?_of_concat_set hparty rfl rfl,
        .of_quiet htree rfl⟩
  | expire allowance order grip s₁ e hgrip => exact hgrips hgrip rfl rfl rfl rfl
  | fail allowance order grip s₁ e hgrip => exact hgrips hgrip rfl rfl rfl rfl
  | finish allowance order worker result =>
    cases result with
    | error e => exact hset rfl (.of_quiet (.inl rfl) rfl)
    | ok _ => exact hset rfl (.of_quiet (.inl rfl) rfl)
  | _ => exact hset rfl (.of_quiet (.inl rfl) rfl)

/-! ## 3. Copies -/

/-- The act is one of caller `i`, or of a worker that copies the directory to the destination. -/
def IsOfCopy (i : PartyId) (directory destination : Path) (s : Site) : Act → Prop
  | .move w => w = i ∨
      (s.copyWork? w).map (fun cw => (cw.source, cw.target)) = some (directory, destination)
  | .cancel j => j = i
  | _ => False

instance decidableIsOfCopy (i : PartyId) (directory destination : Path) (s : Site) :
    (a : Act) → Decidable (IsOfCopy i directory destination s a)
  | .move w => inferInstanceAs (Decidable (w = i ∨ _ = _))
  | .cancel j => inferInstanceAs (Decidable (j = i))
  | .provide _ | .found .. | .edit _ | .come .. | .invalidate _ | .hold .. | .unhold _ | .drop _
  | .wait _ => isFalse not_false

theorem IsOfCopy.cases (h : IsOfCopy i directory destination s a) : a = .move i ∨ a = .cancel i ∨
    ∃ w cw, a = .move w ∧ s.copyWork? w = some cw ∧ cw.source = directory ∧ cw.target = destination := by
  cases a with
  | move w =>
    rcases h with rfl | h
    · exact .inl rfl
    · obtain ⟨cw, hw, hpaths⟩ := Option.map_eq_some_iff.mp h
      obtain ⟨hsource, htarget⟩ := Prod.mk.inj hpaths
      exact .inr (.inr ⟨w, cw, rfl, hw, hsource, htarget⟩)
  | cancel j => exact .inr (.inl (congrArg Act.cancel h))
  | _ => exact h.elim

/-- A directory `S` of a package in a tree without links. -/
structure IsAt (t : FileTree) (directory : Path) (S : Place) : Prop where
  linkless : t.IsLinkless
  tidy : t.IsTidy
  ne_empty : directory ≠ ""
  place : t.folded directory = S
  entry : t.entryAt? S = some .directory

theorem IsAt.of_look (hl : t.IsLinkless) (htidy : t.IsTidy)
    (hlook : t.look true directory = .ok (S, .directory)) (hS : t.entryAt? S = some .directory) :
    IsAt t directory S where
  linkless := hl
  tidy := htidy
  ne_empty := by
    rintro rfl
    cases hlook
  place := (FileTree.eq_folded_of_seek hl (FileTree.look_eq_ok_iff.mp hlook)).symm
  entry := hS

theorem IsAt.of_keepsAt {t' : FileTree} (h : IsAt t directory S)
    (hkeeps : KeepsAt (Belongs S lockName) t t') : IsAt t' directory S where
  linkless := hkeeps.linkless h.linkless
  tidy := hkeeps.tidy h.tidy
  ne_empty := h.ne_empty
  place := (hkeeps.folded directory).trans h.place
  entry := (hkeeps.same S ⟨List.prefix_refl S, by simp⟩).trans h.entry

/-- What a caller and its worker do leaves such places alone: the directory of the package, if the
destination is aside, and everything there is, if the destination is in the directory. -/
theorem keepsAt_of_copy (hat : IsAt s.tree directory S) (h : s.act? a = some s')
    (hcopy : IsOfCopy i directory destination s a)
    (hi : s.call? i = some c) (hp : s.package? c.package = some p) (hdirectory : p.directory = directory) :
    (IsAside s.tree S lockName destination → KeepsAt (Belongs S lockName) s.tree s'.tree) ∧
    (S <+: s.tree.folded destination → KeepsAt (· ≠ S ++ [lockName]) s.tree s'.tree) := by
  -- the caller itself opens the lock file at most; only the worker copies
  have hlock := openLock_keepsAt hat.linkless hat.tidy hat.ne_empty hat.place
  have hboth : KeepsAt (· ≠ S ++ [lockName]) s.tree s'.tree →
      (IsAside s.tree S lockName destination → KeepsAt (Belongs S lockName) s.tree s'.tree) ∧
      (S <+: s.tree.folded destination → KeepsAt (· ≠ S ++ [lockName]) s.tree s'.tree) :=
    fun hkeeps => ⟨fun _ => hkeeps.mono fun _ hq => hq.2, fun _ => hkeeps⟩
  rcases hcopy.cases with rfl | rfl | ⟨w, cw, rfl, hw, rfl, rfl⟩
  · obtain ⟨p', stage, hp', -, hturn⟩ := callerTurn_of_move hi h
    obtain rfl := Option.some.inj (hp.symm.trans hp')
    rcases hturn.tree with htree | htree
    · exact hboth (htree ▸ .refl _ _)
    · rw [hdirectory] at htree
      exact hboth (htree ▸ hlock)
  · obtain ⟨c, stage, -, rfl⟩ := setParty_of_cancel h
    exact hboth (.refl _ _)
  · obtain ⟨-, r, hrun⟩ := act?_copyWork hw h
    have htree : s'.tree =
        ((FileAction.copyOutside lockName cw.source cw.target).run s.tree).2 := by rw [hrun]
    refine ⟨fun haside => ?_, fun hinside => ?_⟩
    · rw [htree]
      exact FileAction.copyOutside_keepsAt hat.linkless hat.tidy hat.place hat.entry haside
    · obtain ⟨e, herror⟩ := FileAction.copyOutside_inside lockName hat.linkless hat.tidy
        hat.place hinside
      rw [htree, herror]
      exact .refl _ _

/-- How far a caller has come who wants a copy that will be refused. -/
structure Refused (s : Site) (directory : Path) (order : CopyOrder) (stage : CallStage) : Prop where
  wanted : ∀ allowance order' grip, stage = .gripping allowance order' grip → order' = order
  works : ∀ allowance order' w, stage = .copying allowance order' w → order' = order ∧
    ∃ cw, s.copyWork? w = some cw ∧ cw.source = directory ∧ cw.target = order.destination ∧
      ∀ r, cw.result = some r → ∃ e, r = .error e
  answers : ∀ t answer, stage = .answered t answer → ∃ e, answer = .error e

/-- A worker that copies a directory into itself comes to nothing. -/
theorem copyWork?_inside (hat : IsAt s.tree directory S) (hinside : S <+: s.tree.folded destination)
    (h : s.act? a = some s') (hw : s.copyWork? w = some cw) (hsource : cw.source = directory)
    (htarget : cw.target = destination) (hresult : ∀ r, cw.result = some r → ∃ e, r = .error e) :
    ∃ cw', s'.copyWork? w = some cw' ∧ cw'.source = directory ∧ cw'.target = destination ∧
      ∀ r, cw'.result = some r → ∃ e, r = .error e := by
  cases act?_works h with
  | keep hworks => exact ⟨cw, hworks ▸ hw, hsource, htarget, hresult⟩
  | enter new _ hworks =>
    have hne : w ≠ s.parties.length := by
      rintro rfl
      cases hw.symm.trans (look_of_length_le _ (Nat.le_refl _))
    exact ⟨cw, by rw [hworks, Function.update_of_ne hne, hw], hsource, htarget, hresult⟩
  | done j old result _ hj hrun hworks =>
    by_cases hwj : w = j
    · subst hwj
      obtain rfl := Option.some.inj (hw.symm.trans hj)
      rw [hsource, htarget] at hrun
      obtain ⟨e, herror⟩ := FileAction.copyOutside_inside lockName hat.linkless hat.tidy
        hat.place hinside
      refine ⟨{ cw with result := some result }, by rw [hworks, Function.update_self], hsource,
        htarget, fun r hr => ?_⟩
      obtain rfl := Option.some.inj hr
      exact ⟨e, (Prod.mk.inj (hrun.symm.trans herror)).1⟩
    · exact ⟨cw, by rw [hworks, Function.update_of_ne hwj, hw], hsource, htarget, hresult⟩

namespace Refused

theorem of_coming (h : stage = .coming) : Refused s directory order stage := by
  subst h
  exact ⟨nofun, nofun, nofun⟩

theorem of_same (hrefused : Refused s directory order c.stage) (hat : IsAt s.tree directory S)
    (hinside : S <+: s.tree.folded order.destination) (h : s.act? a = some s') :
    Refused s' directory order c.stage where
  wanted := hrefused.wanted
  works allowance order' w hstage := by
    obtain ⟨horder, cw, hw, hsource, htarget, hresult⟩ := hrefused.works allowance order' w hstage
    exact ⟨horder, copyWork?_inside hat hinside h hw hsource htarget hresult⟩
  answers := hrefused.answers

theorem withAllowance (hrefused : Refused s directory order stage) (allowance : Budget.Allowance) :
    Refused s directory order (stage.withAllowance allowance) := by
  cases stage with
  | gripping a order' grip =>
    refine ⟨fun _ _ _ hstage => ?_, nofun, nofun⟩
    cases hstage
    exact hrefused.wanted a order' grip rfl
  | copying a order' worker =>
    refine ⟨nofun, fun _ _ _ hstage => ?_, nofun⟩
    cases hstage
    exact hrefused.works a order' worker rfl
  | answered t answer => exact hrefused
  | _ => exact ⟨nofun, nofun, nofun⟩

theorem of_step {stage : CallStage} (hrefused : Refused s directory order c.stage)
    (hwish : c.wish = .copy order) (hp : s.package? c.package = some p)
    (hdirectory : p.directory = directory) (hstep : OrderStep s c s' stage)
    (hgain : ∀ t artifact, stage = .answered t (.ok (.artifact artifact)) → c.wish = .ready) :
    Refused s' directory order stage := by
  cases hstep with
  | other stage hother hgrip =>
    refine ⟨fun _ _ _ hstage => absurd hstage (hgrip _ _ _), fun _ _ _ hstage => ?_,
      fun t answer hstage => ?_⟩
    · rw [hstage] at hother
      cases hother
    · cases answer with
      | error e => exact ⟨e, rfl⟩
      | ok gain =>
        cases gain with
        | artifact artifact => cases hwish.symm.trans (hgain t artifact hstage)
        | copied k =>
          rw [hstage] at hother
          cases hother
  | want allowance order' hwish' =>
    refine ⟨fun _ _ _ hstage => ?_, nofun, nofun⟩
    cases hstage
    exact (Wish.copy.inj (hwish.symm.trans hwish')).symm
  | near allowance order' grip grip' hold =>
    refine ⟨fun _ _ _ hstage => ?_, nofun, nofun⟩
    cases hstage
    exact hrefused.wanted allowance order' grip hold
  | start allowance order' grip p' hold hp' hworker =>
    refine ⟨nofun, fun _ _ _ hstage => ?_, nofun⟩
    cases hstage
    obtain rfl := hrefused.wanted allowance order' grip hold
    obtain rfl := Option.some.inj (hp.symm.trans hp')
    exact ⟨rfl, _, hworker, hdirectory, rfl, nofun⟩
  | finish allowance order' worker p' k t hold hp' hresult hcopy =>
    -- a worker that says that it has gone well cannot be
    obtain ⟨-, cw, hw, -, -, hfails⟩ := hrefused.works allowance order' worker hold
    obtain ⟨cw', hw', hdone⟩ := copyResult?_eq_some hresult
    obtain rfl := Option.some.inj (hw.symm.trans hw')
    obtain ⟨e, he⟩ := hfails _ hdone
    cases he

theorem act (hrefused : Refused s directory order c.stage) (hat : IsAt s.tree directory S)
    (hinside : S <+: s.tree.folded order.destination) (hi : s.call? i = some c)
    (hwish : c.wish = .copy order) (hp : s.package? c.package = some p)
    (hdirectory : p.directory = directory) (h : s.act? a = some s')
    (hchange : CallChange s a s' i c c') (hi' : s'.call? i = some c') :
    Refused s' directory order c'.stage := by
  cases hchange with
  | keep => exact hrefused.of_same hat hinside h
  | cancel allowance => exact (hrefused.of_same hat hinside h).withAllowance allowance
  | move stage ha =>
    subst ha
    obtain ⟨stage', hcall, hstep⟩ := orderStep_of_move hi h
    obtain ⟨_, stage'', -, hcall', hturn⟩ := callerTurn_of_move hi h
    obtain rfl : stage = stage' := congrArg Call.stage (Option.some.inj (hi'.symm.trans hcall))
    obtain rfl : stage = stage'' := congrArg Call.stage (Option.some.inj (hi'.symm.trans hcall'))
    exact hrefused.of_step hwish hp hdirectory hstep hturn.gain

end Refused

/-- Caller `i` comes for a copy of a package that lies at `S` in a tree without links. -/
structure ComesToCopy (s : Site) (i : PartyId) (c : Call) (p : Package) (order : CopyOrder) (S : Place) :
    Prop where
  call : s.call? i = some c
  coming : c.stage = .coming
  wish : c.wish = .copy order
  package : s.package? c.package = some p
  linkless : s.tree.IsLinkless
  tidy : s.tree.IsTidy
  look : s.tree.look true p.directory = .ok (S, .directory)
  entry : s.tree.entryAt? S = some .directory

/-- The destination does not get in the way of the directory, or lies in it. -/
def IsSafe (t : FileTree) (S : Place) (destination : Path) : Prop :=
  IsAside t S lockName destination ∨ S <+: t.folded destination

/-- What holds of a caller for a copy from `s₀` on, as long as everybody else spares the directory. -/
structure CopyCourse (s₀ : Site) (directory : Path) (order : CopyOrder) (S : Place) (i : PartyId)
    (s : Site) : Prop where
  keeps : KeepsAt (Belongs S lockName) s₀.tree s.tree
  caller : ∃ c p, s.call? i = some c ∧ c.wish = .copy order ∧ s.package? c.package = some p ∧
    p.directory = directory ∧ (S <+: s₀.tree.folded order.destination →
      Refused s directory order c.stage)

/-- An act of the copy, or one that spares the directory. -/
def CopyOrSpare (i : PartyId) (directory destination : Path) (S : Place) (s : Site) (a : Act)
    (s' : Site) : Prop :=
  IsOfCopy i directory destination s a ∨ KeepsAt (Belongs S lockName) s.tree s'.tree

variable {s₀ : Site}

theorem CopyCourse.act (hc : CopyCourse s₀ directory order S i s) (hat₀ : IsAt s₀.tree directory S)
    (hsafe : IsSafe s₀.tree S order.destination) (h : s.act? a = some s')
    (hact : CopyOrSpare i directory order.destination S s a s') :
    CopyCourse s₀ directory order S i s' ∧ (S <+: s₀.tree.folded order.destination →
      IsOfCopy i directory order.destination s a → KeepsAt (· ≠ S ++ [lockName]) s.tree s'.tree) := by
  have hat := hat₀.of_keepsAt hc.keeps
  obtain ⟨c, p, hi, hwish, hp, hdirectory, hrefused⟩ := hc.caller
  have hfolded := hc.keeps.folded order.destination
  have hown : IsOfCopy i directory order.destination s a → _ :=
    fun hcopy => keepsAt_of_copy hat h hcopy hi hp hdirectory
  refine ⟨⟨hc.keeps.trans ?_, ?_⟩, fun hinside hcopy => (hown hcopy).2 (hfolded ▸ hinside)⟩
  · rcases hact with hcopy | hkeeps
    · rcases hsafe with haside | hinside
      · exact (hown hcopy).1 (haside.of_keepsAt hc.keeps)
      · exact ((hown hcopy).2 (hfolded ▸ hinside)).mono fun _ hq => hq.2
    · exact hkeeps
  · obtain ⟨c', hi', hchange⟩ := (act?_calls h).old i c hi
    have hid : c'.package = c.package := hchange.package
    have hkept : c'.wish = c.wish := by cases hchange <;> rfl
    obtain ⟨p', hp', hfounded⟩ := package?_founded (act?_founded h) hp
    obtain ⟨hdirectory', -⟩ := Package.kept_of_asFounded hfounded
    refine ⟨c', p', hi', hkept.trans hwish, hid ▸ hp', hdirectory'.trans hdirectory, fun hinside => ?_⟩
    exact (hrefused hinside).act hat (hfolded ▸ hinside) hi hwish hp hdirectory h hchange hi'

theorem Along.strengthen {Q R : Site → Act → Site → Prop} {P : Site → Prop}
    (hact : ∀ {s a s'}, s.act? a = some s' → Q s a s' → P s → P s' ∧ R s a s')
    (h : Along Q s acts) (hs : P s) : Along R s acts := by
  induction acts generalizing s with
  | nil => trivial
  | cons a acts ih =>
    intro s' ha
    obtain ⟨hQ, hrest⟩ := h s' ha
    obtain ⟨hs', hR⟩ := hact ha hQ hs
    exact ⟨hR, ih hrest hs'⟩

end Playground.Site
