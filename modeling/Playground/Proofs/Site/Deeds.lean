import Playground.Proofs.Site.Passage
import Playground.Proofs.Site.Turns
/-!
# What builds do with their locks

A build that has its locks reads the marker, clears it, calls the builder, waits for the call to end,
and writes a new marker.  These are its deeds, and the deeds of a run are on record like its events.
Every act is read here as a deed, or else as something that leaves the builders alone, gives no build
a product, and touches the files from elsewhere only: a lock file is opened, a copy is made, or
somebody edits them.
-/

namespace Playground

/-- What a build does with its locks. -/
inductive DeedKind where
  | reads
  | clears
  | calls
  /-- The call of the builder is over, with a product if the builder returned one in time. -/
  | ends (product : Option Artifact)
  | writes (artifact : Artifact)
deriving DecidableEq, Repr

/-- Work that a build has done for a package in a directory. -/
structure Deed where
  package : PackageId
  directory : Path
  build : BuildId
  work : DeedKind
deriving DecidableEq, Repr

/-- What a deed says of the call of a builder: by which build, and what it has come to so far. -/
def Deed.call? (d : Deed) : Option (BuildId × Option Artifact) :=
  match d.work with
  | .calls => some (d.build, none)
  | .ends product => some (d.build, product)
  | _ => none

/-- The latest call of a builder among such deeds. -/
def lastCall? (P : Deed → Bool) (log : List Deed) : Option (BuildId × Option Artifact) :=
  ((log.filter P).filterMap (·.call?)).getLast?

theorem lastCall?_concat (P : Deed → Bool) (log : List Deed) (d : Deed) :
    lastCall? P (log ++ [d]) =
      if P d then d.call?.or (lastCall? P log) else lastCall? P log := by
  rw [lastCall?, List.filter_append, List.filterMap_append, List.filter_singleton]
  cases P d with
  | false => simp [lastCall?]
  | true =>
    cases hcall : d.call? with
    | none => simp [lastCall?, hcall]
    | some call => simp [hcall]

namespace BuildStage

/-- What a build does as it goes from one stage to the next. -/
def work? : BuildStage → BuildStage → Option DeedKind
  | restoring _, _ => some .reads
  | clearing _, _ => some .clears
  | invoking _, working .. => some .calls
  | working .., marking artifact => some (.ends (some artifact))
  | working .., _ => some (.ends none)
  | marking artifact, _ => some (.writes artifact)
  | _, _ => none

/-- The product of a build: what its builder has returned, or what it has taken over. -/
def product? : BuildStage → Option Artifact
  | marking artifact => some artifact
  | telling (.ok artifact) => some artifact
  | ended (.ok artifact) => some artifact
  | _ => none

/-- Whether the build has not called its builder yet. -/
def isEarly : BuildStage → Bool
  | delayed => true
  | gripping .. => true
  | restoring _ => true
  | clearing _ => true
  | invoking _ => true
  | _ => false

/-- Whether the build is on its way to its locks. -/
def isOutside : BuildStage → Bool
  | delayed => true
  | gripping .. => true
  | _ => false

end BuildStage

theorem Build.product?_of_outcome? {b : Build} {artifact : Artifact}
    (h : b.outcome? = some (.ok artifact)) : b.stage.product? = some artifact := by
  rcases Build.stage_of_outcome? h with hstage | hstage
  · rw [hstage]
    rfl
  · rw [hstage]
    rfl

namespace Site

variable {start s s' s₁ : Site} {a : Act} {acts : List Act} {i n : PartyId} {id : PackageId}
  {b b' : Build} {c : Call} {p : Package} {stage stage' : BuildStage} {w : DeedKind} {tree : FileTree}
  {logs : List BuilderLog}

/-! ## 1. The record -/

/-- The deed that an act is, which leads from `s` to `s'`. -/
def deed? (s s' : Site) : Act → Option Deed
  | .move n => (s.build? n).bind fun b => (s'.build? n).bind fun b' =>
      (s.package? b.package).bind fun p => (b.stage.work? b'.stage).map fun w =>
        ⟨b.package, p.directory, n, w⟩
  | _ => none

/-- The deeds of a run, in order. -/
def deeds (s : Site) : List Act → List Deed
  | [] => []
  | a :: acts => (s.act? a).elim [] fun s' => (s.deed? s' a).toList ++ s'.deeds acts

theorem deeds_concat (hrun : start.run? acts = some s) (h : s.act? a = some s') :
    start.deeds (acts ++ [a]) = start.deeds acts ++ (s.deed? s' a).toList := by
  induction acts generalizing start with
  | nil =>
    cases hrun
    rw [List.nil_append, deeds, deeds, h, Option.elim_some, deeds, List.append_nil, List.nil_append]
  | cons a' acts ih =>
    obtain ⟨s₁, hfirst, hrest⟩ := Option.bind_eq_some_iff.mp hrun
    rw [List.cons_append, deeds, deeds, hfirst, Option.elim_some, Option.elim_some, ih hrest,
      List.append_assoc]

/-! ## 2. Deeds -/

/-- What a build of a package does with its locks, from the stage that it is in: its work, the next
stage, and the files and the logs of the builders that it leaves. -/
inductive Labour (s : Site) (p : Package) :
    BuildStage → DeedKind → BuildStage → FileTree → List BuilderLog → Prop where
  | takeOver (budget : Budget) (m : Marker) (artifact : Artifact)
      (hm : Marker.read? s.tree p.directory = some m)
      (hartifact : m.restore? s.tree p.directory = some artifact) :
      Labour s p (.restoring budget) .reads (.telling (.ok artifact)) s.tree s.builders
  | distrust (budget : Budget)
      (h : (Marker.read? s.tree p.directory).bind (·.restore? s.tree p.directory) = none) :
      Labour s p (.restoring budget) .reads (.clearing budget) s.tree s.builders
  | clear (budget : Budget) : Labour s p (.clearing budget) .clears (.invoking budget)
      ((Marker.clear p.directory).run s.tree).2 s.builders
  | call (budget : Budget) (log : BuilderLog) (hlog : s.builders[p.builder]? = some log) :
      Labour s p (.invoking budget) .calls (.working budget (log.next p.directory) s.now) s.tree
        (s.builders.set p.builder { log with starts := log.starts ++ [s.now] })
  | finish (budget : Budget) (invocation : Invocation) (since : Instant) (entry : Path)
      (tree : FileTree) (h : invocation.finish s.tree = (.built entry, tree)) :
      Labour s p (.working budget invocation since) (.ends (some (s.freshArtifact entry)))
        (.marking (s.freshArtifact entry)) tree s.builders
  | fail (budget : Budget) (invocation : Invocation) (since : Instant) (result : BuildResult)
      (tree : FileTree) (e : PackageError) (h : invocation.finish s.tree = (result, tree))
      (hresult : ∀ entry, result ≠ .built entry) :
      Labour s p (.working budget invocation since) (.ends none) (.telling (.error e)) tree s.builders
  | timeOut (budget : Budget) (invocation : Invocation) (since : Instant) (e : PackageError) :
      Labour s p (.working budget invocation since) (.ends none) (.telling (.error e)) s.tree
        s.builders
  | write (artifact : Artifact) : Labour s p (.marking artifact) (.writes artifact)
      (.telling (.ok artifact)) (s.mark p artifact).tree s.builders

theorem Labour.work? (h : Labour s p stage w stage' tree logs) : stage.work? stage' = some w := by
  cases h <;> rfl

/-- How a build comes to where it is without a deed. -/
inductive Idle (s : Site) (n : BuildId) (b : Build) : Prop where
  | rest (h : s.build? n = some b)
  | fresh (h : s.build? n = none) (hstage : b.stage = .delayed)
  | nears (old : Build) (stage : BuildStage) (h : s.build? n = some old)
      (hold : old.stage.isOutside = true) (hstage : stage.isEarly = true)
      (hready : ∀ budget, stage ≠ .invoking budget) (hb : b = { old with stage })
      (hread : old.restore = true → ∀ budget, stage ≠ .clearing budget)
  | fails (old : Build) (e : PackageError) (h : s.build? n = some old)
      (hb : b = { old with stage := .telling (.error e) })
  | tells (old : Build) (o : Outcome) (h : s.build? n = some old) (hold : old.stage = .telling o)
      (hb : b = { old with stage := .ended o })

/-- How the files change when no build works on them. -/
inductive Elsewhere (s : Site) (a : Act) (s' : Site) : Prop where
  | rest (htree : s'.tree = s.tree)
  | opens (directory : Path) (result : Except FileError Nat)
      (hopen : (FileAction.openFile (lockPath directory)).run s.tree = (result, s'.tree))
  | copies (i : PartyId) (w : CopyWork) (ha : a = .move i) (hi : s.parties[i]? = some (.copyWork w))
      (htree : s'.tree = ((FileAction.copyOutside lockName w.source w.target).run s.tree).2)
  | edits (tree : FileTree) (ha : a = .edit tree) (htree : s'.tree = tree)

/-- What an act does: a build does some work, or nobody does. -/
inductive Doing (s : Site) (a : Act) (s' : Site) : Prop where
  | work (n : BuildId) (b : Build) (p : Package) (w : DeedKind) (stage : BuildStage) (ha : a = .move n)
      (hn : s.build? n = some b) (hp : s.package? b.package = some p)
      (h : Labour s p b.stage w stage s'.tree s'.builders)
      (hbuilds : s'.build? = Function.update s.build? n (some { b with stage }))
  | idle (hdeed : s.deed? s' a = none) (hbuilds : ∀ n b, s'.build? n = some b → Idle s n b)
      (hfiles : Elsewhere s a s')
      (hlogs : s'.builders = s.builders ∨ ∃ builder, a = .provide builder)

theorem deed?_of_labour (hn : s.build? n = some b) (hp : s.package? b.package = some p)
    (h : Labour s p b.stage w stage tree logs)
    (hbuilds : s'.build? = Function.update s.build? n (some { b with stage })) :
    s.deed? s' (.move n) = some ⟨b.package, p.directory, n, w⟩ := by
  have hn' : s'.build? n = some { b with stage } := by rw [hbuilds, Function.update_self]
  rw [deed?, hn, hn', Option.bind_some, Option.bind_some, hp, Option.bind_some, h.work?,
    Option.map_some]

theorem deed?_of_party {party : Party} (hi : s.parties[i]? = some party)
    (h : party.build? = none) : s.deed? s' (.move i) = none := by
  rw [deed?, build?, look, hi, Option.bind_some, h]
  rfl

theorem mark_frame (s : Site) (p : Package) (artifact : Artifact) :
    (s.mark p artifact).parties = s.parties ∧ (s.mark p artifact).builders = s.builders := by
  unfold mark
  split <;> exact ⟨rfl, rfl⟩

@[simp] theorem tree_conclude (s : Site) (i : PartyId) (b : Build) (p : Package) (o : Outcome) :
    (s.conclude i b p o).tree = s.tree := rfl

@[simp] theorem builders_conclude (s : Site) (i : PartyId) (b : Build) (p : Package) (o : Outcome) :
    (s.conclude i b p o).builders = s.builders := rfl

theorem deed?_of_stage (hi : s.parties[i]? = some (.build b))
    (hparties : s'.parties = s.parties.set i (.build { b with stage }))
    (hstage : b.stage = stage') (h : stage'.work? stage = none) : s.deed? s' (.move i) = none := by
  have hbuilds : s'.build? = Function.update s.build? i (some { b with stage }) :=
    look_set _ hi hparties
  rw [deed?, hbuilds, Function.update_self, build?_eq_some.mpr hi, Option.bind_some,
    Option.bind_some, hstage, h]
  exact Option.bind_fun_none _

namespace Doing

theorem of_labour (hi : s.parties[i]? = some (.build b)) (hp : s.package? b.package = some p)
    (hstage : b.stage = stage) (h : Labour s p stage w stage' s'.tree s'.builders)
    (hparties : s'.parties = s.parties.set i (.build { b with stage := stage' })) :
    Doing s (.move i) s' :=
  .work i b p w stage' rfl (build?_eq_some.mpr hi) hp (hstage ▸ h) (look_set _ hi hparties)

/-- A build goes on without a deed. -/
theorem of_idle (hi : s.parties[i]? = some (.build b))
    (hparties : s'.parties = s.parties.set i (.build { b with stage }))
    (hdeed : s.deed? s' a = none) (hidle : Idle s i { b with stage }) (hfiles : Elsewhere s a s')
    (hlogs : s'.builders = s.builders) : Doing s a s' := by
  refine .idle hdeed (fun n b' hb' => ?_) hfiles (.inl hlogs)
  have hbuilds : s'.build? = Function.update s.build? i (some { b with stage }) :=
    look_set _ hi hparties
  rw [hbuilds, Function.update_apply] at hb'
  split at hb'
  · rename_i hn
    rw [hn, ← Option.some.inj hb']
    exact hidle
  · exact .rest hb'

/-- A build goes on in its turn without a deed. -/
theorem of_turn (stage : BuildStage) (hi : s.parties[i]? = some (.build b)) (hstage : b.stage = stage')
    (hwork : stage'.work? stage = none)
    (hparties : s'.parties = s.parties.set i (.build { b with stage }))
    (hidle : Idle s i { b with stage }) (hfiles : Elsewhere s (.move i) s')
    (hlogs : s'.builders = s.builders) : Doing s (.move i) s' :=
  of_idle hi hparties (deed?_of_stage hi hparties hstage hwork) hidle hfiles hlogs

/-- No build goes on. -/
theorem of_builds (hbuilds : s'.build? = s.build?) (hdeed : s.deed? s' a = none)
    (hfiles : Elsewhere s a s') (hlogs : s'.builders = s.builders) : Doing s a s' :=
  .idle hdeed (fun _ _ hb => .rest (hbuilds ▸ hb)) hfiles (.inl hlogs)

end Doing

/-- A step towards the locks opens the lock file, or leaves all files alone. -/
theorem elsewhere_of_gripTurn {grip : Grip} {step : GripStep} (h : GripTurn s id p i grip step)
    (hsite : step.site? = some s₁) (htree : s'.tree = s₁.tree) : Elsewhere s a s' := by
  cases h with
  | stay => cases hsite
  | opened file tree hopen =>
    cases hsite
    exact .opens p.directory (.ok file) (htree ▸ hopen)
  | _ =>
    cases hsite
    exact .rest htree

theorem gripTurn_frame {grip : Grip} {step : GripStep} (h : GripTurn s id p i grip step)
    (hsite : step.site? = some s₁) :
    s₁.parties = s.parties ∧ s₁.builders = s.builders := by
  cases h <;> cases hsite <;> exact ⟨rfl, rfl⟩

theorem doing_of_build (hi : s.parties[i]? = some (.build b)) (h : s.moveBuild? i b = some s') :
    Doing s (.move i) s' := by
  obtain ⟨p, hp, hturn⟩ := moveBuild?_turn h
  have hn : s.build? i = some b := build?_eq_some.mpr hi
  -- a build on its way to the locks goes from one stage to the next without a deed
  have hgrips : ∀ {budget grip step s₁} stage, b.stage = .gripping budget grip →
      GripTurn s b.package p i grip step → step.site? = some s₁ →
      s'.parties = s₁.parties.set i (.build { b with stage }) → s'.tree = s₁.tree →
      s'.builders = s₁.builders → Idle s i { b with stage } → Doing s (.move i) s' := by
    intro budget grip step s₁ stage hstage hgrip hsite hparties htree hlogs hidle
    obtain ⟨hframe, hframe'⟩ := gripTurn_frame hgrip hsite
    rw [hframe] at hparties
    exact .of_turn stage hi hstage rfl hparties hidle (elsewhere_of_gripTurn hgrip hsite htree)
      (hlogs.trans hframe')
  generalize hstage : b.stage = stage at hturn hgrips
  have hnears : ∀ stage', stage.isOutside = true → stage'.isEarly = true →
      (∀ budget, stage' ≠ .invoking budget) →
      (b.restore = true → ∀ budget, stage' ≠ .clearing budget) → Idle s i { b with stage := stage' } :=
    fun stage' hold hstage' hready hread =>
      .nears b stage' hn (hstage ▸ hold) hstage' hready rfl hread
  have hfails : ∀ e, Idle s i { b with stage := .telling (.error e) } := fun e => .fails b e hn rfl
  cases hturn with
  | setOut budget =>
    exact .of_turn (.gripping budget .wanted) hi hstage rfl rfl (hnears _ rfl rfl nofun nofun)
      (.rest rfl) rfl
  | approach budget grip grip' s₁ hgrip =>
    exact hgrips _ rfl hgrip rfl rfl rfl rfl (hnears _ rfl rfl nofun nofun)
  | enter budget grip s₁ hgrip =>
    refine hgrips _ rfl hgrip rfl rfl rfl rfl (hnears _ rfl ?_ ?_ ?_)
    · split <;> rfl
    · split <;> exact nofun
    · -- one that may restore reads first
      intro hrestore
      rw [if_pos hrestore]
      exact nofun
  | giveUp budget grip s₁ e hgrip => exact hgrips _ rfl hgrip rfl rfl rfl rfl (hfails _)
  | takeOver budget m artifact hm hartifact =>
    exact .of_labour hi hp hstage (.takeOver budget m artifact hm hartifact) rfl
  | distrust budget hnone => exact .of_labour hi hp hstage (.distrust budget hnone) rfl
  | clear budget => exact .of_labour hi hp hstage (.clear budget) rfl
  | expire budget e =>
    exact .of_turn (.telling (.error _)) hi hstage rfl rfl (hfails _) (.rest rfl) rfl
  | call budget log hlog => exact .of_labour hi hp hstage (.call budget log hlog) rfl
  | finish budget invocation since entry tree hfinish =>
    exact .of_labour hi hp hstage (.finish budget invocation since entry tree hfinish) rfl
  | fail budget invocation since result tree e hfinish hresult =>
    exact .of_labour hi hp hstage (.fail budget invocation since result tree _ hfinish hresult) rfl
  | timeOut budget invocation since e =>
    exact .of_labour hi hp hstage (.timeOut budget invocation since _) rfl
  | mark artifact =>
    obtain ⟨hparties, hlogs⟩ := mark_frame s p artifact
    have hwrite : Labour s p (.marking artifact) (.writes artifact) (.telling (.ok artifact))
        ((s.mark p artifact).conclude i b p (.ok artifact)).tree
        ((s.mark p artifact).conclude i b p (.ok artifact)).builders := by
      rw [tree_conclude, builders_conclude, hlogs]
      exact .write artifact
    exact .of_labour hi hp hstage hwrite (by rw [← hparties]; rfl)
  | tell o =>
    exact .of_turn (.ended o) hi hstage rfl rfl (.tells b o hn hstage rfl) (.rest rfl) rfl

/-- What a caller does in its turn leaves alone the files, but for the lock file. -/
theorem files_of_call (h : s.moveCall? i c = some s') :
    Elsewhere s a s' ∧ s'.builders = s.builders := by
  obtain ⟨p, hp, hturn⟩ := moveCall?_turn h
  generalize c.stage = stage at hturn
  cases hturn with
  | ask allowance =>
    have hform := s.demandForm c.package p
    generalize s.demand c.package p = d at hform ⊢
    cases hform with
    | settled o =>
      rw [answerDemand, afterOutcome_eq]
      exact ⟨.rest rfl, rfl⟩
    | _ => exact ⟨.rest rfl, rfl⟩
  | get _ allowance n o =>
    rw [afterOutcome_eq]
    exact ⟨.rest rfl, rfl⟩
  | approach allowance order grip grip' s₁ hgrip =>
    exact ⟨elsewhere_of_gripTurn hgrip rfl rfl, (gripTurn_frame hgrip rfl).2⟩
  | enter allowance order grip s₁ hgrip =>
    exact ⟨elsewhere_of_gripTurn hgrip rfl rfl, (gripTurn_frame hgrip rfl).2⟩
  | expire allowance order grip s₁ e hgrip =>
    exact ⟨elsewhere_of_gripTurn hgrip rfl rfl, (gripTurn_frame hgrip rfl).2⟩
  | fail allowance order grip s₁ e hgrip =>
    exact ⟨elsewhere_of_gripTurn hgrip rfl rfl, (gripTurn_frame hgrip rfl).2⟩
  | finish allowance order worker result => cases result <;> exact ⟨.rest rfl, rfl⟩
  | _ => exact ⟨.rest rfl, rfl⟩

theorem doing_of_call (hi : s.parties[i]? = some (.call c)) (h : s.moveCall? i c = some s') :
    Doing s (.move i) s' := by
  obtain ⟨hfiles, hlogs⟩ := files_of_call (a := .move i) h
  have hdeed : s.deed? s' (.move i) = none := deed?_of_party hi rfl
  cases moveCall?_effect h with
  | next stage hstage hparties =>
    exact .of_builds (look_set_of_none _ hi rfl rfl hparties) hdeed hfiles hlogs
  | schedule allowance l start restore hstage hl hdue hparties =>
    -- the call brings a new build, which has not begun
    refine .idle hdeed (fun n b hb => ?_) hfiles (.inl hlogs)
    have hbuilds : s'.build? = Function.update s.build? s.parties.length _ :=
      look_concat_set_of_none _ hi rfl rfl hparties
    rw [hbuilds, Function.update_apply] at hb
    split at hb
    · rename_i hn
      rw [hn]
      exact .fresh (look_of_length_le _ (Nat.le_refl _)) (Option.some.inj hb ▸ rfl)
    · exact .rest hb
  | offTheClock allowance l hstage hl hdue hparties =>
    exact .of_builds (look_set_of_none _ hi rfl rfl hparties) hdeed hfiles hlogs
  | startCopy stage worker hcopy hstage hparties =>
    exact .of_builds (look_concat_set_of_nones _ hi rfl rfl rfl hparties) hdeed hfiles hlogs
  | finishCopy t answer hcopy hparties =>
    exact .of_builds (look_set_of_none _ hi rfl rfl hparties) hdeed hfiles hlogs

/-- Every act is the work of one build, or of none. -/
theorem act?_doing (h : s.act? a = some s') : Doing s a s' := by
  cases act?_turn h with
  | build i b _ hi h => exact doing_of_build hi h
  | call i c _ hi h => exact doing_of_call hi h
  | copy i w result tree hi hnone hrun =>
    exact .of_builds (look_set_of_none _ hi rfl rfl rfl) (deed?_of_party hi rfl)
      (.copies i w rfl hi (congrArg Prod.snd hrun).symm) rfl
  | depart i o hi =>
    exact .of_builds (look_set_of_none _ hi rfl rfl rfl) (deed?_of_party hi rfl) (.rest rfl) rfl
  | cancel i c allowance hi =>
    exact .of_builds (look_set_of_none _ hi rfl rfl rfl) rfl (.rest rfl) rfl
  | drop i b p hi =>
    exact .of_idle hi rfl rfl (.fails b _ (build?_eq_some.mpr hi) rfl) (.rest rfl) rfl
  | come => exact .of_builds (look_concat_of_none _ rfl rfl) rfl (.rest rfl) rfl
  | edit tree => exact .of_builds rfl rfl (.edits tree rfl rfl) rfl
  | provide builder => exact .idle rfl (fun _ _ hb => .rest hb) (.rest rfl) (.inr ⟨builder, rfl⟩)
  | knock directory releaseAfter result tree hopen =>
    exact .of_builds rfl rfl (.opens directory result hopen) rfl
  | visit directory releaseAfter file tree hopen =>
    exact .of_builds (look_concat_of_none _ rfl rfl) rfl (.opens directory (.ok file) hopen) rfl
  | dismiss i o hi => exact .of_builds (look_set_of_none _ hi rfl rfl rfl) rfl (.rest rfl) rfl
  | _ => exact .of_builds rfl rfl (.rest rfl) rfl

end Site

end Playground
