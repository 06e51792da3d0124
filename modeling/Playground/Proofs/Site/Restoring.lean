import Playground.Proofs.Site.CopyOrders
import Playground.Proofs.Site.FirstDemand
import Playground.Proofs.Site.Tally
/-!
# Builds are taken over

What a build leaves in a directory stays there as long as nobody touches it, and a copy of the directory
holds it as well.  The first build of a package that finds it there takes it over without a call of the
builder.  If there is nothing to take over, the builder is called, and only once.
-/

namespace Playground

variable {k : Nat} {artifact : Artifact} {b : Build}

/-- Whether the work changes files. -/
def DeedKind.altersFiles : DeedKind → Bool
  | reads => false
  | calls => false
  | _ => true

theorem BuildStage.HasCalled.of_outcome? (h : b.stage.HasCalled k)
    (ho : b.outcome? = some (.ok artifact)) : k = if artifact.restored then 0 else 1 := by
  rcases Build.stage_of_outcome? ho with hstage | hstage
  · rw [hstage] at h
    exact h
  · rw [hstage] at h
    exact h

theorem BuildStage.IsRebuilding.of_outcome? (h : b.stage.IsRebuilding)
    (ho : b.outcome? = some (.ok artifact)) : artifact.restored = false := by
  rcases Build.stage_of_outcome? ho with hstage | hstage
  · rw [hstage] at h
    exact h
  · rw [hstage] at h
    exact h

namespace Site

variable {start s s' s₀ s₁ : Site} {a : Act} {acts before rest : List Act} {n i : PartyId}
  {p : Package} {directory rel : Path} {builtAt builtAtMs : Nat} {epoch : Nat} {tree : FileTree}

/-! ## 1. What is left of a build -/

/-- Whether the act changes files in another way than by opening a lock file: they are edited or copied,
a build clears or writes its marker, or its builder leaves them as it likes. -/
def alters (s : Site) (a : Act) (s' : Site) : Bool :=
  match a with
  | .edit _ => true
  | .move i =>
      match s.parties[i]? with
      | some (.copyWork _) => true
      | _ => (s.deed? s' a).any fun d => d.work.altersFiles
  | _ => false

/-- The act leaves alone the marker in the directory, and the entry point of the build there. -/
structure Spares (directory rel : Path) (s : Site) (a : Act) (s' : Site) : Prop where
  marker : s.alters a s' = true → Marker.read? s'.tree directory = Marker.read? s.tree directory
  entry : s.alters a s' = true → s.tree.isFile (directory.join rel) = true →
    s'.tree.isFile (directory.join rel) = true

instance (directory rel : Path) (s : Site) (a : Act) (s' : Site) :
    Decidable (Spares directory rel s a s') :=
  decidable_of_iff ((s.alters a s' = true →
      Marker.read? s'.tree directory = Marker.read? s.tree directory) ∧
      (s.alters a s' = true → s.tree.isFile (directory.join rel) = true →
        s'.tree.isFile (directory.join rel) = true))
    ⟨fun h => ⟨h.1, h.2⟩, fun h => ⟨h.marker, h.entry⟩⟩

/-- What a directory holds outlasts every act that spares it. -/
theorem Spares.holdsBuild (h : s.act? a = some s') (hspares : Spares directory rel s a s')
    (hholds : s.tree.HoldsBuild directory rel builtAtMs) :
    s'.tree.HoldsBuild directory rel builtAtMs := by
  have hsame : s'.tree = s.tree → s'.tree.HoldsBuild directory rel builtAtMs :=
    fun htree => htree ▸ hholds
  have hspared : s.alters a s' = true → s'.tree.HoldsBuild directory rel builtAtMs :=
    fun halters => hholds.of_same (hspares.marker halters) (hspares.entry halters hholds.entry)
  cases act?_doing h with
  | work n b p w stage ha hn hp hlabour hbuilds =>
    subst ha
    have hwork : w.altersFiles = true → s'.tree.HoldsBuild directory rel builtAtMs := by
      intro hw
      apply hspared
      rw [alters, build?_eq_some.mp hn, deed?_of_labour hn hp hlabour hbuilds]
      exact hw
    generalize b.stage = old, htree : s'.tree = tree, s'.builders = logs at hlabour
    rw [htree] at hsame hwork
    -- taking over, distrusting and calling leave all files as they are
    cases hlabour with
    | takeOver => exact hsame rfl
    | distrust => exact hsame rfl
    | call => exact hsame rfl
    | _ => exact hwork rfl
  | idle hdeed hbuilds hfiles =>
    cases hfiles with
    | rest htree => exact hsame htree
    | opens lock result hopen => exact hholds.openFile hopen
    | copies i w ha hi =>
      subst ha
      exact hspared (by rw [alters, hi])
    | edits tree ha =>
      subst ha
      exact hspared rfl

/-- In a run, build `n` has written the marker of its product into its directory, which leads from `s₀`
to `s₁`. -/
structure Marks (start : Site) (before : List Act) (n : BuildId) (directory : Path)
    (artifact : Artifact) (s₀ s₁ : Site) : Prop where
  run : start.run? before = some s₀
  act : s₀.act? (.move n) = some s₁
  deed : ∃ id, s₀.deed? s₁ (.move n) = some ⟨id, directory, n, .writes artifact⟩
  written : ∃ m, Marker.ofArtifact? directory artifact = some m ∧
    ((m.write directory).run s₀.tree).1 = .ok ()

/-- A run leads to a site where a directory holds what a build has left, with the entry point at a path
in the directory, which has been spared since. -/
inductive Leaves (start : Site) (rel : Path) (builtAt : Nat) : List Act → Site → Path → Prop where
  /-- The build has written its marker. -/
  | marked {before : List Act} {s₀ s₁ : Site} {directory : Path} (n : BuildId)
      (entryPoint : Path) (h : Marks start before n directory ⟨entryPoint, builtAt, false⟩ s₀ s₁)
      (hrel : Path.isAbsolute rel = false) (hentry : entryPoint = directory.join rel)
      (hfile : s₀.tree.isFile entryPoint = true) :
      Leaves start rel builtAt (before ++ [.move n]) s₁ directory
  | spared {acts : List Act} {s s' : Site} {a : Act} {directory : Path}
      (h : Leaves start rel builtAt acts s directory) (hact : s.act? a = some s')
      (hspares : Spares directory rel s a s') : Leaves start rel builtAt (acts ++ [a]) s' directory
  /-- The same directory by another name, by which the marker and the entry point can be reached. -/
  | named {acts : List Act} {s : Site} {directory : Path} (directory' : Path) (place : Place)
      (h : Leaves start rel builtAt acts s directory)
      (hname : s.tree.look true directory = .ok (place, .directory))
      (hname' : s.tree.look true directory' = .ok (place, .directory))
      (hmarker : s.tree.isFile (directory'.join Marker.fileName) = true)
      (hentry : s.tree.isFile (directory'.join rel) = true) :
      Leaves start rel builtAt acts s directory'
  /-- The directory has been copied without a fault into an empty one, where the path of the entry point
  is not too long.  It has no step upwards, and goes by no lock file. -/
  | copied {before : List Act} {s₀ s₁ : Site} {directory : Path} (i : PartyId) (target : Path)
      (h : Leaves start rel builtAt before s₀ directory)
      (hcopies : Copies start before i directory target s₀ s₁) (htidy : s₀.tree.IsTidy)
      (hfresh : s₀.tree.IsFresh directory target) (hup : ".." ∉ rel.segments)
      (hlock : lockName ∉ rel.segments)
      (hfits : (target.join rel).utf8ByteSize ≤ FileTree.maxPath) :
      Leaves start rel builtAt (before ++ [.move i]) s₁ target

theorem Marks.holdsBuild (h : Marks start before n directory artifact s₀ s₁)
    (hrel : Path.isAbsolute rel = false) (hentry : artifact.entryPoint = directory.join rel)
    (hfile : s₀.tree.isFile artifact.entryPoint = true) : s₁.tree.HoldsBuild directory rel
      (min (artifact.builtAt / Clock.milli) Json.maxUInt) := by
  obtain ⟨id, hdeed⟩ := h.deed
  obtain ⟨m, hm, hwritten⟩ := h.written
  cases act?_doing h.act with
  | idle hnone => cases hnone.symm.trans hdeed
  | work k b p w stage ha hn hp hlabour hbuilds =>
    cases ha
    have hsame := (deed?_of_labour hn hp hlabour hbuilds).symm.trans hdeed
    obtain ⟨-, rfl, -, rfl⟩ := Deed.mk.inj (Option.some.inj hsame)
    have htree : s₁.tree = (s₀.mark p artifact).tree := by
      generalize b.stage = old, s₁.tree = tree, s₁.builders = logs at hlabour
      cases hlabour with
      | write => rfl
    have hmark : (s₀.mark p artifact).tree = ((m.write p.directory).run s₀.tree).2 := by
      rw [mark, hm]
      rfl
    rw [htree, hmark]
    exact .of_write hrel hentry hfile hm (Prod.ext hwritten rfl)

/-- What a run leaves in a directory can be taken over there, with the time of the build to the
millisecond. -/
theorem Leaves.holdsBuild (h : Leaves start rel builtAt acts s directory) :
    s.tree.HoldsBuild directory rel (min (builtAt / Clock.milli) Json.maxUInt) := by
  induction h with
  | marked n entryPoint h hrel hentry hfile => exact h.holdsBuild hrel hentry hfile
  | spared _ hact hspares ih => exact hspares.holdsBuild hact ih
  | named directory' place _ hname hname' hmarker hentry ih =>
    exact ih.renamed hname hname' hmarker hentry
  | copied i target _ hcopies htidy hfresh hup hlock hfits ih =>
    exact ih.copy htidy hfresh hcopies.copied (by decide) hup hlock hfits

/-- What is left in a directory outlasts every run that spares it. -/
theorem Leaves.append (h : Leaves start rel builtAt before s₀ directory) (hrest : s₀.run? rest = some s)
    (hspares : Along (Spares directory rel) s₀ rest) :
    Leaves start rel builtAt (before ++ rest) s directory := by
  induction rest generalizing before s₀ with
  | nil =>
    cases hrest
    rwa [List.append_nil]
  | cons a rest ih =>
    obtain ⟨s₁, hact, hrest⟩ := Option.bind_eq_some_iff.mp hrest
    obtain ⟨hfirst, hspares⟩ := hspares s₁ hact
    rw [List.append_cons]
    exact ih (h.spared hact hfirst) hrest hspares

/-- A package is built and leaves its entry point in its directory. -/
def builtRun : List Act :=
  let builder : Builder := fun _ directory => ⟨some 0, fun t =>
    (.built (directory.join "app"), ((FileAction.write (directory.join "app") []).run t).2)⟩
  [.provide builder, .edit (FileTree.empty.put ["work", "p"] .directory), .found "p" "p" 0 .standard,
    .come 0 0 ⟨none, false, none⟩ .ready, .move 0, .move 0] ++ List.replicate 9 (.move 1)

theorem leaves_builtRun : ∃ s, (Site.empty 1234567 .empty).run? (builtRun ++ [.move 1]) = some s ∧
    Leaves (.empty 1234567 .empty) "app" 1234567 (builtRun ++ [.move 1]) s "p" := by
  have hviews : (((Site.empty 1234567 .empty).run? builtRun).bind fun s₀ =>
      (s₀.act? (.move 1)).map fun s₁ => (s₀.deed? s₁ (.move 1),
        ((Marker.write ⟨"app", 1⟩ "p").run s₀.tree).1, s₀.tree.isFile "p/app")) =
      some (some ⟨0, "p", 1, .writes ⟨"p/app", 1234567, false⟩⟩, .ok (), true) := by decide +kernel
  obtain ⟨s₀, hbefore, h⟩ := Option.bind_eq_some_iff.mp hviews
  obtain ⟨s₁, hact, h⟩ := Option.map_eq_some_iff.mp h
  obtain ⟨hdeed, h⟩ := Prod.mk.inj h
  obtain ⟨hwritten, hfile⟩ := Prod.mk.inj h
  refine ⟨s₁, by rw [run?_concat, hbefore, Option.bind_some, hact], ?_⟩
  refine .marked 1 "p/app" ⟨hbefore, hact, ⟨0, hdeed⟩, ⟨"app", 1⟩, ?_, hwritten⟩ ?_ ?_ hfile <;> decide

/-! ## 2. What comes of reading the marker -/

/-- Whoever joined the build has reported an overrun or has got this. -/
def Answers (start : Site) (acts : List Act) (s : Site) (n : BuildId) (o : Outcome) : Prop :=
  ∀ i c t answer, s.call? i = some c → c.wish = .ready → Joins start acts i n →
    c.stage = .answered t answer → IsOverrun answer ∨ answer = o.map .artifact

/-- The build has taken over what build `rel` of the directory left: its entry point, and its time to
the millisecond.  It has not called its builder. -/
structure TakesOver (start : Site) (acts : List Act) (s : Site) (n : BuildId) (directory rel : Path)
    (builtAt : Nat) : Prop where
  published : ∃ entry, Path.components entry = Path.components (directory.join rel) ∧
    s.published? n = some (.ok ⟨entry, builtAt, true⟩) ∧
    Answers start acts s n (.ok ⟨entry, builtAt, true⟩)
  uncalled : callsBy n (start.deeds acts) = 0

/-- The build comes to something only by one call of its builder. -/
structure Rebuilds (start : Site) (acts : List Act) (s : Site) (n : BuildId) : Prop where
  atMostOnce : callsBy n (start.deeds acts) ≤ 1
  once : ∀ artifact, s.published? n = some (.ok artifact) →
    artifact.restored = false ∧ callsBy n (start.deeds acts) = 1

theorem answers_of_run {o : Outcome} (hrun : start.run? acts = some s)
    (ho : s.published? n = some o) : Answers start acts s n o := by
  intro i c t answer hi hwish hjoins hstage
  refine or_iff_not_imp_left.mpr fun hover => ?_
  obtain ⟨o', ho', hanswer⟩ := (fate_of_joins hrun hjoins hi hwish).answer hstage hover
  rw [hanswer, Option.some.inj (ho.symm.trans ho')]

theorem Reads.run_after {b : Build} (h : Reads start before n b p s₀ s₁)
    (hrun : start.run? (before ++ .move n :: rest) = some s) : s₁.run? rest = some s := by
  rw [run?_append, h.run, Option.bind_some, run?, h.act, Option.bind_some] at hrun
  exact hrun

/-- A build that finds what another one has left takes it over. -/
theorem takesOver_of_reads {b : Build}
    (hrun : (Site.empty epoch tree).run? (before ++ .move n :: rest) = some s)
    (hreads : Reads (.empty epoch tree) before n b p s₀ s₁)
    (hholds : s₀.tree.HoldsBuild p.directory rel builtAtMs) :
    TakesOver (.empty epoch tree) (before ++ .move n :: rest) s n p.directory rel
      (builtAtMs * Clock.milli) := by
  have hpublished : s.published? n = some (.ok ⟨p.directory.join (Path.noted p.directory rel),
      builtAtMs * Clock.milli, true⟩) := by
    rcases hreads.result with ⟨artifact, hrestore, ho⟩ | ⟨budget, hnone, -, -⟩
    · obtain rfl := Option.some.inj (hholds.restore.symm.trans hrestore)
      exact run?_preserves published?_act (hreads.run_after hrun) ho
    · cases hholds.restore.symm.trans hnone
  refine ⟨⟨_, Path.components_noted hholds.relative hholds.endsInStep p.directory, hpublished,
    answers_of_run hrun hpublished⟩, ?_⟩
  obtain ⟨b', hn, ho⟩ := Option.bind_eq_some_iff.mp hpublished
  exact ((tally_of_run hrun).present n b' hn).of_outcome? ho

/-- A build that finds nothing to take over has to call its builder. -/
theorem rebuilds_of_reads {b : Build}
    (hrun : (Site.empty epoch tree).run? (before ++ .move n :: rest) = some s)
    (hreads : Reads (.empty epoch tree) before n b p s₀ s₁) (hlacks : s₀.tree.LacksBuild p.directory) :
    Rebuilds (.empty epoch tree) (before ++ .move n :: rest) s n := by
  have hnone := FileTree.lacksBuild_iff.mp hlacks
  rcases hreads.result with ⟨artifact, hrestore, -⟩ | ⟨budget, -, -, hs₁⟩
  · cases hnone.symm.trans hrestore
  · have hclearing : s₁.build? n = some { b with stage := .clearing budget } := by
      have hparties : s₁.parties =
          s₀.parties.set n (.build { b with stage := .clearing budget }) := by rw [hs₁]; rfl
      have hbuilds : s₁.build? = Function.update s₀.build? n _ :=
        look_set _ (build?_eq_some.mp hreads.build) hparties
      rw [hbuilds, Function.update_self]
      rfl
    obtain ⟨b', hn, hstage⟩ := isRebuilding_of_run (hreads.run_after hrun) hclearing trivial
    have hcalled := (tally_of_run hrun).present n b' hn
    refine ⟨hcalled.le_one, fun artifact ho => ?_⟩
    rw [published?, hn, Option.bind_some] at ho
    have hfresh := hstage.of_outcome? ho
    refine ⟨hfresh, ?_⟩
    have hcount := hcalled.of_outcome? ho
    rwa [hfresh] at hcount

/-! ## 3. Builds and copies reproduced -/

/-- What a run from `start` to `s` says about builds that are taken over. -/
structure Reproduction (start : Site) (acts : List Act) (s : Site) : Prop where
  /-- The first demand for a package to which nothing has happened yet, and so no invalidation,
  schedules a build that is due at once and may restore. -/
  demands : ∀ i c allowance p, s.call? i = some c → c.stage = .asking allowance →
    s.package? c.package = some p → Untouched (start.history acts) c.package →
    ∃ s₁, s.act? (.move i) = some s₁ ∧ SetsOut s i c allowance s₁
  /-- Such a build reads the marker before anything comes of it but a fault. -/
  reads : ∀ n b, s.build? n = some b → Opens (start.history acts) b.package n →
    b.stage.isPastReading = true → HasRead start acts n
  /-- If it finds then what another build has left, it takes that over. -/
  restores : ∀ before n rest b p s₀ s₁ rel builtAt, acts = before ++ .move n :: rest →
    Reads start before n b p s₀ s₁ → Leaves start rel builtAt before s₀ p.directory →
    TakesOver start acts s n p.directory rel (min (builtAt / Clock.milli) Json.maxUInt * Clock.milli)
  /-- If there is no marker, or one that cannot be read, is malformed or names no regular file, it needs
  one call of its builder. -/
  rebuilds : ∀ before n rest b p s₀ s₁, acts = before ++ .move n :: rest →
    Reads start before n b p s₀ s₁ → s₀.tree.LacksBuild p.directory → Rebuilds start acts s n
  /-- Unless it is hindered, the first demand is answered with what another build has left. -/
  answers : ∀ i c allowance p d tree rel builtAt, s.call? i = some c → c.stage = .asking allowance →
    c.wish = .ready → s.package? c.package = some p → Untouched (start.history acts) c.package →
    s.IsUnhindered p allowance.budget d tree → Leaves start rel builtAt acts s p.directory →
    ∃ s' entry, s.run? (s.firstDemand i d ++ (List.replicate 2 (.move s.parties.length) ++
        [.move i])) = some s' ∧
      Path.components entry = Path.components (p.directory.join rel) ∧
      s'.answer? i = some (s.now + d, .ok (.artifact
        ⟨entry, min (builtAt / Clock.milli) Json.maxUInt * Clock.milli, true⟩))
  /-- Unless it is hindered, it leads to a call of the builder if there is nothing to take over. -/
  calls : ∀ i c allowance p d tree log, s.call? i = some c → c.stage = .asking allowance →
    s.package? c.package = some p → Untouched (start.history acts) c.package →
    s.IsUnhindered p allowance.budget d tree → tree.LacksBuild p.directory →
    s.builders[p.builder]? = some log →
    ∃ s', s.run? (s.firstDemand i d ++ List.replicate 3 (.move s.parties.length)) = some s' ∧
      s'.builders = s.builders.set p.builder { log with starts := log.starts ++ [s.now + d] }
  /-- Whoever has got a copy of a package has got a package in a directory to which the one of the other
  package has been copied. -/
  copies : ∀ i t k, s.answer? i = some (t, .ok (.copied k)) → ∃ c order p copy, s.call? i = some c ∧
    c.wish = .copy order ∧ s.package? c.package = some p ∧ s.package? k = some copy ∧
    copy.asFounded = p.copyTo order.name order.destination ∧
    HasBeenCopied start acts p.directory order.destination

/-- In every run that begins on an empty site, what a build leaves is taken over by packages that are
made for the same directory or for a copy of it. -/
theorem reproduction (epoch : Nat) (tree : FileTree) (acts : List Act) (s : Site)
    (hrun : (Site.empty epoch tree).run? acts = some s) :
    Reproduction (.empty epoch tree) acts s where
  demands _ _ _ _ hi hc hp huntouched := (ledger_of_run hrun).first hi hc hp huntouched
  reads n b hn hopens hpast := by
    have hrestore := ((ledger_of_run hrun).honest n b hn).2.mpr hopens
    exact hasRead_of_run (fun _ => rfl) hrun hn hrestore hpast
  restores before n rest b p s₀ s₁ rel builtAt hacts hreads hleaves := by
    subst hacts
    exact takesOver_of_reads hrun hreads hleaves.holdsBuild
  rebuilds before n rest b p s₀ s₁ hacts hreads hlacks := by
    subst hacts
    exact rebuilds_of_reads hrun hreads hlacks
  answers i c allowance p d tree' rel builtAt hi hc hwish hp huntouched hfree hleaves := by
    obtain ⟨s₁, s₂, hfirst, hmarker⟩ := run?_firstDemand hrun hi hc hp huntouched hfree
    obtain ⟨file, hopen, -⟩ := hfree.opens
    -- opening the lock file does not disturb what the directory holds
    have hholds := hleaves.holdsBuild.openFile hopen
    obtain ⟨s₃, hlast, hanswer⟩ := hmarker.answer? hwish hfree hholds
    refine ⟨s₃, _, ?_, Path.components_noted hholds.relative hholds.endsInStep _, hanswer⟩
    rw [run?_append, hfirst, Option.bind_some, hlast]
  calls i c allowance p d tree' log hi hc hp huntouched hfree hlacks hlog := by
    obtain ⟨s₁, s₂, hfirst, hmarker⟩ := run?_firstDemand hrun hi hc hp huntouched hfree
    obtain ⟨s₃, hlast, hlogs⟩ := hmarker.working hfree.time hlacks hlog
    exact ⟨s₃, by rw [run?_append, hfirst, Option.bind_some, hlast], hlogs⟩
  copies i t k hanswer := by
    obtain ⟨c, hi, hstage⟩ := call?_of_answer? hanswer
    have hpast := orderPast_of_run (fun _ => rfl) (fun _ => rfl) hrun hi
    obtain ⟨order, p, copy, hrest⟩ := hpast.copied t k hstage
    exact ⟨c, order, p, copy, hi, hrest⟩

/-- The package is ready, and there is a second one in the same directory, for which a caller asks. -/
def secondActs (options : PackageOptions) : List Act :=
  [.move 1, .move 0, .found "q" "p" 0 options, .come 1 0 ⟨none, false, none⟩ .ready, .move 2, .move 2]

theorem leaves_secondActs (options : PackageOptions) (rest : List Act)
    (hrest : ((Site.empty 1234567 .empty).run? (builtRun ++ [.move 1])).all fun s =>
      Along (Spares "p" "app") s (secondActs options ++ rest)) {s : Site}
    (hrun : (Site.empty 1234567 .empty).run? (builtRun ++ [.move 1] ++ (secondActs options ++ rest)) =
      some s) :
    Leaves (.empty 1234567 .empty) "app" 1234567
      (builtRun ++ [.move 1] ++ (secondActs options ++ rest)) s "p" := by
  obtain ⟨s₀, hbuilt, hleaves⟩ := leaves_builtRun
  rw [run?_append, hbuilt, Option.bind_some] at hrun
  rw [hbuilt, Option.all_some] at hrest
  exact hleaves.append hrun (of_decide_eq_true hrest)

/-- The second package has what the build of the first one has left. -/
def secondRun : List Act :=
  builtRun ++ [.move 1] ++ (secondActs .standard ++ (List.replicate 7 (.move 3) ++ [.move 2]))

theorem reproduction_secondRun : ∃ s, (Site.empty 1234567 .empty).run? secondRun = some s ∧
    Leaves (.empty 1234567 .empty) "app" 1234567 secondRun s "p" ∧
    s.answer? 2 = some (0, .ok (.artifact ⟨"p/app", 1000000, true⟩)) ∧
    callsBy 3 ((Site.empty 1234567 .empty).deeds secondRun) = 0 ∧
    Reproduction (.empty 1234567 .empty) secondRun s := by
  have hviews : ((Site.empty 1234567 .empty).run? secondRun).map (·.answer? 2) =
      some (some (0, .ok (.artifact ⟨"p/app", 1000000, true⟩))) := by decide +kernel
  obtain ⟨s, hrun, hanswer⟩ := Option.map_eq_some_iff.mp hviews
  exact ⟨s, hrun, leaves_secondActs _ _ (by decide +kernel) hrun, hanswer, by decide +kernel,
    reproduction 1234567 .empty secondRun s hrun⟩

/-- The second package gives its builds no time. -/
def untimelyRun : List Act :=
  builtRun ++ [.move 1] ++ (secondActs ⟨.standard, 0⟩ ++ (List.replicate 3 (.move 3) ++ [.move 2]))

/-- A build that does not get its locks in time takes over nothing, whatever there is. -/
theorem untimely_restore : ∃ s, (Site.empty 1234567 .empty).run? untimelyRun = some s ∧
    Leaves (.empty 1234567 .empty) "app" 1234567 untimelyRun s "p" ∧
    (Site.empty 1234567 .empty).history untimelyRun = [.scheduled 0 1, .scheduled 1 3] ∧
    s.answer? 2 = some (0, .error (.buildFailed "q" "timed out at lock.acquire after 0ns")) := by
  have hviews : ((Site.empty 1234567 .empty).run? untimelyRun).map (·.answer? 2) =
      some (some (0, .error (.buildFailed "q" "timed out at lock.acquire after 0ns"))) := by
    decide +kernel
  obtain ⟨s, hrun, hanswer⟩ := Option.map_eq_some_iff.mp hviews
  exact ⟨s, hrun, leaves_secondActs _ _ (by decide +kernel) hrun, by decide +kernel, hanswer⟩

end Site

end Playground
