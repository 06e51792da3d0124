import Playground.Proofs.Marker
import Playground.Proofs.Site.Exclusion
/-!
# What a marker tells

In a directory where nobody but its builds puts markers, a marker that can be read tells what the
latest call of a builder there has come to.  While a builder is at work there is none.
-/

namespace Playground

/-- Whether the deed is done in the directory that goes by these names. -/
def Deed.isIn (D : List Path) (d : Deed) : Bool := D.contains d.directory

/-- Whether a call of a builder ends. -/
def DeedKind.isEnd : DeedKind → Bool
  | ends _ => true
  | _ => false

/-- Whether the build has cleared the marker and has not written a new one. -/
def BuildStage.hasCleared : BuildStage → Bool
  | invoking _ => true
  | working .. => true
  | marking _ => true
  | _ => false

namespace Site

variable {s s' : Site} {a : Act} {acts : List Act} {n : BuildId} {b : Build} {id : PackageId}
  {D : List Path} {file : Nat} {log : List Deed} {p : Package}

/-! ## 1. The directory and its marker -/

/-- The package has its home in the directory that goes by these names. -/
def IsIn (s : Site) (D : List Path) (id : PackageId) : Prop :=
  ∃ p, s.package? id = some p ∧ p.directory ∈ D

/-- Whether the act may change files in ways that the builds of the directory have no say in: files
are edited or copied, a builder leaves them as it likes, or a build works elsewhere. -/
def isForeign (D : List Path) (s : Site) (a : Act) (s' : Site) : Bool :=
  match a with
  | .edit _ => true
  | .move i =>
      match s.parties[i]? with
      | some (.copyWork _) => true
      | _ => (s.deed? s' a).any fun d => d.work.isEnd || !d.isIn D
  | _ => false

/-- All these names lead to the same marker, and nobody but the builds of the directory puts one
there.  The marker may be removed, or made unreadable. -/
structure KeepsMarker (D : List Path) (s : Site) (a : Act) (s' : Site) : Prop where
  names : ∀ d ∈ D, ∀ d' ∈ D, Marker.read? s'.tree d = Marker.read? s'.tree d'
  foreign : s.isForeign D a s' = true → ∀ d ∈ D,
    Marker.read? s'.tree d = none ∨ Marker.read? s'.tree d = Marker.read? s.tree d

instance (D : List Path) (s : Site) (a : Act) (s' : Site) : Decidable (KeepsMarker D s a s') :=
  decidable_of_iff ((∀ d ∈ D, ∀ d' ∈ D, Marker.read? s'.tree d = Marker.read? s'.tree d') ∧
      (s.isForeign D a s' = true → ∀ d ∈ D,
        Marker.read? s'.tree d = none ∨ Marker.read? s'.tree d = Marker.read? s.tree d))
    ⟨fun h => ⟨h.1, h.2⟩, fun h => ⟨h.names, h.foreign⟩⟩

/-- What the marker of the directory tells, after a run with such deeds. -/
structure Discipline (D : List Path) (s : Site) (log : List Deed) : Prop where
  /-- From before a builder is called until it has returned, and until a marker is written then,
  there is no marker. -/
  cleared : ∀ n b, s.build? n = some b → s.IsIn D b.package → b.stage.hasCleared = true →
    ∀ d ∈ D, Marker.read? s.tree d = none
  /-- What a build is about to write down is what the latest call has come to. -/
  returned : ∀ n b artifact, s.build? n = some b → s.IsIn D b.package →
    b.stage = .marking artifact → lastCall? (Deed.isIn D) log = some (n, some artifact)
  /-- A marker tells what the latest call has come to. -/
  honest : ∀ d ∈ D, ∀ m, Marker.read? s.tree d = some m → ∃ n artifact, ∃ directory ∈ D,
    lastCall? (Deed.isIn D) log = some (n, some artifact) ∧
      Marker.ofArtifact? directory artifact = some m

theorem directory?_inside (s : Site) (id : PackageId) :
    s.directory? (.inside id) = (s.package? id).map (·.directory) := by
  have h : s.directory? (.inside id) = s.founded[id]?.map (·.directory) := rfl
  rw [h, founded_getElem?, Option.map_map]
  rfl

theorem isIn_of_founded (h : s.founded <+: s'.founded) (hid : id < s.locks.length)
    (hin : s'.IsIn D id) : s.IsIn D id := by
  obtain ⟨p', hp', hmem⟩ := hin
  have hsame : s'.directory? (.inside id) = s.directory? (.inside id) :=
    directory?_of_founded h fun _ hk => Option.some.inj hk ▸ hid
  rw [directory?_inside, directory?_inside, hp'] at hsame
  obtain ⟨p, hp, hsame⟩ := Option.map_eq_some_iff.mp hsame.symm
  exact ⟨p, hp, hsame ▸ hmem⟩

theorem standing?_of_hasCleared (hb : s.build? n = some b) (h : b.stage.hasCleared = true) :
    s.standing? n = some (.inside b.package) := by
  rw [standing?_of_party (build?_eq_some.mp hb)]
  obtain ⟨id, start, restore, stage⟩ := b
  cases stage <;> first | rfl | cases h

/-- A build that has cleared the marker of the directory works there since before the act. -/
theorem isIn_of_hasCleared (hc : Custody s) (hfounded : s.founded <+: s'.founded)
    (hb : s.build? n = some b) (hin : s'.IsIn D b.package) (hstage : b.stage.hasCleared = true) :
    s.IsIn D b.package :=
  isIn_of_founded hfounded (hc.known (standing?_of_hasCleared hb hstage) rfl) hin

/-- A build writes the marker of its artifact, or leaves the files as they are. -/
theorem tree_mark (s : Site) (p : Package) (artifact : Artifact) :
    (s.mark p artifact).tree = s.tree ∨ ∃ m, Marker.ofArtifact? p.directory artifact = some m ∧
      Marker.read? (s.mark p artifact).tree p.directory = some m := by
  unfold mark
  cases hm : Marker.ofArtifact? p.directory artifact with
  | none => exact .inl rfl
  | some m =>
    rcases Marker.read?_write (Marker.builtAtMs_le hm) p.directory s.tree with h | h
    · exact .inr ⟨m, rfl, h⟩
    · exact .inl h

/-- A build that has its locks has those of its directory. -/
theorem IsIn.occupies (hin : s.IsIn D id) (hn : s.standing? n = some (.inside id)) :
    s.Occupies D n := by
  obtain ⟨p, hp, hmem⟩ := hin
  exact ⟨_, p.directory, hn, rfl, by rw [directory?_inside, hp]; rfl, hmem⟩

/-! ## 2. What an act keeps -/

/-- The builds that have cleared the marker of the directory are those that had. -/
def SameCleared (D : List Path) (s s' : Site) : Prop :=
  ∀ n b, s'.build? n = some b → s'.IsIn D b.package → b.stage.hasCleared = true →
    s.build? n = some b ∧ s.IsIn D b.package

namespace Discipline

theorem empty (epoch : Nat) {tree : FileTree} (h : ∀ d ∈ D, Marker.read? tree d = none) :
    Discipline D (.empty epoch tree) [] where
  cleared n b hb := by cases hb
  returned n b artifact hb := by cases hb
  honest d hd m hm := by cases (h d hd).symm.trans hm

/-- Where the marker stays, or cannot be read any more, it tells what it told. -/
theorem of_quiet {log' : List Deed} (hd : Discipline D s log) (hsame : SameCleared D s s')
    (hlast : lastCall? (Deed.isIn D) log' = lastCall? (Deed.isIn D) log)
    (hquiet : ∀ d ∈ D,
      Marker.read? s'.tree d = none ∨ Marker.read? s'.tree d = Marker.read? s.tree d) :
    Discipline D s' log' where
  cleared n b hb hin hstage d hmem := by
    obtain ⟨hb, hin⟩ := hsame n b hb hin hstage
    rcases hquiet d hmem with h | h
    · exact h
    · rw [h, hd.cleared n b hb hin hstage d hmem]
  returned n b artifact hb hin hstage := by
    obtain ⟨hb, hin⟩ := hsame n b hb hin (by rw [hstage]; rfl)
    rw [hlast, hd.returned n b artifact hb hin hstage]
  honest d hmem m hm := by
    rcases hquiet d hmem with h | h
    · cases h.symm.trans hm
    · rw [hlast]
      exact hd.honest d hmem m (h ▸ hm)

/-- Where there is no marker, only what is about to be written down has to be told. -/
theorem of_none (hnone : ∀ d ∈ D, Marker.read? s.tree d = none)
    (hreturned : ∀ n b artifact, s.build? n = some b → s.IsIn D b.package →
      b.stage = .marking artifact → lastCall? (Deed.isIn D) log = some (n, some artifact)) :
    Discipline D s log where
  cleared _ _ _ _ _ := hnone
  returned := hreturned
  honest d hmem m hm := by cases (hnone d hmem).symm.trans hm

end Discipline

/-- A build that works in the directory is the only one there. -/
theorem eq_of_hasCleared (hc : Custody s) (hdoors : Doors D file s) (hfounded : s.founded <+: s'.founded)
    (hocc : s.Occupies D n) {new : Build} (hbuilds : s'.build? = Function.update s.build? n (some new))
    {m : BuildId} {b' : Build} (hm : s'.build? m = some b') (hin : s'.IsIn D b'.package)
    (hstage : b'.stage.hasCleared = true) : m = n ∧ b' = new := by
  rw [hbuilds, Function.update_apply] at hm
  split at hm
  · exact ⟨‹_›, (Option.some.inj hm).symm⟩
  · rename_i hne
    have hin := isIn_of_hasCleared hc hfounded hm hin hstage
    exact absurd (hc.eq_of_occupies hdoors (hin.occupies (standing?_of_hasCleared hm hstage)) hocc) hne

/-- When a builder leaves the directory, nobody has put a marker there. -/
theorem KeepsMarker.of_end {w : DeedKind} {stage : BuildStage} (hkeeps : KeepsMarker D s (.move n) s')
    (hn : s.build? n = some b) (hp : s.package? b.package = some p)
    (h : Labour s p b.stage w stage s'.tree s'.builders)
    (hbuilds : s'.build? = Function.update s.build? n (some { b with stage }))
    (hend : w.isEnd = true) : ∀ d ∈ D,
      Marker.read? s'.tree d = none ∨ Marker.read? s'.tree d = Marker.read? s.tree d := by
  refine hkeeps.foreign ?_
  have hparty : s.parties[n]? = some (.build b) := build?_eq_some.mp hn
  rw [isForeign, hparty]
  simp only [deed?_of_labour hn hp h hbuilds, Option.any_some, hend, Bool.true_or]

theorem lastCall?_isIn {d : Deed} (hmem : d.directory ∈ D) (log : List Deed) :
    lastCall? (Deed.isIn D) (log ++ [d]) = d.call?.or (lastCall? (Deed.isIn D) log) := by
  rw [lastCall?_concat]
  exact if_pos (List.contains_iff_mem.mpr hmem)

namespace Discipline

/-- What a build does in the directory. -/
theorem of_work (hc : Custody s) (hdoors : Doors D file s) (hkeeps : KeepsMarker D s (.move n) s')
    (hd : Discipline D s log) {w : DeedKind} {stage : BuildStage} (hfounded : s.founded <+: s'.founded)
    (hn : s.build? n = some b) (hp : s.package? b.package = some p) (hmem : p.directory ∈ D)
    (h : Labour s p b.stage w stage s'.tree s'.builders)
    (hbuilds : s'.build? = Function.update s.build? n (some { b with stage })) :
    Discipline D s' (log ++ [⟨b.package, p.directory, n, w⟩]) := by
  have hin : s.IsIn D b.package := ⟨p, hp, hmem⟩
  have hocc : s.Occupies D n := by
    refine hin.occupies ?_
    rw [standing?_of_party (build?_eq_some.mp hn)]
    exact h.standing? b.package
  have honly : ∀ {m b'}, s'.build? m = some b' → s'.IsIn D b'.package →
      b'.stage.hasCleared = true → m = n ∧ b' = { b with stage } :=
    fun hm => eq_of_hasCleared hc hdoors hfounded hocc hbuilds hm
  have hforeign := hkeeps.of_end hn hp h hbuilds
  have hlast := lastCall?_isIn (d := ⟨b.package, p.directory, n, w⟩) hmem log
  -- a build that is about to call its builder, or whose call ends, leaves no marker
  have hempty : (∀ d ∈ D, Marker.read? s'.tree d = none) → (∀ artifact, stage ≠ .marking artifact) →
      Discipline D s' (log ++ [⟨b.package, p.directory, n, w⟩]) := by
    refine fun hnone hstage => of_none hnone fun m b' artifact hm hin hmarking => ?_
    obtain ⟨-, rfl⟩ := honly hm hin (by rw [hmarking]; rfl)
    exact absurd hmarking (hstage artifact)
  have hcleared : b.stage.hasCleared = true → (s'.tree = s.tree ∨ w.isEnd = true) →
      ∀ d ∈ D, Marker.read? s'.tree d = none := by
    intro hstage htree d hmem
    have hbefore := hd.cleared n b hn hin hstage d hmem
    rcases htree with htree | hend
    · rw [htree, hbefore]
    · rcases hforeign hend d hmem with h | h
      · exact h
      · rw [h, hbefore]
  -- one that has only read it leaves it as it is
  have hread : stage.hasCleared = false → (Deed.mk b.package p.directory n w).call? = none →
      s'.tree = s.tree → Discipline D s' (log ++ [⟨b.package, p.directory, n, w⟩]) := by
    intro hstage hcall htree
    refine hd.of_quiet (fun m b' hm hin hcleared => ?_) (by rw [hlast, hcall]; rfl) fun d _ =>
      .inr (by rw [htree])
    obtain ⟨-, rfl⟩ := honly hm hin hcleared
    cases hcleared.symm.trans hstage
  generalize hold : b.stage = old, htree : s'.tree = tree, hlogs : s'.builders = logs at h
  rw [hold] at hcleared
  cases h with
  | takeOver => exact hread rfl rfl htree
  | distrust => exact hread rfl rfl htree
  | clear =>
    refine hempty (fun d hd => ?_) nofun
    rw [hkeeps.names d hd p.directory hmem, htree]
    exact Marker.read?_clear p.directory s.tree
  | call => exact hempty (hcleared rfl (.inl htree)) nofun
  | finish budget invocation since entry =>
    refine of_none (hcleared rfl (.inr rfl)) fun m b' artifact hm hin hstage => ?_
    obtain ⟨rfl, rfl⟩ := honly hm hin (by rw [hstage]; rfl)
    cases hstage
    rw [hlast]
    rfl
  | fail => exact hempty (hcleared rfl (.inr rfl)) nofun
  | timeOut => exact hempty (hcleared rfl (.inl htree)) nofun
  | write artifact =>
    rcases s.tree_mark p artifact with hsame | ⟨m, hm, hwritten⟩
    · exact hempty (hcleared rfl (.inl (htree.trans hsame))) nofun
    -- all names lead to the marker that has been written
    refine ⟨fun k b' hk hin hstage => ?_, fun k b' _ hk hin hstage => ?_, fun d hmem' m' hm' => ?_⟩
    · obtain ⟨-, rfl⟩ := honly hk hin hstage
      cases hstage
    · obtain ⟨-, rfl⟩ := honly hk hin (by rw [hstage]; rfl)
      cases hstage
    · rw [hkeeps.names d hmem' p.directory hmem, htree, hwritten] at hm'
      refine ⟨n, artifact, p.directory, hmem, ?_, hm'.symm ▸ hm⟩
      rw [hlast, ← hd.returned n b artifact hn hin hold]
      rfl

/-- What a build does elsewhere. -/
theorem of_work_elsewhere (hc : Custody s) (hkeeps : KeepsMarker D s (.move n) s')
    (hd : Discipline D s log) {w : DeedKind} {stage : BuildStage} (hfounded : s.founded <+: s'.founded)
    (hn : s.build? n = some b) (hp : s.package? b.package = some p) (hmem : p.directory ∉ D)
    (h : Labour s p b.stage w stage s'.tree s'.builders)
    (hbuilds : s'.build? = Function.update s.build? n (some { b with stage })) :
    Discipline D s' (log ++ [⟨b.package, p.directory, n, w⟩]) := by
  have hout : Deed.isIn D ⟨b.package, p.directory, n, w⟩ = false :=
    eq_false_of_ne_true fun hin => hmem (List.contains_iff_mem.mp hin)
  refine hd.of_quiet (fun m b' hm hin hstage => ?_) ?_ (hkeeps.foreign ?_)
  · rw [hbuilds, Function.update_apply] at hm
    split at hm
    · obtain rfl := (Option.some.inj hm).symm
      have hstanding : s.standing? n = some (.inside b.package) := by
        rw [standing?_of_party (build?_eq_some.mp hn)]
        exact h.standing? b.package
      obtain ⟨q, hq, hqmem⟩ := isIn_of_founded hfounded (hc.known hstanding rfl) hin
      cases hp.symm.trans hq
      exact absurd hqmem hmem
    · exact ⟨hm, isIn_of_hasCleared hc hfounded hm hin hstage⟩
  · rw [lastCall?_concat, hout, if_neg Bool.false_ne_true]
  · have hparty : s.parties[n]? = some (.build b) := build?_eq_some.mp hn
    rw [isForeign, hparty]
    simp only [deed?_of_labour hn hp h hbuilds, Option.any_some, hout, Bool.not_false, Bool.or_true]

/-- No build does anything. -/
theorem of_idle (hc : Custody s) (hkeeps : KeepsMarker D s a s') (hd : Discipline D s log)
    (hfounded : s.founded <+: s'.founded) (hbuilds : ∀ m b', s'.build? m = some b' → Idle s m b')
    (hfiles : Elsewhere s a s') : Discipline D s' log := by
  refine hd.of_quiet (fun m b' hm hin hstage => ?_) rfl fun d hmem => ?_
  · -- nobody comes to have cleared the marker without a deed
    cases hbuilds m b' hm with
    | rest hm => exact ⟨hm, isIn_of_hasCleared hc hfounded hm hin hstage⟩
    | fresh _ hb =>
      rw [hb] at hstage
      cases hstage
    | nears old stage _ _ hearly hready hb =>
      have hnone : stage.hasCleared = false := by
        cases stage <;> first | rfl | exact absurd rfl (hready _) | cases hearly
      rw [hb] at hstage
      cases hnone.symm.trans hstage
    | fails old e _ hb =>
      rw [hb] at hstage
      cases hstage
    | tells old o _ _ hb =>
      rw [hb] at hstage
      cases hstage
  · cases hfiles with
    | rest htree => exact .inr (by rw [htree])
    | opens directory result hopen => exact .inr (Marker.read?_openFile hopen d)
    | copies i w ha hi =>
      refine hkeeps.foreign ?_ d hmem
      rw [ha, isForeign, hi]
    | edits tree ha =>
      refine hkeeps.foreign ?_ d hmem
      rw [ha, isForeign]

theorem act (hc : Custody s) (hdoors : Doors D file s) (hkeeps : KeepsMarker D s a s')
    (hd : Discipline D s log) (h : s.act? a = some s') :
    Discipline D s' (log ++ (s.deed? s' a).toList) := by
  have hfounded := act?_founded h
  cases act?_doing h with
  | work n b p w stage ha hn hp hlabour hbuilds =>
    subst ha
    rw [deed?_of_labour hn hp hlabour hbuilds]
    by_cases hmem : p.directory ∈ D
    · exact hd.of_work hc hdoors hkeeps hfounded hn hp hmem hlabour hbuilds
    · exact hd.of_work_elsewhere hc hkeeps hfounded hn hp hmem hlabour hbuilds
  | idle hdeed hbuilds hfiles =>
    rw [hdeed, Option.toList_none, List.append_nil]
    exact hd.of_idle hc hkeeps hfounded hbuilds hfiles

end Discipline

theorem discipline_of_run {epoch : Nat} {tree : FileTree}
    (hrun : (Site.empty epoch tree).run? acts = some s)
    (hlock : Along (fun _ _ s' => LockIs D file s') (.empty epoch tree) acts)
    (hkeeps : Along (KeepsMarker D) (.empty epoch tree) acts)
    (hstart : ∀ d ∈ D, Marker.read? tree d = none) :
    Discipline D s ((Site.empty epoch tree).deeds acts) := by
  refine run?_induction (P := fun acts s =>
    Along (fun _ _ s' => LockIs D file s') (.empty epoch tree) acts →
    Along (KeepsMarker D) (.empty epoch tree) acts →
    Discipline D s ((Site.empty epoch tree).deeds acts)) (fun _ _ => .empty epoch hstart)
    (fun {acts s a s'} hrun h ih hlock hkeeps => ?_) hrun hlock hkeeps
  have hlock := ((along_concat hrun a).mp hlock).1
  obtain ⟨hbefore, hlast⟩ := (along_concat hrun a).mp hkeeps
  rw [deeds_concat hrun h]
  exact (ih hlock hbefore).act (custody_of_run hrun) (doors_of_run hrun hlock) (hlast s' h) h

/-! ## 3. Markers and what is restored -/

/-- What the marker of the directory tells, and what is made of it. -/
structure TruthfulMarkers (D : List Path) (s : Site) (log : List Deed) : Prop
    extends Discipline D s log where
  /-- What a build takes over is what the latest call in the directory has come to.  A call that has
  not come to anything is nobody's. -/
  restored : ∀ a s' d artifact, s.act? a = some s' → s.deed? s' a = some d → d.directory ∈ D →
    d.work = .reads → s'.published? d.build = some (.ok artifact) →
    ∃ n product, ∃ directory ∈ D, lastCall? (Deed.isIn D) log = some (n, some product) ∧
      (Marker.ofArtifact? directory product).bind (·.restore? s.tree d.directory) = some artifact

theorem Discipline.restored (hd : Discipline D s log) {d : Deed} {artifact : Artifact}
    (h : s.act? a = some s') (hdeed : s.deed? s' a = some d) (hmem : d.directory ∈ D)
    (hreads : d.work = .reads) (ho : s'.published? d.build = some (.ok artifact)) :
    ∃ n product, ∃ directory ∈ D, lastCall? (Deed.isIn D) log = some (n, some product) ∧
      (Marker.ofArtifact? directory product).bind (·.restore? s.tree d.directory) = some artifact := by
  cases act?_doing h with
  | idle hnone => cases hnone.symm.trans hdeed
  | work n b p w stage ha hn hp hlabour hbuilds =>
    rw [ha, deed?_of_labour hn hp hlabour hbuilds] at hdeed
    obtain rfl := Option.some.inj hdeed
    dsimp only at hmem hreads ho ⊢
    subst hreads
    rw [published?, hbuilds, Function.update_self, Option.bind_some] at ho
    generalize b.stage = old, s'.tree = tree, s'.builders = logs at hlabour
    cases hlabour with
    | takeOver budget m taken hm htaken =>
      cases ho
      obtain ⟨k, product, directory, hdirectory, hlast, hof⟩ := hd.honest _ hmem m hm
      exact ⟨k, product, directory, hdirectory, hlast, by rw [hof, Option.bind_some, htaken]⟩
    | distrust => cases ho

/-- Two packages over one directory, which they name differently.  The first one has been built, and
the second one is about to read the marker. -/
def markedRun : List Act :=
  let terms : Budget.Terms := ⟨none, false, none⟩
  let builder : Builder := fun _ directory => ⟨some 0, fun t =>
    (.built (directory.join "app"), ((FileAction.write (directory.join "app") []).run t).2)⟩
  [.provide builder, .edit (FileTree.empty.put ["work", "p"] .directory),
    .found "p" "p" 0 .standard, .found "q" "./p" 0 .standard,
    .come 0 0 terms .ready, .come 1 0 terms .ready, .move 0, .move 0, .move 1, .move 1] ++
    List.replicate 11 (.move 2) ++ List.replicate 5 (.move 3)

/-- Two packages over one directory, with a builder that removes the lock file when it returns for
the first time, and fails from then on.  Its second call begins before the marker of the first one is
written. -/
def lateMarkerRun : List Act :=
  let terms : Budget.Terms := ⟨none, false, none⟩
  let builder : Builder := fun n directory => ⟨some 0, fun t =>
    if n = 0 then
      (.built (directory.join "app"), ((FileAction.removeFile (lockPath directory)).run t).2)
    else (.failed "broken", t)⟩
  [.provide builder, .edit (FileTree.empty.put ["work", "p"] .directory),
    .found "p" "p" 0 .standard, .found "q" "p" 0 .standard,
    .come 0 0 terms .ready, .come 1 0 terms .ready, .move 0, .move 0, .move 1, .move 1] ++
    List.replicate 9 (.move 2) ++ List.replicate 8 (.move 3) ++ [.move 2]

end Site

end Playground
