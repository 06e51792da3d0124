import Playground.Proofs.Site.Custody
import Playground.Proofs.Site.Deeds
/-!
# One party in a directory

As long as the lock path of a directory leads to one file only, at most one party holds the lock file
of the directory, however the packages there are named, replaced, built and copied.  Builders are
called, and markers read, cleared and written, by builds that hold both locks.  Whoever is done has
given up both.
-/

namespace Playground

/-- The number of the file that a path leads to. -/
def FileTree.number? (t : FileTree) (path : Path) : Option Nat :=
  match t.look true path with
  | .ok (_, .file number _) => some number
  | _ => none

/-- The lock file that a party at the door has opened. -/
def Standing.file? : Standing → Option Nat
  | atDoor _ file => file
  | _ => none

namespace Site

open Slots (Lines Leads)

variable {start s s' : Site} {a : Act} {acts : List Act} {i j : PartyId} {id : PackageId}
  {st : Standing} {file : Nat} {directory : Path} {D : List Path}

/-! ## 1. The lock file of a directory -/

/-- The directory that a party stands at. -/
def directory? (s : Site) : Standing → Option Path
  | .guest directory => some directory
  | st => st.package?.bind fun id => s.founded[id]?.map (·.directory)

/-- The paths name a directory in which the lock path leads to one file, or to none. -/
def LockIs (D : List Path) (file : Nat) (s : Site) : Prop :=
  ∀ d ∈ D, (s.tree.number? (lockPath d)).all (· == file) = true

instance (D : List Path) (file : Nat) (s : Site) : Decidable (LockIs D file s) :=
  inferInstanceAs (Decidable (∀ d ∈ D, _ = true))

/-- Whoever has opened or holds the lock file of the directory has this file. -/
def Doors (D : List Path) (file : Nat) (s : Site) : Prop :=
  ∀ i st d f, s.standing? i = some st → s.directory? st = some d → d ∈ D →
    (st.file? = some f ∨ (f, i) ∈ s.held) → f = file

theorem length_founded (s : Site) : s.founded.length = s.locks.length := by
  rw [founded, locks, List.length_map, List.length_map]

theorem lt_length_of_lines (h : Lines s.locks id i) : id < s.locks.length := by
  obtain ⟨l, hl, -⟩ := h
  exact (List.getElem?_eq_some_iff.mp hl).1

/-- A directory that is known stays the same. -/
theorem directory?_of_founded (h : s.founded <+: s'.founded)
    (hknown : ∀ id, st.package? = some id → id < s.locks.length) :
    s'.directory? st = s.directory? st := by
  obtain ⟨rest, h⟩ := h
  have hget : ∀ id, st.package? = some id → s'.founded[id]? = s.founded[id]? := by
    intro id hid
    rw [← h, List.getElem?_append_left (s.length_founded ▸ hknown id hid)]
  cases st with
  | guest directory => rfl
  | inLine id => exact congrArg (Option.map _) (hget id rfl)
  | atDoor id file => exact congrArg (Option.map _) (hget id rfl)
  | inside id => exact congrArg (Option.map _) (hget id rfl)

theorem Custody.known (hc : Custody s) (hi : s.standing? i = some st)
    (hid : st.package? = some id) : id < s.locks.length :=
  lt_length_of_lines ((hc.lines id i).mpr ⟨st, hi, hid⟩)

theorem Custody.not_held (hc : Custody s) (hi : ∀ st, s.standing? i = some st → st.hasFile = false)
    (f : Nat) : (f, i) ∉ s.held := by
  intro hmem
  obtain ⟨st, hst, hfile⟩ := (hc.holders i).mp ⟨f, hmem⟩
  rw [hi st hst] at hfile
  cases hfile

/-- The file that the lock path leads to is the only one that can be opened there. -/
theorem LockIs.eq_of_open {t : FileTree} {f : Nat} (h : LockIs D file s')
    (hmem : directory ∈ D)
    (hopen : (FileAction.openFile (lockPath directory)).run t = (.ok f, s'.tree)) : f = file := by
  obtain ⟨place, bytes, hseek⟩ := FileAction.seek_of_openFile hopen
  have hnumber : s'.tree.number? (lockPath directory) = some f := by
    rw [FileTree.number?, FileTree.look_eq_ok_iff.mpr hseek]
  have hall := h directory hmem
  rw [hnumber] at hall
  exact eq_of_beq hall

namespace Doors

theorem of_update {new : Option Standing} (hd : Doors D file s) (hc : Custody s)
    (hfounded : s.founded <+: s'.founded)
    (hstanding : s'.standing? = Function.update s.standing? i new)
    (hheld : ∀ f j, j ≠ i → (f, j) ∈ s'.held → (f, j) ∈ s.held)
    (hnew : ∀ st d f, new = some st → s'.directory? st = some d → d ∈ D →
      (st.file? = some f ∨ (f, i) ∈ s'.held) → f = file) : Doors D file s' := by
  intro j st d f hst hdir hmem hf
  rw [hstanding, Function.update_apply] at hst
  split at hst
  · rename_i hj
    subst hj
    exact hnew st d f hst hdir hmem hf
  · rename_i hj
    rw [directory?_of_founded hfounded fun id hid => hc.known hst hid] at hdir
    exact hd j st d f hst hdir hmem (hf.imp_right (hheld f j hj))

/-- A party that has no lock file takes a step and gets none.  It may have opened one. -/
theorem of_keep {new : Standing} (hd : Doors D file s) (hc : Custody s)
    (hfounded : s.founded <+: s'.founded)
    (hstanding : s'.standing? = Function.update s.standing? i (some new)) (hheld : s'.held = s.held)
    (hi : ∀ st, s.standing? i = some st → st.hasFile = false)
    (hnew : ∀ d f, s'.directory? new = some d → d ∈ D → new.file? = some f → f = file) :
    Doors D file s' := by
  refine hd.of_update hc hfounded hstanding (fun _ _ _ h => hheld ▸ h) ?_
  rintro _ d f ⟨⟩ hdir hmem (hf | hf)
  · exact hnew d f hdir hmem hf
  · exact absurd (hheld ▸ hf) (hc.not_held hi f)

/-- A party that has no lock file gets one, and has done with the door. -/
theorem of_take {new : Standing} {g : Nat} (hd : Doors D file s) (hc : Custody s)
    (hfounded : s.founded <+: s'.founded)
    (hstanding : s'.standing? = Function.update s.standing? i (some new))
    (hheld : s'.held = (g, i) :: s.held)
    (hi : ∀ st, s.standing? i = some st → st.hasFile = false) (hfile : new.file? = none)
    (hnew : ∀ d, s'.directory? new = some d → d ∈ D → g = file) : Doors D file s' := by
  refine hd.of_update hc hfounded hstanding (fun f j hj h => ?_) ?_
  · rw [hheld] at h
    exact (List.mem_cons.mp h).resolve_left fun heq => hj (congrArg Prod.snd heq)
  rintro _ d f ⟨⟩ hdir hmem (hf | hf)
  · cases hfile.symm.trans hf
  · rw [hheld] at hf
    rcases List.mem_cons.mp hf with heq | hold
    · obtain rfl : f = g := congrArg Prod.fst heq
      exact hnew d hdir hmem
    · exact absurd hold (hc.not_held hi f)

/-- A party gives up what it has. -/
theorem of_release (hd : Doors D file s) (hc : Custody s) (hfounded : s.founded <+: s'.founded)
    (hstanding : s'.standing? = Function.update s.standing? i none)
    (hheld : s'.held = s.held.filter (·.2 != i)) : Doors D file s' := by
  refine hd.of_update hc hfounded hstanding (fun f j _ h => ?_) nofun
  rw [hheld] at h
  exact (List.mem_filter.mp h).1

theorem step (hd : Doors D file s) (hc : Custody s) (hfounded : s.founded <+: s'.founded)
    (hlock : LockIs D file s') (h : LockStep s s') : Doors D file s' := by
  -- a package that a party stands at keeps its directory
  have hkept : ∀ {i st st'}, s.standing? i = some st → st'.package? = st.package? →
      s'.directory? st' = s.directory? st' := fun hi hpackage =>
    directory?_of_founded hfounded fun k hk => hc.known hi (hpackage ▸ hk)
  cases h with
  | rest new hnew hstanding hlocks hheld =>
    intro i st d f hst hdir hmem hf
    rw [hstanding] at hst
    rw [hheld] at hf
    rw [hkept hst rfl] at hdir
    exact hd i st d f hst hdir hmem hf
  | queue i id hi hid hstanding hlocks hheld =>
    exact hd.of_keep hc hfounded hstanding hheld (fun _ hst => nomatch hi.symm.trans hst) nofun
  | approach i id hi hfirst hstanding hlocks hheld =>
    refine hd.of_keep hc hfounded hstanding hheld (fun st hst => ?_) nofun
    cases hi.symm.trans hst
    rfl
  | unlatch i p id g hi hp hopen hstanding hlocks hheld =>
    refine hd.of_keep hc hfounded hstanding hheld (fun st hst => ?_) fun d f hdir hmem hf => ?_
    · cases hi.symm.trans hst
      rfl
    · -- the file that is open now is the one that the lock path leads to
      obtain rfl : g = f := Option.some.inj hf
      have hdirectory : s.directory? (.atDoor id (some g)) = some p.directory :=
        congrArg (Option.map _) hp
      cases hdirectory.symm.trans ((hkept hi rfl).symm.trans hdir)
      exact hlock.eq_of_open hmem hopen
  | enter i id g hi hfree hstanding hlocks hheld =>
    refine hd.of_take hc hfounded hstanding hheld (fun st hst => ?_) rfl fun d hdir hmem => ?_
    · cases hi.symm.trans hst
      rfl
    · have hsame : s'.directory? (.inside id) = s.directory? (.atDoor id (some g)) := hkept hi rfl
      exact hd i _ d g hi (hsame.symm.trans hdir) hmem (.inl rfl)
  | leave i id new hnew hi hstanding hlocks hheld =>
    exact hd.of_release hc hfounded hstanding hheld
  | visit i directory g hi hopen hfree hstanding hlocks hheld =>
    refine hd.of_take hc hfounded hstanding hheld (fun _ hst => nomatch hi.symm.trans hst) rfl ?_
    rintro d ⟨⟩ hmem
    exact hlock.eq_of_open hmem hopen
  | depart i directory hi hstanding hlocks hheld =>
    exact hd.of_release hc hfounded hstanding hheld

end Doors

/-- In a run through which the lock path leads to one file, this is the file that everybody has. -/
theorem doors_of_run {epoch : Nat} {tree : FileTree}
    (hrun : (Site.empty epoch tree).run? acts = some s)
    (hlock : Along (fun _ _ s' => LockIs D file s') (.empty epoch tree) acts) : Doors D file s := by
  have hlast : Custody s ∧ Doors D file s :=
    hlock.preserves (P := fun s => Custody s ∧ Doors D file s)
      (fun hact hlock h => ⟨h.1.act hact, h.2.step h.1 (act?_founded hact) hlock (act?_lockStep hact)⟩)
      hrun ⟨.empty epoch tree, fun i st d f hst => by cases hst⟩
  exact hlast.2

/-! ## 2. Who has what -/

/-- The party has both locks of the package. -/
structure Has (s : Site) (i : PartyId) (id : PackageId) : Prop where
  lock : ∃ p, s.package? id = some p ∧ p.lock.holders = [i]
  file : ∃ file, (file, i) ∈ s.held

/-- The party has no lock, and waits for none. -/
structure HasNothing (s : Site) (i : PartyId) : Prop where
  locks : ∀ id p, s.package? id = some p → i ∉ p.lock.holders ∧ i ∉ p.lock.queue
  files : ∀ file, (file, i) ∉ s.held

/-- The party has a lock file in the directory that goes by these names. -/
def Occupies (s : Site) (D : List Path) (i : PartyId) : Prop :=
  ∃ st d, s.standing? i = some st ∧ st.hasFile = true ∧ s.directory? st = some d ∧ d ∈ D

theorem package?_of_locks {l : Slots} (h : s.locks[id]? = some l) :
    ∃ p, s.package? id = some p ∧ p.lock = l := by
  rw [locks_getElem?] at h
  exact Option.map_eq_some_iff.mp h

namespace Custody

theorem has_of_inside (hc : Custody s) (hi : s.standing? i = some (.inside id)) : s.Has i id where
  lock := by
    obtain ⟨l, hl, hfirst⟩ := hc.leads_inside hi
    obtain ⟨p, hp, rfl⟩ := package?_of_locks hl
    refine ⟨p, hp, ?_⟩
    obtain ⟨rest, hline⟩ := List.head?_eq_some_iff.mp hfirst
    rw [(hc.fair _ (List.mem_of_getElem? hl)).eq_ofLine, hline]
    rfl
  file := (hc.holders i).mpr ⟨_, hi, rfl⟩

theorem hasNothing (hc : Custody s) (hi : s.standing? i = none) : s.HasNothing i where
  locks id p hp := by
    have hline : i ∉ p.lock.line := by
      intro hmem
      refine hc.not_lines hi id ⟨p.lock, ?_, hmem⟩
      rw [locks_getElem?, hp]
      rfl
    exact ⟨fun h => hline (List.mem_append_left _ h), fun h => hline (List.mem_append_right _ h)⟩
  files f := hc.not_held (fun st hst => nomatch hi.symm.trans hst) f

/-- A lock that nobody has or waits for is free. -/
theorem lock_eq (hc : Custody s) {p : Package} (hp : s.package? id = some p)
    (hnobody : ∀ i st, s.standing? i = some st → st.package? ≠ some id) : p.lock = .lock := by
  have hl : s.locks[id]? = some p.lock := by
    rw [locks_getElem?, hp]
    rfl
  have hline : p.lock.line = [] := by
    refine List.eq_nil_iff_forall_not_mem.mpr fun i hi => ?_
    obtain ⟨st, hst, hid⟩ := (hc.lines id i).mp ⟨p.lock, hl, hi⟩
    exact hnobody i st hst hid
  rw [(hc.fair _ (List.mem_of_getElem? hl)).eq_ofLine, hline]
  rfl

/-- Those who have a lock file in the directory all have the same one, and so they are one. -/
theorem eq_of_occupies (hc : Custody s) (hd : Doors D file s) (hi : s.Occupies D i)
    (hj : s.Occupies D j) : i = j := by
  have hfile : ∀ {i}, s.Occupies D i → (file, i) ∈ s.held := by
    rintro i ⟨st, d, hst, hhas, hdir, hmem⟩
    obtain ⟨f, hf⟩ := (hc.holders i).mpr ⟨st, hst, hhas⟩
    rw [← hd i st d f hst hdir hmem (.inr hf)]
    exact hf
  exact congrArg Prod.snd (List.inj_on_of_nodup_map hc.files (hfile hi) (hfile hj) rfl)

end Custody

theorem Labour.standing? {p : Package} {stage stage' : BuildStage} {w : DeedKind} {tree : FileTree}
    {logs : List BuilderLog} (h : Labour s p stage w stage' tree logs) (id : PackageId) :
    stage.standing? id = some (.inside id) := by
  cases h <;> rfl

theorem standing?_of_published {n : BuildId} {o : Outcome} (h : s.published? n = some o) :
    s.standing? n = none := by
  obtain ⟨⟨id, start, restore, stage⟩, hb, ho⟩ := Option.bind_eq_some_iff.mp h
  rw [standing?_of_party (build?_eq_some.mp hb)]
  cases stage <;> first | rfl | cases ho

theorem standing?_of_answer {t : Instant} {answer : Except PackageError Gain}
    (h : s.answer? i = some (t, answer)) : s.standing? i = none := by
  unfold answer? at h
  split at h
  · rename_i hi
    rw [standing?_of_party hi]
    rfl
  · cases h

/-- A build comes to a product when it reads one off its marker, or when it has written the marker of
one. -/
def Settles (s : Site) (n : BuildId) (artifact : Artifact) : DeedKind → Prop
  | .reads => ∃ b p m, s.build? n = some b ∧ s.package? b.package = some p ∧
      Marker.read? s.tree p.directory = some m ∧ m.restore? s.tree p.directory = some artifact
  | .writes written => written = artifact
  | _ => False

theorem deed?_of_product {n : BuildId} {artifact : Artifact} (h : s.act? a = some s')
    (hnone : s.published? n = none) (ho : s'.published? n = some (.ok artifact)) :
    ∃ d, s.deed? s' a = some d ∧ d.build = n ∧ s.Settles n artifact d.work := by
  obtain ⟨b', hb', ho⟩ := Option.bind_eq_some_iff.mp ho
  have hold : s.build? n ≠ some b' := by
    intro hb
    rw [published?, hb, Option.bind_some, ho] at hnone
    cases hnone
  cases act?_doing h with
  | work m b p w stage ha hm hp hlabour hbuilds =>
    rw [hbuilds, Function.update_apply] at hb'
    split at hb'
    · rename_i hn
      subst hn
      obtain rfl := Option.some.inj hb'
      refine ⟨_, ha ▸ deed?_of_labour hm hp hlabour hbuilds, rfl, ?_⟩
      generalize b.stage = old, s'.tree = left, s'.builders = logs at hlabour
      -- only a takeover and the writing of a marker come to an artifact
      cases hlabour with
      | takeOver budget marker artifact' hmarker hartifact =>
        rw [← Except.ok.inj (Option.some.inj ho)]
        exact ⟨b, p, marker, hm, hp, hmarker, hartifact⟩
      | write artifact' => exact Except.ok.inj (Option.some.inj ho)
      | _ => cases ho
    · exact absurd hb' hold
  | idle hdeed hbuilds =>
    cases hbuilds n b' hb' with
    | rest hb => exact absurd hb hold
    | fresh _ hstage =>
      obtain ⟨id, start, restore, stage⟩ := b'
      obtain rfl : stage = .delayed := hstage
      cases ho
    | nears old stage _ _ hstage _ hb =>
      subst hb
      cases stage with
      | telling o => cases hstage
      | ended o => cases hstage
      | _ => cases ho
    | fails old e _ hb =>
      subst hb
      cases ho
    | tells old o hb hstage =>
      rw [published?, hb, Option.bind_some, Build.outcome?, hstage] at hnone
      cases hnone

/-! ## 3. One party at a time -/

/-- One party at a time in the directory that goes by the names in `D`. -/
structure Exclusion (D : List Path) (s : Site) : Prop where
  /-- At most one party has a lock file in the directory. -/
  one : ∀ i j, s.Occupies D i → s.Occupies D j → i = j
  /-- Those who have a lock file are those who have acquired one and have not given it up. -/
  holders : ∀ i, (∃ file, (file, i) ∈ s.held) ↔ ∃ st, s.standing? i = some st ∧ st.hasFile = true
  /-- A build reads, clears and writes the marker, calls the builder and waits for it only while it
  has both locks of its own package. -/
  deeds : ∀ a s' d, s.act? a = some s' → s.deed? s' a = some d → s.Has d.build d.package
  /-- So does a caller who has the package copied. -/
  copies : ∀ i c allowance order worker, s.call? i = some c →
    c.stage = .copying allowance order worker → s.Has i c.package
  /-- Without a deed no builder is called, and files change from elsewhere only. -/
  idle : ∀ a s', s.act? a = some s' → s.deed? s' a = none →
    Elsewhere s a s' ∧ (s'.builders = s.builders ∨ ∃ builder, a = .provide builder)
  /-- Without a deed no build comes to a product. -/
  products : ∀ a s' n artifact, s.act? a = some s' → s.published? n = none →
    s'.published? n = some (.ok artifact) →
    ∃ d, s.deed? s' a = some d ∧ d.build = n ∧ s.Settles n artifact d.work
  /-- A build that has come to anything has given up both locks. -/
  builds : ∀ n o, s.published? n = some o → s.HasNothing n
  /-- So has a caller who has an answer. -/
  answers : ∀ i t answer, s.answer? i = some (t, answer) → s.HasNothing i
  /-- The lock of a package is free as soon as nobody has it or waits for it. -/
  free : ∀ id p, s.package? id = some p →
    (∀ i st, s.standing? i = some st → st.package? ≠ some id) → p.lock = .lock

/-- Two packages over one directory, which they name differently.  The first is being built, while
the second stands at the door. -/
def sharedRun : List Act :=
  let terms : Budget.Terms := ⟨none, false, none⟩
  [.provide fun _ _ => ⟨none, fun t => (.broken, t)⟩,
    .edit (FileTree.empty.put ["work", "p"] .directory),
    .found "p" "p" 0 .standard, .found "q" "./p" 0 .standard,
    .come 0 0 terms .ready, .come 1 0 terms .ready, .move 0, .move 0, .move 1, .move 1,
    .move 2, .move 2, .move 2, .move 2, .move 2, .move 2, .move 2, .move 2,
    .move 3, .move 3, .move 3, .move 3, .move 3]

/-- Two packages over one directory, with a builder that removes the lock file.  The build of the
first package has not written its marker yet when that of the second one comes. -/
def removedLockRun : List Act :=
  let terms : Budget.Terms := ⟨none, false, none⟩
  let builder : Builder := fun _ directory => ⟨some 0, fun t =>
    (.built (directory.join "app"), ((FileAction.removeFile (lockPath directory)).run t).2)⟩
  [.provide builder, .edit (FileTree.empty.put ["work", "p"] .directory),
    .found "p" "p" 0 .standard, .found "q" "p" 0 .standard,
    .come 0 0 terms .ready, .come 1 0 terms .ready, .move 0, .move 0, .move 1, .move 1,
    .move 2, .move 2, .move 2, .move 2, .move 2, .move 2, .move 2, .move 2, .move 2,
    .move 3, .move 3, .move 3, .move 3, .move 3]

end Site

end Playground
