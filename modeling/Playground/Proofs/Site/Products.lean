import Playground.Proofs.Site.Deeds
import Playground.Proofs.Site.Rebuilding
/-!
# Where products come from

A package is settled with what its latest build has come to.  What that build has come to is what the
builder has returned on its latest call for the package, or it is taken over from a marker, and then
the builder has not been called for the package at all.
-/

namespace Playground

variable {history : List Event} {event : Event} {id : PackageId} {n : BuildId}

/-- An invalidation of the package has been accepted since its build `n` was scheduled. -/
def Outdated (history : List Event) (id : PackageId) (n : BuildId) : Prop :=
  ∃ before rest, history = before ++ .scheduled id n :: rest ∧ .invalidated id ∈ rest

theorem Outdated.append (h : Outdated history id n) (events : List Event) :
    Outdated (history ++ events) id n := by
  obtain ⟨before, rest, rfl, hrest⟩ := h
  exact ⟨before, rest ++ events, by simp, List.mem_append_left _ hrest⟩

/-- An invalidation that no build has followed came after all builds. -/
theorem Stale.outdated (h : Stale history id) (hn : .scheduled id n ∈ history) :
    Outdated history id n := by
  obtain ⟨before, rest, rfl, hrest⟩ := h
  have hbefore : .scheduled id n ∈ before := by
    refine (List.mem_append.mp hn).resolve_right fun hn => ?_
    rcases List.mem_cons.mp hn with hn | hn
    · cases hn
    · exact hrest n hn
  obtain ⟨first, middle, rfl⟩ := List.append_of_mem hbefore
  exact ⟨first, middle ++ .invalidated id :: rest, by simp, by simp⟩

/-- Whether a deed is done for the package. -/
def Deed.isFor (id : PackageId) (d : Deed) : Bool := d.package == id

theorem Marker.restored_of_restore? (m : Marker) {t : FileTree} {directory : Path}
    {artifact : Artifact} (h : m.restore? t directory = some artifact) : artifact.restored = true := by
  unfold restore? at h
  dsimp only at h
  split at h
  · rw [← Option.some.inj h]
  · cases h

namespace Site

variable {start s s' : Site} {a : Act} {acts : List Act} {m : BuildId} {b : Build} {o : Outcome}
  {log : List Deed} {p : Package}

/-- Build `n` is the latest of the package. -/
structure IsLatest (s : Site) (id : PackageId) (n : BuildId) : Prop where
  origin : s.origin? n = some id
  le : ∀ m, s.origin? m = some id → m ≤ n

theorem origin?_of_build? (hb : s.build? n = some b) : s.origin? n = some b.package := by
  rw [origin?, hb]
  rfl

theorem IsLatest.congr (h : s'.origin? = s.origin?) : s'.IsLatest id n ↔ s.IsLatest id n := by
  constructor
  · rintro ⟨horigin, hle⟩
    exact ⟨h ▸ horigin, h ▸ hle⟩
  · rintro ⟨horigin, hle⟩
    exact ⟨h ▸ horigin, h ▸ hle⟩

/-- The build in flight is the latest. -/
theorem Sound.isLatest (hs : Sound s) (hphase : s.phase? id = some (.building n)) :
    s.IsLatest id n where
  origin := by
    obtain ⟨b, hb, hid, -⟩ := (hs.building id n).mp hphase
    rw [origin?_of_build? hb, hid]
  le m hm := by
    obtain ⟨b, hb, hid⟩ := Option.map_eq_some_iff.mp hm
    exact hs.latest id n m b hphase hb hid

/-- A build that works is the latest of its package. -/
theorem Sound.isLatest_of_isOpen (hs : Sound s) (hb : s.build? n = some b) (hopen : b.isOpen = true) :
    s.IsLatest b.package n :=
  hs.isLatest ((hs.building b.package n).mpr ⟨b, hb, rfl, hopen⟩)

theorem Labour.isOpen {stage stage' : BuildStage} {w : DeedKind} {tree : FileTree}
    {logs : List BuilderLog} (h : Labour s p stage w stage' tree logs) (hstage : b.stage = stage) :
    b.isOpen = true := by
  obtain ⟨id, start, restore, stage⟩ := b
  dsimp only at hstage
  subst hstage
  cases h <;> rfl

/-- A new build is the latest of its package, and the only one so far that is not older. -/
theorem IsLatest.update {k : BuildId} {b : Build} (hnew : ∀ m, k ≤ m → s.build? m = none)
    (hbuilds : s'.build? = Function.update s.build? k (some b)) (hid : id ≠ b.package) :
    s'.IsLatest id n ↔ s.IsLatest id n := by
  have horigin : ∀ m, s'.origin? m = some id ↔ s.origin? m = some id := by
    intro m
    rw [origin?_update hbuilds, Function.update_apply]
    split
    · rename_i hm
      rw [hm, origin?, hnew k (Nat.le_refl _)]
      simp [Ne.symm hid]
    · rfl
  constructor
  · rintro ⟨h, hle⟩
    exact ⟨(horigin n).mp h, fun m hm => hle m ((horigin m).mpr hm)⟩
  · rintro ⟨h, hle⟩
    exact ⟨(horigin n).mpr h, fun m hm => hle m ((horigin m).mp hm)⟩

/-! ## 1. Settled packages -/

/-- Packages are settled with what their latest builds have come to. -/
def Settled (s : Site) : Prop :=
  ∀ id phase o, s.phase? id = some phase → phase.outcome? = some o →
    ∃ n, s.IsLatest id n ∧ s.published? n = some o

theorem Settled.act (hs : Sound s) (hsettled : Settled s) (h : s.act? a = some s') : Settled s' := by
  intro id phase o hphase ho
  have hpassage := Passage.act h
  -- as long as no build is new and the phase stays, nothing has to be shown
  have hkeep : s'.origin? = s.origin? → s.phase? id = some phase →
      ∃ n, s'.IsLatest id n ∧ s'.published? n = some o := by
    intro horigin hphase
    obtain ⟨n, hlatest, hn⟩ := hsettled id phase o hphase ho
    exact ⟨n, (IsLatest.congr horigin).mpr hlatest, hpassage.outlasts.published hn⟩
  cases hpassage.builds with
  | keep hbuilds hphases => exact hkeep (origin?_of_builds hbuilds) (hphases ▸ hphase)
  | work m b stage hm _ _ hbuilds hphases => exact hkeep (origin?_of_stage hm hbuilds) (hphases ▸ hphase)
  | tell m b _ hm _ hbuilds hphases => exact hkeep (origin?_of_stage hm hbuilds) (hphases ▸ hphase)
  | settle m b o' hm hopen _ hbuilds hphases =>
    rw [hphases, Function.update_apply] at hphase
    split at hphase
    · -- the build that settles the package is in flight until then, and so it is the latest
      rename_i hid
      subst hid
      rw [← Option.some.inj hphase, Phase.outcome?_ofOutcome] at ho
      rw [← Option.some.inj ho]
      exact ⟨m, (IsLatest.congr (origin?_of_stage hm hbuilds)).mpr (hs.isLatest_of_isOpen hm hopen),
        published?_self hbuilds⟩
    · exact hkeep (origin?_of_stage hm hbuilds) hphase
  | schedule k b hnew _ _ hbuilds hphases =>
    rw [hphases, Function.update_apply] at hphase
    split at hphase
    · rw [← Option.some.inj hphase] at ho
      cases ho
    · rename_i hid
      obtain ⟨n, hlatest, hn⟩ := hsettled id phase o hphase ho
      exact ⟨n, (IsLatest.update hnew hbuilds hid).mpr hlatest, hpassage.outlasts.published hn⟩
  | reset k _ hbuilds hphases =>
    rw [hphases, Function.update_apply] at hphase
    split at hphase
    · rw [← Option.some.inj hphase] at ho
      cases ho
    · exact hkeep (origin?_of_builds hbuilds) hphase

theorem settled_of_run {epoch : Nat} {tree : FileTree}
    (hrun : (Site.empty epoch tree).run? acts = some s) : Settled s := by
  have hlast : Sound s ∧ Settled s :=
    run?_preserves (P := fun s => Sound s ∧ Settled s)
      (fun hact h => ⟨h.1.act hact, h.2.act h.1 hact⟩) hrun
      ⟨.empty epoch tree, fun id phase o hphase => by cases hphase⟩
  exact hlast.2

/-! ## 2. Later builds -/

/-- A build of a package comes after another one only if that is out of date, and only the first one
may restore. -/
structure Ordered (s : Site) (history : List Event) : Prop where
  outdated : ∀ id n m, s.origin? n = some id → s.origin? m = some id → n < m →
    Outdated history id n
  first : ∀ n b m, s.build? n = some b → b.restore = true → s.origin? m = some b.package → n ≤ m

namespace Ordered

/-- Builds go on, and none is new. -/
theorem of_keep (ho : Ordered s history) (horigin : s'.origin? = s.origin?)
    (hbuilds : ∀ n b, s'.build? n = some b → ∃ old, s.build? n = some old ∧
      old.package = b.package ∧ old.restore = b.restore) (more : List Event) :
    Ordered s' (history ++ more) where
  outdated id n m hn hm hlt := by
    rw [horigin] at hn hm
    exact (ho.outdated id n m hn hm hlt).append _
  first n b m hb hrestore hm := by
    obtain ⟨old, hold, hid, hsame⟩ := hbuilds n b hb
    rw [horigin, ← hid] at hm
    exact ho.first n old m hold (hsame ▸ hrestore) hm

theorem of_builds (ho : Ordered s history) (hbuilds : s'.build? = s.build?) (more : List Event) :
    Ordered s' (history ++ more) :=
  ho.of_keep (origin?_of_builds hbuilds) (fun _ b hb => ⟨b, hbuilds ▸ hb, rfl, rfl⟩) more

theorem of_stage {k : BuildId} {stage : BuildStage} (ho : Ordered s history)
    (hk : s.build? k = some b)
    (hbuilds : s'.build? = Function.update s.build? k (some { b with stage })) (more : List Event) :
    Ordered s' (history ++ more) := by
  refine ho.of_keep (origin?_of_stage hk hbuilds) (fun n b' hb => ?_) more
  rw [hbuilds, Function.update_apply] at hb
  split at hb
  · rename_i hn
    rw [← Option.some.inj hb]
    exact ⟨b, hn ▸ hk, rfl, rfl⟩
  · exact ⟨b', hb, rfl, rfl⟩

end Ordered

theorem lt_length_of_origin? (h : s.origin? n = some id) : n < s.parties.length := by
  refine Nat.lt_of_not_le fun hle => ?_
  rw [origin?, build?, look_of_length_le _ hle] at h
  cases h

/-- A package has a new build, which is due.  If there was one before it, that is out of date; and if
the new one may restore, there was none. -/
theorem Ordered.schedule {start : Instant} (hl : Ledger s history) (ho : Ordered s history)
    (hp : s.package? id = some p) (hdue : p.lifecycle.IsDue)
    (hclock : p.lifecycle.OnClock p.options.rebuild)
    (hbuilds : s'.build? = Function.update s.build? s.parties.length
      (some ⟨id, start, p.lifecycle.mayRestore, .delayed⟩)) (more : List Event) :
    Ordered s' (history ++ more) where
  outdated k n m hn hm hlt := by
    rw [origin?_update hbuilds, Function.update_apply] at hn hm
    split at hn
    · -- nothing is newer than the new build
      rename_i hnew
      have hle : m ≤ n := by
        rw [hnew]
        split at hm
        · rename_i hm'
          exact Nat.le_of_eq hm'
        · exact Nat.le_of_lt (lt_length_of_origin? hm)
      exact absurd hlt (Nat.not_lt_of_le hle)
    split at hm
    · -- the new build has been asked for, since there was one before it
      obtain rfl := Option.some.inj hm
      have hmem : .scheduled id n ∈ history := (hl.builds id n).mpr hn
      rcases ((hl.packages id p hp).isDue_iff hclock).mp hdue with hnone | ⟨-, hstale⟩
      · exact absurd hmem (hnone n)
      · exact (hstale.outdated hmem).append _
    · exact (ho.outdated k n m hn hm hlt).append _
  first n b m hb hrestore hm := by
    rw [origin?_update hbuilds, Function.update_apply] at hm
    rw [hbuilds, Function.update_apply] at hb
    split at hb
    · -- the new build may restore only if nothing has happened to its package yet
      rename_i hn
      obtain rfl := Option.some.inj hb
      split at hm
      · rename_i hm'
        exact Nat.le_of_eq (hn.trans hm'.symm)
      · have hmem : .scheduled id m ∈ history := (hl.builds id m).mpr hm
        exact absurd hmem (((hl.packages id p hp).mayRestore.mp hrestore).unscheduled m)
    · split at hm
      · rename_i hm'
        exact hm' ▸ Nat.le_of_lt (lt_length_of_origin? (origin?_of_build? hb))
      · exact ho.first n b m hb hrestore hm

theorem Ordered.act (hl : Ledger s history) (ho : Ordered s history) (h : s.act? a = some s') :
    Ordered s' (history ++ (s.event? a).toList) := by
  cases act?_change h with
  | keep _ hbuilds => exact ho.of_builds hbuilds _
  | found _ hbuilds => exact ho.of_builds hbuilds _
  | work k b₀ stage hk _ _ hbuilds => exact ho.of_stage hk hbuilds _
  | settle k b₀ o hk _ _ _ hbuilds => exact ho.of_stage hk hbuilds _
  | stick _ _ _ _ _ hbuilds => exact ho.of_builds hbuilds _
  | invalidate _ _ _ _ _ hbuilds => exact ho.of_builds hbuilds _
  | schedule id p start hp hdue hclock hevent hbuilds => exact ho.schedule hl hp hdue hclock hbuilds _

/-! ## 3. Products of latest builds -/

/-- What the deeds of a run say of its builds. -/
structure Accounts (s : Site) (log : List Deed) : Prop where
  /-- A build that has called its builder has gone beyond that. -/
  callers : ∀ d ∈ log, d.call? ≠ none → ∃ b, s.build? d.build = some b ∧ b.package = d.package ∧
    b.stage.isEarly = false
  /-- The latest build of a package has its product from the latest call of the builder, unless it is
  restored.  Then there has been no call. -/
  products : ∀ id n b artifact, s.IsLatest id n → s.build? n = some b →
    b.stage.product? = some artifact →
    lastCall? (Deed.isFor id) log = if artifact.restored then none else some (n, some artifact)

theorem Labour.isEarly {stage stage' : BuildStage} {w : DeedKind} {tree : FileTree}
    {logs : List BuilderLog} (h : Labour s p stage w stage' tree logs)
    (hstage : stage.isEarly = false) : stage'.isEarly = false := by
  cases h <;> first | rfl | cases hstage

theorem Labour.isEarly_of_call? {stage stage' : BuildStage} {w : DeedKind} {tree : FileTree}
    {logs : List BuilderLog} {directory : Path} (h : Labour s p stage w stage' tree logs)
    (hcall : (Deed.mk id directory n w).call? ≠ none) : stage'.isEarly = false := by
  cases h <;> first | rfl | exact absurd rfl hcall

/-- Without a deed a build that has called its builder does not start again. -/
theorem Idle.isEarly {b' : Build} (h : Idle s n b') (hb : s.build? n = some b)
    (hstage : b.stage.isEarly = false) : b'.stage.isEarly = false := by
  cases h with
  | rest h =>
    rw [Option.some.inj (hb.symm.trans h)] at hstage
    exact hstage
  | fresh h => cases hb.symm.trans h
  | nears old stage h hold =>
    obtain rfl := Option.some.inj (hb.symm.trans h)
    revert hstage hold
    cases b.stage <;> exact nofun
  | fails old e h hb' => rw [hb']; rfl
  | tells old o h hold hb' => rw [hb']; rfl

/-- Without a deed a build has the product that it had. -/
theorem Idle.product? {b' : Build} {artifact : Artifact} (h : Idle s n b')
    (hproduct : b'.stage.product? = some artifact) :
    ∃ b, s.build? n = some b ∧ b.stage.product? = some artifact := by
  cases h with
  | rest h => exact ⟨b', h, hproduct⟩
  | fresh _ hstage =>
    rw [hstage] at hproduct
    cases hproduct
  | nears old stage _ _ hstage _ hb' =>
    subst hb'
    revert hproduct hstage
    cases stage <;> exact nofun
  | fails old e _ hb' =>
    subst hb'
    cases hproduct
  | tells old o h hold hb' =>
    subst hb'
    refine ⟨old, h, ?_⟩
    rw [hold]
    cases o with
    | ok artifact => exact hproduct
    | error e => cases hproduct

namespace Accounts

theorem empty (epoch : Nat) (tree : FileTree) : Accounts (.empty epoch tree) [] where
  callers d hd := by cases hd
  products id n b artifact _ hb := by cases hb

theorem callers_act (hac : Accounts s log) (h : s.act? a = some s') (d : Deed)
    (hd : d ∈ log ++ (s.deed? s' a).toList) (hcall : d.call? ≠ none) :
    ∃ b, s'.build? d.build = some b ∧ b.package = d.package ∧ b.stage.isEarly = false := by
  cases act?_doing h with
  | work n b p w stage ha hn hp hlabour hbuilds =>
    rw [ha, deed?_of_labour hn hp hlabour hbuilds, Option.toList_some] at hd
    rw [hbuilds, Function.update_apply]
    rcases List.mem_append.mp hd with hd | hd
    · obtain ⟨old, hold, hid, hstage⟩ := hac.callers d hd hcall
      split
      · rename_i hsame
        rw [hsame, hn] at hold
        rw [← Option.some.inj hold] at hid hstage
        exact ⟨_, rfl, hid, hlabour.isEarly hstage⟩
      · exact ⟨old, hold, hid, hstage⟩
    · rw [List.mem_singleton.mp hd, if_pos rfl]
      rw [List.mem_singleton.mp hd] at hcall
      exact ⟨_, rfl, rfl, hlabour.isEarly_of_call? hcall⟩
  | idle hdeed hbuilds =>
    rw [hdeed, Option.toList_none, List.append_nil] at hd
    obtain ⟨old, hold, hid, hstage⟩ := hac.callers d hd hcall
    obtain ⟨b, hb, hsame⟩ := (act?_builds h).build? hold
    exact ⟨b, hb, hsame.trans hid, (hbuilds _ b hb).isEarly hold hstage⟩

/-- A package whose only build has not called its builder has seen no call. -/
theorem lastCall?_eq_none (hac : Accounts s log) (hb : s.build? n = some b)
    (honly : ∀ m, s.origin? m = some b.package → m = n) (hstage : b.stage.isEarly = true) :
    lastCall? (Deed.isFor b.package) log = none := by
  refine List.getLast?_eq_none_iff.mpr (List.filterMap_eq_nil_iff.mpr fun d hd => ?_)
  obtain ⟨hd, hid⟩ := List.mem_filter.mp hd
  -- any call would be by this very build, which has not come that far
  by_contra hcall
  obtain ⟨caller, hcaller, hpackage, hearly⟩ := hac.callers d hd hcall
  have horigin := origin?_of_build? hcaller
  rw [hpackage, eq_of_beq hid] at horigin
  rw [honly _ horigin, hb] at hcaller
  rw [← Option.some.inj hcaller, hstage] at hearly
  cases hearly

theorem products_labour {stage : BuildStage} {w : DeedKind} {tree : FileTree}
    {logs : List BuilderLog} {artifact : Artifact} (hl : Ledger s history) (ho : Ordered s history)
    (hac : Accounts s log) (hlatest : s.IsLatest b.package n) (hb : s.build? n = some b)
    (h : Labour s p b.stage w stage tree logs) (hproduct : stage.product? = some artifact) :
    (Deed.mk b.package p.directory n w).call?.or (lastCall? (Deed.isFor b.package) log) =
      if artifact.restored then none else some (n, some artifact) := by
  generalize hstage : b.stage = old at h
  cases h with
  | takeOver budget m taken hm hartifact =>
    obtain rfl := Option.some.inj hproduct
    have hrestore : b.restore = true := by
      have hhonest := (hl.honest n b hb).1
      rw [Build.IsHonest, hstage] at hhonest
      exact hhonest
    rw [m.restored_of_restore? hartifact, if_pos rfl]
    refine hac.lastCall?_eq_none hb (fun m hm => ?_) (by rw [hstage]; rfl)
    exact Nat.le_antisymm (hlatest.le m hm) (ho.first n b m hb hrestore hm)
  | finish budget invocation since entry tree hfinish =>
    rw [← Option.some.inj hproduct]
    rfl
  | write written =>
    exact hac.products _ n b artifact hlatest hb (hstage ▸ hproduct)
  | _ => cases hproduct

theorem products_act (hs : Sound s) (hl : Ledger s history) (ho : Ordered s history)
    (hac : Accounts s log) (h : s.act? a = some s') (artifact : Artifact)
    (hlatest : s'.IsLatest b.package n) (hb : s'.build? n = some b)
    (hproduct : b.stage.product? = some artifact) :
    lastCall? (Deed.isFor b.package) (log ++ (s.deed? s' a).toList) =
      if artifact.restored then none else some (n, some artifact) := by
  cases act?_doing h with
  | work k b₀ p w stage ha hk hp hlabour hbuilds =>
    rw [ha, deed?_of_labour hk hp hlabour hbuilds, Option.toList_some, lastCall?_concat]
    rw [IsLatest.congr (origin?_of_stage hk hbuilds)] at hlatest
    rw [hbuilds, Function.update_apply] at hb
    split at hb
    · rename_i hn
      subst hn
      obtain rfl := Option.some.inj hb
      refine (if_pos (beq_self_eq_true b₀.package)).trans ?_
      exact hac.products_labour hl ho hlatest hk hlabour hproduct
    · -- another build works, which is the latest of its own package
      rename_i hn
      have hworks := hs.isLatest_of_isOpen hk (hlabour.isOpen rfl)
      have hid : b₀.package ≠ b.package := by
        intro hid
        rw [hid] at hworks
        exact hn (Nat.le_antisymm (hworks.le n hlatest.origin) (hlatest.le k hworks.origin))
      rw [if_neg (by simpa [Deed.isFor] using hid)]
      exact hac.products _ n b artifact hlatest hb hproduct
  | idle hdeed hbuilds =>
    rw [hdeed, Option.toList_none, List.append_nil]
    obtain ⟨old, hold, hproduct⟩ := (hbuilds n b hb).product? hproduct
    have hid : old.package = b.package := by
      obtain ⟨b', hb', hid⟩ := (act?_builds h).build? hold
      rw [← hid, Option.some.inj (hb'.symm.trans hb)]
    refine hac.products _ n old artifact ⟨?_, fun m hm => hlatest.le m ?_⟩ hold hproduct
    · rw [origin?_of_build? hold, hid]
    · obtain ⟨other, hother, hsame⟩ := Option.map_eq_some_iff.mp hm
      obtain ⟨b', hb', hid'⟩ := (act?_builds h).build? hother
      rw [origin?_of_build? hb', hid', hsame]

theorem act (hs : Sound s) (hl : Ledger s history) (ho : Ordered s history) (hac : Accounts s log)
    (h : s.act? a = some s') : Accounts s' (log ++ (s.deed? s' a).toList) where
  callers := hac.callers_act h
  products id n b artifact hlatest hb hproduct := by
    obtain rfl := Option.some.inj ((origin?_of_build? hb).symm.trans hlatest.origin)
    exact hac.products_act hs hl ho h artifact hlatest hb hproduct

end Accounts

/-- The record of every run that begins on an empty site. -/
theorem accounts_of_run {epoch : Nat} {tree : FileTree}
    (hrun : (Site.empty epoch tree).run? acts = some s) :
    Ordered s ((Site.empty epoch tree).history acts) ∧
      Accounts s ((Site.empty epoch tree).deeds acts) := by
  refine run?_induction (P := fun acts s => Ordered s ((Site.empty epoch tree).history acts) ∧
    Accounts s ((Site.empty epoch tree).deeds acts)) ?_ (fun {acts s a s'} hrun h hrecord => ?_) hrun
  · refine ⟨⟨fun id n m hn => ?_, fun n b m hb => ?_⟩, .empty epoch tree⟩
    · cases hn
    · cases hb
  · obtain ⟨ho, hac⟩ := hrecord
    rw [history_concat hrun, deeds_concat hrun h]
    exact ⟨ho.act (ledger_of_run hrun) h,
      hac.act (sound_of_run hrun) (ledger_of_run hrun) ho h⟩

end Site

end Playground
