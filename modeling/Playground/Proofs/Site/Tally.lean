import Playground.Proofs.Site.Products
/-!
# Calls of a builder, build by build

A build calls its builder at most once: not at all if it takes over what is there already, and once if
it has a product of its own.  One that may take over reads the marker before it does anything else,
and from there on it either has the artifact or goes on as if it might not.
-/

namespace Playground

variable {n : BuildId} {k : Nat} {log : List Deed} {d : Deed}

/-- How often a build has called its builder. -/
def callsBy (n : BuildId) (log : List Deed) : Nat :=
  log.countP fun d => d.build == n && d.work == .calls

theorem callsBy_concat (n : BuildId) (log : List Deed) (d : Deed) :
    callsBy n (log ++ [d]) =
      callsBy n log + if d.build == n && d.work == .calls then 1 else 0 := by
  rw [callsBy, List.countP_append, List.countP_singleton]
  rfl

/-- What another build does, and what is no call, does not count. -/
theorem callsBy_concat_of_ne (h : d.build ≠ n ∨ d.work ≠ .calls) (log : List Deed) :
    callsBy n (log ++ [d]) = callsBy n log := by
  have hno : (d.build == n && d.work == .calls) = false := by
    rw [Bool.and_eq_false_iff]
    exact h.imp beq_false_of_ne beq_false_of_ne
  rw [callsBy_concat, hno]
  rfl

namespace BuildStage

/-- How often a build in that stage has called its builder. -/
def HasCalled (k : Nat) : BuildStage → Prop
  | working .. => k = 1
  | marking a => k = 1 ∧ a.restored = false
  | telling (.ok a) => k = if a.restored then 0 else 1
  | ended (.ok a) => k = if a.restored then 0 else 1
  | telling (.error _) => k ≤ 1
  | ended (.error _) => k ≤ 1
  | _ => k = 0

/-- Whether the build has found nothing to take over, or might not look. -/
def IsRebuilding : BuildStage → Prop
  | delayed => False
  | gripping .. => False
  | restoring _ => False
  | marking a => a.restored = false
  | telling (.ok a) => a.restored = false
  | ended (.ok a) => a.restored = false
  | _ => True

/-- Whether the build has come to something, or works at it, beyond reading the marker. -/
def isPastReading : BuildStage → Bool
  | delayed => false
  | gripping .. => false
  | restoring _ => false
  | telling (.error _) => false
  | ended (.error _) => false
  | _ => true

variable {stage : BuildStage}

theorem HasCalled.le_one (h : stage.HasCalled k) : k ≤ 1 := by
  cases stage with
  | marking a => exact Nat.le_of_eq h.1
  | telling o =>
    cases o with
    | error e => exact h
    | ok a =>
      have hk : k = if a.restored then 0 else 1 := h
      split at hk <;> omega
  | ended o =>
    cases o with
    | error e => exact h
    | ok a =>
      have hk : k = if a.restored then 0 else 1 := h
      split at hk <;> omega
  | working => exact Nat.le_of_eq h
  | _ =>
    have hk : k = 0 := h
    omega

/-- A build that has not called its builder yet has not done so whatever comes first. -/
theorem hasCalled_of_isEarly (h : stage.isEarly = true) : stage.HasCalled k ↔ k = 0 := by
  cases stage <;> first | exact Iff.rfl | cases h

theorem isPastReading_of_isEarly (hearly : stage.isEarly = true)
    (hready : ∀ budget, stage ≠ .invoking budget) (hread : ∀ budget, stage ≠ .clearing budget) :
    stage.isPastReading = false := by
  cases stage with
  | clearing budget => exact absurd rfl (hread budget)
  | invoking budget => exact absurd rfl (hready budget)
  | delayed => rfl
  | gripping => rfl
  | restoring => rfl
  | _ => cases hearly

end BuildStage

namespace Site

variable {start s s' s₀ s₁ : Site} {a : Act} {acts before rest : List Act} {b : Build} {p : Package}
  {stage stage' : BuildStage} {w : DeedKind} {tree : FileTree} {logs : List BuilderLog}
  {directory : Path} {id : PackageId}

/-! ## 1. The tally -/

/-- How often the builds have called their builders, as far as their stages tell. -/
structure Tally (s : Site) (log : List Deed) : Prop where
  absent : ∀ n, s.build? n = none → callsBy n log = 0
  present : ∀ n b, s.build? n = some b → b.stage.HasCalled (callsBy n log)

theorem Labour.hasCalled (h : Labour s p stage w stage' tree logs)
    (hold : stage.HasCalled (callsBy n log)) :
    stage'.HasCalled (callsBy n (log ++ [⟨id, directory, n, w⟩])) := by
  have hother : w ≠ .calls →
      callsBy n (log ++ [⟨id, directory, n, w⟩]) = callsBy n log :=
    fun hw => callsBy_concat_of_ne (d := ⟨id, directory, n, w⟩) (.inr hw) log
  cases h with
  | takeOver budget m artifact hm hartifact =>
    have hrestored := Marker.restored_of_restore? m hartifact
    rw [hother (by decide), BuildStage.HasCalled, hrestored]
    exact hold
  | distrust => exact hother (by decide) ▸ hold
  | clear => exact hother (by decide) ▸ hold
  | call =>
    have hzero : callsBy n log = 0 := hold
    rw [BuildStage.HasCalled, callsBy_concat, hzero, if_pos (by simp)]
  | finish =>
    rw [hother (by simp)]
    exact ⟨hold, rfl⟩
  | fail =>
    rw [hother (by decide)]
    exact hold.le_one
  | timeOut =>
    rw [hother (by decide)]
    exact hold.le_one
  | write artifact =>
    obtain ⟨hone, hfresh⟩ := hold
    rw [hother (by simp), BuildStage.HasCalled, hfresh, hone]
    rfl

theorem Idle.hasCalled (h : Idle s n b) (ht : Tally s log) : b.stage.HasCalled (callsBy n log) := by
  cases h with
  | rest h => exact ht.present n b h
  | fresh h hstage =>
    rw [hstage]
    exact ht.absent n h
  | nears old stage h hold hstage _ hb =>
    subst hb
    have hearly : old.stage.isEarly = true := by
      revert hold
      cases old.stage <;> first | exact fun _ => rfl | exact fun h => h
    have hzero := (BuildStage.hasCalled_of_isEarly hearly).mp (ht.present n old h)
    exact (BuildStage.hasCalled_of_isEarly hstage).mpr hzero
  | fails old e h hb =>
    subst hb
    exact (ht.present n old h).le_one
  | tells old o h hold hb =>
    subst hb
    have hcalled := ht.present n old h
    rw [hold] at hcalled
    cases o with
    | ok artifact => exact hcalled
    | error e => exact hcalled

namespace Tally

theorem empty (epoch : Nat) (tree : FileTree) : Tally (.empty epoch tree) [] where
  absent _ _ := rfl
  present n b hb := by cases hb

theorem act (ht : Tally s log) (h : s.act? a = some s') :
    Tally s' (log ++ (s.deed? s' a).toList) := by
  have hback : ∀ {m}, s'.build? m = none → s.build? m = none := by
    intro m hm
    refine Option.eq_none_iff_forall_ne_some.mpr fun old hold => ?_
    obtain ⟨b, hb, -⟩ := (act?_builds h).build? hold
    cases hm.symm.trans hb
  cases act?_doing h with
  | work n b p w stage ha hn hp hlabour hbuilds =>
    rw [ha, deed?_of_labour hn hp hlabour hbuilds, Option.toList_some]
    -- only the count of the build that works goes on, if it calls its builder
    have hother : ∀ {m}, m ≠ n →
        callsBy m (log ++ [⟨b.package, p.directory, n, w⟩]) = callsBy m log :=
      fun hm => callsBy_concat_of_ne (d := ⟨b.package, p.directory, n, w⟩) (.inl (Ne.symm hm)) log
    refine ⟨fun m hm => ?_, fun m b' hm => ?_⟩
    · have hne : m ≠ n := by
        rintro rfl
        cases hn.symm.trans (hback hm)
      rw [hother hne, ht.absent m (hback hm)]
    · rw [hbuilds, Function.update_apply] at hm
      split at hm
      · rename_i heq
        rw [heq, ← Option.some.inj hm]
        exact hlabour.hasCalled (ht.present n b hn)
      · rename_i hne
        rw [hother hne]
        exact ht.present m b' hm
  | idle hdeed hbuilds =>
    rw [hdeed, Option.toList_none, List.append_nil]
    exact ⟨fun m hm => ht.absent m (hback hm), fun m b' hm => (hbuilds m b' hm).hasCalled ht⟩

end Tally

theorem tally_of_run {epoch : Nat} {tree : FileTree}
    (hrun : (Site.empty epoch tree).run? acts = some s) :
    Tally s ((Site.empty epoch tree).deeds acts) := by
  refine run?_induction (P := fun acts s => Tally s ((Site.empty epoch tree).deeds acts))
    (.empty epoch tree) (fun {acts s a s'} hrun h ht => ?_) hrun
  rw [deeds_concat hrun h]
  exact ht.act h

/-! ## 2. Reading -/

/-- In a run, build `n` has its locks and reads the marker, which leads from `s₀` to `s₁`. -/
structure Reads (start : Site) (before : List Act) (n : BuildId) (b : Build) (p : Package)
    (s₀ s₁ : Site) : Prop where
  run : start.run? before = some s₀
  build : s₀.build? n = some b
  stage : ∃ budget, b.stage = .restoring budget
  package : s₀.package? b.package = some p
  act : s₀.act? (.move n) = some s₁

/-- In a run, build `n` has read the marker. -/
def HasRead (start : Site) (acts : List Act) (n : BuildId) : Prop :=
  ∃ before rest b p s₀ s₁, acts = before ++ .move n :: rest ∧ Reads start before n b p s₀ s₁

theorem HasRead.concat (h : HasRead start acts n) (a : Act) : HasRead start (acts ++ [a]) n := by
  obtain ⟨before, rest, b, p, s₀, s₁, rfl, hreads⟩ := h
  exact ⟨before, rest ++ [a], b, p, s₀, s₁, by simp, hreads⟩

/-- A build that may take over what is there reads the marker before it comes to anything. -/
theorem hasRead_of_run (hstart : ∀ n, start.build? n = none) (hrun : start.run? acts = some s)
    (hn : s.build? n = some b) (hrestore : b.restore = true) (hpast : b.stage.isPastReading = true) :
    HasRead start acts n := by
  refine run?_induction (P := fun acts s => ∀ {b}, s.build? n = some b → b.restore = true →
    b.stage.isPastReading = true → HasRead start acts n) (fun hn => ?_)
    (fun {acts s a s'} hbefore h ih b hn hrestore hpast => ?_) hrun hn hrestore hpast
  · cases (hstart n).symm.trans hn
  · cases act?_doing h with
    | work m old p w stage ha hm hp hlabour hbuilds =>
      rw [hbuilds, Function.update_apply] at hn
      split at hn
      · rename_i heq
        subst heq
        obtain rfl := Option.some.inj hn
        -- it was past reading before, or reads the marker now
        have hkeep : old.stage.isPastReading = true → HasRead start (acts ++ [a]) n :=
          fun hstage => (ih hm hrestore hstage).concat a
        have hread : (∃ budget, old.stage = .restoring budget) → HasRead start (acts ++ [a]) n := by
          intro hstage
          subst ha
          exact ⟨acts, [], old, p, s, s', rfl, hbefore, hm, hstage, hp, h⟩
        generalize old.stage = stage', s'.tree = tree, s'.builders = logs
          at hlabour hkeep hread
        cases hlabour with
        | takeOver budget => exact hread ⟨budget, rfl⟩
        | distrust budget => exact hread ⟨budget, rfl⟩
        | _ => exact hkeep rfl
      · exact (ih hn hrestore hpast).concat a
    | idle _ hbuilds =>
      have hidle := hbuilds n b hn
      cases hidle with
      | rest hold => exact (ih hold hrestore hpast).concat a
      | fresh _ hstage =>
        rw [hstage] at hpast
        cases hpast
      | nears old stage _ _ hearly hready hb hread =>
        subst hb
        have hnot := BuildStage.isPastReading_of_isEarly hearly hready (hread hrestore)
        cases hnot.symm.trans hpast
      | fails old e _ hb =>
        subst hb
        cases hpast
      | tells old o hold htelling hb =>
        subst hb
        refine (ih hold hrestore ?_).concat a
        rw [htelling]
        cases o with
        | ok artifact => rfl
        | error e => cases hpast

/-- What comes of reading: the build has the artifact of the marker, or goes on to clear it away. -/
theorem Reads.result (h : Reads start before n b p s₀ s₁) :
    (∃ artifact, (Marker.read? s₀.tree p.directory).bind (·.restore? s₀.tree p.directory) =
        some artifact ∧ s₁.published? n = some (.ok artifact)) ∨
      ∃ budget, (Marker.read? s₀.tree p.directory).bind (·.restore? s₀.tree p.directory) = none ∧
        b.stage = .restoring budget ∧ s₁ = s₀.setParty n (.build { b with stage := .clearing budget }) := by
  obtain ⟨budget, hstage⟩ := h.stage
  have hparty := build?_eq_some.mp h.build
  have hact := h.act
  rw [act?, hparty, Option.bind_some] at hact
  obtain ⟨p', hp', hturn⟩ := moveBuild?_turn hact
  obtain rfl := Option.some.inj (h.package.symm.trans hp')
  rw [hstage] at hturn
  cases hturn with
  | takeOver _ m artifact hm hartifact =>
    refine .inl ⟨artifact, by rw [hm, Option.bind_some, hartifact], ?_⟩
    have hparties : (s₀.conclude n b p (.ok artifact)).parties =
        s₀.parties.set n (.build { b with stage := .telling (.ok artifact) }) := rfl
    exact published?_self (look_set _ hparty hparties)
  | distrust _ hnone => exact .inr ⟨budget, hnone, hstage, rfl⟩

/-! ## 3. Rebuilding -/

theorem Labour.isRebuilding (h : Labour s p stage w stage' tree logs) (hold : stage.IsRebuilding) :
    stage'.IsRebuilding := by
  cases h with
  | takeOver => exact False.elim hold
  | finish => exact rfl
  | write => exact hold
  | _ => exact trivial

theorem Idle.isRebuilding {old : Build} (h : Idle s n b) (hn : s.build? n = some old)
    (hold : old.stage.IsRebuilding) : b.stage.IsRebuilding := by
  cases h with
  | rest h => exact Option.some.inj (hn.symm.trans h) ▸ hold
  | fresh h => cases hn.symm.trans h
  | nears old' stage h hout =>
    obtain rfl := Option.some.inj (hn.symm.trans h)
    revert hold hout
    cases old.stage <;> first | exact fun hold _ => False.elim hold | exact fun _ hout => by cases hout
  | fails old' e h hb =>
    subst hb
    exact trivial
  | tells old' o h htelling hb =>
    subst hb
    obtain rfl := Option.some.inj (hn.symm.trans h)
    rw [htelling] at hold
    cases o with
    | ok artifact => exact hold
    | error e => exact hold

/-- A build that has found nothing to take over comes to nothing restored. -/
theorem isRebuilding_of_run (hrun : s.run? rest = some s') (hn : s.build? n = some b)
    (hstage : b.stage.IsRebuilding) : ∃ b', s'.build? n = some b' ∧ b'.stage.IsRebuilding := by
  refine run?_preserves (P := fun s => ∃ b, s.build? n = some b ∧ b.stage.IsRebuilding)
    (fun {s a s'} h hs => ?_) hrun ⟨b, hn, hstage⟩
  obtain ⟨old, hold, hstage⟩ := hs
  obtain ⟨b', hb', -⟩ := (act?_builds h).build? hold
  refine ⟨b', hb', ?_⟩
  cases act?_doing h with
  | work m b₀ p w stage ha hm hp hlabour hbuilds =>
    rw [hbuilds, Function.update_apply] at hb'
    split at hb'
    · rename_i heq
      subst heq
      obtain rfl := Option.some.inj (hold.symm.trans hm)
      rw [← Option.some.inj hb']
      exact hlabour.isRebuilding hstage
    · exact Option.some.inj (hold.symm.trans hb') ▸ hstage
  | idle _ hbuilds => exact (hbuilds n b' hb').isRebuilding hold hstage

end Site

end Playground
