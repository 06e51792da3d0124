import Playground.Proofs.Site.Run
/-!
# Builds in flight

A build is in flight until it has settled its package.  In every run a package is in the phase of a
build exactly while that build is in flight, and it is the latest build of the package.
-/

namespace Playground.Site

variable {s s' : Site} {a : Act} {n m : BuildId} {b : Build} {id : PackageId}

/-! ## 1. Builds -/

/-- Build `n` is a build of the package and has not settled it. -/
def Flies (s : Site) (id : PackageId) (n : BuildId) : Prop :=
  ∃ b, s.build? n = some b ∧ b.package = id ∧ b.isOpen = true

theorem flies_of_builds (h : s'.build? = s.build?) : s'.Flies id n ↔ s.Flies id n := by
  rw [Flies, h]
  rfl

theorem flies_self (h : s'.build? = Function.update s.build? n (some b)) :
    s'.Flies id n ↔ b.package = id ∧ b.isOpen = true := by
  rw [Flies, h, Function.update_self]
  constructor
  · rintro ⟨b', hb, hflies⟩
    exact Option.some.inj hb ▸ hflies
  · intro hflies
    exact ⟨b, rfl, hflies⟩

theorem flies_of_ne (h : s'.build? = Function.update s.build? n (some b)) (hne : m ≠ n) :
    s'.Flies id m ↔ s.Flies id m := by
  rw [Flies, h, Function.update_of_ne hne]
  rfl

/-- A build that stays unsettled, or settled, counts as before. -/
theorem flies_of_isOpen {b' : Build} (hn : s.build? n = some b)
    (h : s'.build? = Function.update s.build? n (some b')) (hpackage : b'.package = b.package)
    (hopen : b'.isOpen = b.isOpen) : s'.Flies id m ↔ s.Flies id m := by
  by_cases hne : m = n
  · subst hne
    rw [flies_self h, hpackage, hopen, Flies, hn]
    constructor
    · intro hflies
      exact ⟨b, rfl, hflies⟩
    · rintro ⟨b', hb, hflies⟩
      exact Option.some.inj hb ▸ hflies
  · exact flies_of_ne h hne

/-- A build that settles its package is in flight no more. -/
theorem flies_of_settle {b' : Build} (h : s'.build? = Function.update s.build? n (some b'))
    (hopen : b'.isOpen = false) : s'.Flies id m ↔ s.Flies id m ∧ m ≠ n := by
  by_cases hne : m = n
  · subst hne
    rw [flies_self h, hopen]
    exact ⟨fun hflies => absurd hflies.2 Bool.false_ne_true, fun hflies => absurd rfl hflies.2⟩
  · rw [flies_of_ne h hne, and_iff_left hne]

/-- A build that is scheduled joins those in flight. -/
theorem flies_of_schedule (hn : s.build? n = none) (hopen : b.isOpen = true)
    (h : s'.build? = Function.update s.build? n (some b)) :
    s'.Flies id m ↔ s.Flies id m ∨ m = n ∧ b.package = id := by
  have hnew : ¬ s.Flies id n := by
    rintro ⟨b', hb', -⟩
    rw [hn] at hb'
    cases hb'
  by_cases hne : m = n
  · subst hne
    rw [flies_self h, and_iff_left hopen]
    exact ⟨fun hid => .inr ⟨rfl, hid⟩, fun hflies => (hflies.resolve_left hnew).2⟩
  · rw [flies_of_ne h hne]
    exact ⟨.inl, fun hflies => hflies.resolve_right fun hm => hne hm.1⟩

/-- Builds stay builds of their packages. -/
theorem build?_before {b' b'' : Build} (hn : s.build? n = some b)
    (h : s'.build? = Function.update s.build? n (some b')) (hpackage : b'.package = b.package)
    (hm : s'.build? m = some b'') : ∃ b₀, s.build? m = some b₀ ∧ b₀.package = b''.package := by
  rw [h, Function.update_apply] at hm
  split at hm
  · rename_i heq
    rw [heq, ← Option.some.inj hm]
    exact ⟨b, hn, hpackage.symm⟩
  · exact ⟨b'', hm, rfl⟩

theorem published?_of_builds (h : s'.build? = s.build?) : s'.published? n = s.published? n := by
  rw [published?, h]
  rfl

theorem published?_self (h : s'.build? = Function.update s.build? n (some b)) :
    s'.published? n = b.outcome? := by
  rw [published?, h, Function.update_self]
  rfl

theorem published?_of_ne (h : s'.build? = Function.update s.build? n (some b)) (hne : m ≠ n) :
    s'.published? m = s.published? m := by
  rw [published?, h, Function.update_of_ne hne]
  rfl

theorem published?_of_build? (h : s.build? n = some b) : s.published? n = b.outcome? := by
  rw [published?, h]
  rfl

theorem published?_of_outcome? {o : Outcome} (h : s.outcome? n = some o) :
    s.published? n = some o := by
  unfold outcome? at h
  split at h
  · rename_i heq
    rw [published?_of_build? (build?_eq_some.mpr heq)]
    exact h
  · cases h

/-- A build that has come to what it had come to before, if to anything, is as good as the one
before. -/
theorem published?_of_update {new : Build}
    (hbuilds : s'.build? = Function.update s.build? n (some new))
    (hsame : new.outcome? = s.published? n) (m : BuildId) : s'.published? m = s.published? m := by
  by_cases hne : m = n
  · rw [hne, published?_self hbuilds, hsame]
  · exact published?_of_ne hbuilds hne

/-- What a build has settled its package with stays, unless the build does so just now.  Then just
the one phase changes. -/
theorem BuildsEffect.published?_cases (h : BuildsEffect s s') (m : BuildId) :
    s'.published? m = s.published? m ∨
      ∃ b o, s.build? m = some b ∧ b.isOpen = true ∧ NoOverrun o ∧ s'.published? m = some o ∧
        s'.phase? = Function.update s.phase? b.package (some (.ofOutcome o)) := by
  cases h with
  | keep hbuilds _ => exact .inl (published?_of_builds hbuilds)
  | work n b stage hn hopen hstage hbuilds _ =>
    refine .inl (published?_of_update hbuilds ?_ m)
    rw [published?_of_build? hn, Build.outcome?_of_isOpen hopen, Build.outcome?_of_isOpen hstage]
  | settle n b o hn hopen ho hbuilds hphases =>
    by_cases hne : m = n
    · subst hne
      exact .inr ⟨b, o, hn, hopen, ho, published?_self hbuilds, hphases⟩
    · exact .inl (published?_of_ne hbuilds hne)
  | tell n b o hn hstage hbuilds _ =>
    -- the build has settled its package before, and tells of just that
    refine .inl (published?_of_update hbuilds ?_ m)
    rw [published?_of_build? hn, Build.outcome?, Build.outcome?, hstage]
  | schedule n b hn hopen _ hbuilds _ =>
    refine .inl (published?_of_update hbuilds ?_ m)
    rw [Build.outcome?_of_isOpen hopen, published?, hn n (Nat.le_refl _)]
    rfl
  | reset id _ hbuilds _ => exact .inl (published?_of_builds hbuilds)

theorem published?_cases (h : s.act? a = some s') (m : BuildId) :
    s'.published? m = s.published? m ∨
      ∃ b o, s.build? m = some b ∧ b.isOpen = true ∧ NoOverrun o ∧ s'.published? m = some o ∧
        s'.phase? = Function.update s.phase? b.package (some (.ofOutcome o)) :=
  (act?_builds h).published?_cases m

/-- Once a build has settled its package, it never comes to anything else. -/
theorem BuildsEffect.published? {o : Outcome} (h : BuildsEffect s s')
    (ho : s.published? m = some o) : s'.published? m = some o := by
  rcases h.published?_cases m with hkeep | ⟨b, _, hb, hopen, -⟩
  · exact hkeep.trans ho
  · rw [published?_of_build? hb, Build.outcome?_of_isOpen hopen] at ho
    cases ho

theorem published?_act {o : Outcome} (h : s.act? a = some s') (ho : s.published? m = some o) :
    s'.published? m = some o := (act?_builds h).published? ho

/-! ## 2. The invariant -/

/-- What holds of builds and phases in every state of a run. -/
structure Sound (s : Site) : Prop where
  /-- A package is in a build exactly while that build has not settled it. -/
  building : ∀ id n, s.phase? id = some (.building n) ↔ s.Flies id n
  /-- The build that a package is in is its latest. -/
  latest : ∀ id n m b, s.phase? id = some (.building n) → s.build? m = some b → b.package = id →
    m ≤ n
  /-- A package is settled with what one of the builds has come to. -/
  origins : ∀ id phase o, s.phase? id = some phase → phase.outcome? = some o →
    ∃ n, s.published? n = some o
  /-- No build comes to the overrun of a budget. -/
  outcomes : ∀ n o, s.published? n = some o → NoOverrun o

namespace Sound

theorem empty (epoch : Nat) (tree : FileTree) : Sound (.empty epoch tree) where
  building id n := by
    constructor
    · intro hphase
      cases hphase
    · rintro ⟨b, hb, -⟩
      cases hb
  latest id n m b hphase := by cases hphase
  origins id phase o hphase := by cases hphase
  outcomes n o ho := by cases ho

/-- No package is settled with the overrun of a budget. -/
theorem phases (hs : Sound s) (id : PackageId) (phase : Phase) (o : Outcome)
    (hphase : s.phase? id = some phase) (ho : phase.outcome? = some o) : NoOverrun o := by
  obtain ⟨n, hn⟩ := hs.origins id phase o hphase ho
  exact hs.outcomes n o hn

theorem building_of_builds (hs : Sound s) (h : BuildsEffect s s') (id : PackageId) (m : BuildId) :
    s'.phase? id = some (.building m) ↔ s'.Flies id m := by
  cases h with
  | keep hbuilds hphases =>
    rw [flies_of_builds hbuilds, hphases]
    exact hs.building id m
  | work n b stage hn hopen hstage hbuilds hphases =>
    rw [hphases, flies_of_isOpen hn hbuilds rfl (hstage.trans hopen.symm)]
    exact hs.building id m
  | settle n b o hn hopen _ hbuilds hphases =>
    have hflies : s.phase? b.package = some (.building n) :=
      (hs.building _ _).mpr ⟨b, hn, rfl, hopen⟩
    rw [flies_of_settle hbuilds rfl, ← hs.building, hphases, Function.update_apply]
    split
    · -- the package of the build: it was in the phase of this build, and is in none now
      rename_i heq
      rw [heq, hflies]
      constructor
      · intro hphase
        exact absurd (Option.some.inj hphase) (Phase.ofOutcome_ne_building o m)
      · rintro ⟨hphase, hne⟩
        exact absurd (Phase.building.inj (Option.some.inj hphase)).symm hne
    · -- another package is in the phase of a build of its own
      rename_i hid
      refine ⟨fun hphase => ⟨hphase, ?_⟩, And.left⟩
      -- the build cannot be one of another package as well
      rintro rfl
      obtain ⟨b', hb', hpackage, -⟩ := (hs.building _ _).mp hphase
      rw [hn] at hb'
      rw [← Option.some.inj hb'] at hpackage
      exact hid hpackage.symm
  | tell n b o hn hstage hbuilds hphases =>
    have hopen : ({ b with stage := .ended o } : Build).isOpen = b.isOpen := by
      rw [Build.isOpen, Build.isOpen, hstage]
    rw [hphases, flies_of_isOpen hn hbuilds rfl hopen]
    exact hs.building id m
  | schedule n b hn hopen hidle hbuilds hphases =>
    rw [flies_of_schedule (hn n (Nat.le_refl _)) hopen hbuilds, ← hs.building, hphases,
      Function.update_apply]
    split
    · -- the package of the build was in the phase of no other build
      rename_i heq
      rw [heq]
      constructor
      · intro hphase
        exact .inr ⟨(Phase.building.inj (Option.some.inj hphase)).symm, rfl⟩
      · rintro (hphase | ⟨rfl, -⟩)
        · exact absurd hphase (hidle m)
        · rfl
    · rename_i hid
      exact ⟨.inl, fun h => h.resolve_right fun h => hid h.2.symm⟩
  | reset id' hidle hbuilds hphases =>
    rw [flies_of_builds hbuilds, ← hs.building, hphases, Function.update_apply]
    split
    · rename_i heq
      rw [heq]
      refine ⟨fun hphase => ?_, fun hphase => absurd hphase (hidle m)⟩
      cases hphase
    · exact Iff.rfl

theorem latest_of_builds (hs : Sound s) (h : BuildsEffect s s') (id : PackageId) (n m : BuildId)
    (b : Build) (hphase : s'.phase? id = some (.building n)) (hb : s'.build? m = some b)
    (hid : b.package = id) : m ≤ n := by
  cases h with
  | keep hbuilds hphases =>
    rw [hbuilds] at hb
    rw [hphases] at hphase
    exact hs.latest id n m b hphase hb hid
  | work k b' stage hk _ _ hbuilds hphases =>
    obtain ⟨b₀, hb₀, hpackage⟩ := build?_before hk hbuilds rfl hb
    rw [hphases] at hphase
    exact hs.latest id n m b₀ hphase hb₀ (hpackage.trans hid)
  | settle k b' o hk _ _ hbuilds hphases =>
    obtain ⟨b₀, hb₀, hpackage⟩ := build?_before hk hbuilds rfl hb
    rw [hphases, Function.update_apply] at hphase
    split at hphase
    · exact absurd (Option.some.inj hphase) (Phase.ofOutcome_ne_building o n)
    · exact hs.latest id n m b₀ hphase hb₀ (hpackage.trans hid)
  | tell k b' o hk _ hbuilds hphases =>
    obtain ⟨b₀, hb₀, hpackage⟩ := build?_before hk hbuilds rfl hb
    rw [hphases] at hphase
    exact hs.latest id n m b₀ hphase hb₀ (hpackage.trans hid)
  | schedule k b' hnew _ _ hbuilds hphases =>
    -- the new build has a larger number than all before it
    have hold : ∀ {b}, s.build? m = some b → m < k := by
      intro b hb
      refine Nat.lt_of_not_le fun hle => ?_
      rw [hnew m hle] at hb
      cases hb
    rw [hbuilds, Function.update_apply] at hb
    rw [hphases, Function.update_apply] at hphase
    split at hphase
    · rw [← Phase.building.inj (Option.some.inj hphase)]
      split at hb
      · rename_i heq
        exact Nat.le_of_eq heq
      · exact Nat.le_of_lt (hold hb)
    · rename_i hne
      split at hb
      · rw [← hid, ← Option.some.inj hb] at hne
        exact absurd rfl hne
      · exact hs.latest id n m b hphase hb hid
  | reset id' _ hbuilds hphases =>
    rw [hbuilds] at hb
    rw [hphases, Function.update_apply] at hphase
    split at hphase
    · cases hphase
    · exact hs.latest id n m b hphase hb hid

theorem origins_of_builds (hs : Sound s) (h : BuildsEffect s s') (id : PackageId) (phase : Phase)
    (o : Outcome) (hphase : s'.phase? id = some phase) (ho : phase.outcome? = some o) :
    ∃ n, s'.published? n = some o := by
  have hold : s.phase? id = some phase → ∃ n, s'.published? n = some o := by
    intro hphase
    obtain ⟨n, hn⟩ := hs.origins id phase o hphase ho
    exact ⟨n, h.published? hn⟩
  cases h with
  | keep _ hphases => exact hold (hphases ▸ hphase)
  | work _ _ _ _ _ _ _ hphases => exact hold (hphases ▸ hphase)
  | tell _ _ _ _ _ _ hphases => exact hold (hphases ▸ hphase)
  | settle n b o' _ _ _ hbuilds hphases =>
    rw [hphases, Function.update_apply] at hphase
    split at hphase
    · -- the package of the build is settled with what the build has come to
      rw [← Option.some.inj hphase, Phase.outcome?_ofOutcome] at ho
      refine ⟨n, ?_⟩
      rw [published?_self hbuilds, ← ho]
      rfl
    · exact hold hphase
  | schedule n b _ _ _ _ hphases =>
    rw [hphases, Function.update_apply] at hphase
    split at hphase
    · rw [← Option.some.inj hphase] at ho
      cases ho
    · exact hold hphase
  | reset id' _ _ hphases =>
    rw [hphases, Function.update_apply] at hphase
    split at hphase
    · rw [← Option.some.inj hphase] at ho
      cases ho
    · exact hold hphase

theorem of_builds (hs : Sound s) (h : BuildsEffect s s') : Sound s' where
  building := hs.building_of_builds h
  latest := hs.latest_of_builds h
  origins := hs.origins_of_builds h
  outcomes n o ho := by
    rcases h.published?_cases n with hkeep | ⟨b, o', -, -, ho', hpublished, -⟩
    · exact hs.outcomes n o (hkeep.symm.trans ho)
    · rw [hpublished] at ho
      rw [← Option.some.inj ho]
      exact ho'

theorem act (hs : Sound s) (h : s.act? a = some s') : Sound s' := hs.of_builds (act?_builds h)

end Sound

end Playground.Site
