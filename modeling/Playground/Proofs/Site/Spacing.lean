import Playground.Proofs.Site.Products
import Playground.Proofs.Site.Start
/-!
# Builds a window apart

A throttled package notes when its latest build was due to start, and the next one is due a window
later, or when it is asked for if that is later still.  The note includes any delay of the latest build,
so the starts of all builds stay a window apart, however late builds are asked for and whatever they
come to.
-/

namespace Playground.Site

variable {start s s' s₀ s₁ : Site} {a : Act} {acts : List Act} {i : PartyId} {m n : BuildId}
  {id : PackageId} {b : Build} {p : Package} {t t' last : Instant} {window : Duration}

/-! ## 1. When builds are due -/

/-- The package of a build, and when the build is due to start. -/
def due? (s : Site) (n : BuildId) : Option (PackageId × Instant) :=
  (s.build? n).map fun b => (b.package, b.start)

/-- What each package has noted of the start of its latest build. -/
def lastStarts (s : Site) : List (Option Instant) := s.lives.map (·.lastStart)

/-- What an act changes about the starts of builds. -/
inductive DueStep (s s' : Site) : Prop where
  | keep (new : List (Option Instant)) (hnew : ∀ x ∈ new, x = none) (hdue : s'.due? = s.due?)
      (hlast : s'.lastStarts = s.lastStarts ++ new)
  | order (id : PackageId) (p : Package) (start : Instant) (hp : s.package? id = some p)
      (hstart : p.lifecycle.startTime? p.options.rebuild s.now = some start)
      (hdue : s'.due? = Function.update s.due? s.parties.length (some (id, start)))
      (hlast : s'.lastStarts = s.lastStarts.set id (some start))

theorem lastStarts_getElem? (hp : s.package? id = some p) :
    s.lastStarts[id]? = some p.lifecycle.lastStart := by
  rw [lastStarts, List.getElem?_map, lives_getElem?, hp]
  rfl

theorem due?_of_builds (h : s'.build? = s.build?) : s'.due? = s.due? := by
  funext n
  rw [due?, h]
  rfl

theorem due?_update (h : s'.build? = Function.update s.build? n (some b)) :
    s'.due? = Function.update s.due? n (some (b.package, b.start)) := by
  funext m
  rw [due?, h, Function.update_apply, Function.update_apply]
  split <;> rfl

/-- A build that goes on is due when it was. -/
theorem due?_of_stage {stage : BuildStage} (hn : s.build? n = some b)
    (h : s'.build? = Function.update s.build? n (some { b with stage })) : s'.due? = s.due? := by
  rw [due?_update h, Function.update_eq_self_iff, due?, hn]
  rfl

theorem due?_eq_some : s.due? n = some (id, t) ↔ ∃ b, s.build? n = some b ∧ b.package = id ∧ b.start = t := by
  simp [due?]

theorem lt_length_of_due? (h : s.due? n = some (id, t)) : n < s.parties.length := by
  obtain ⟨b, hb, -⟩ := due?_eq_some.mp h
  exact (List.getElem?_eq_some_iff.mp (build?_eq_some.mp hb)).1

theorem lastStarts_modify {f : Lifecycle → Lifecycle} (hf : ∀ l, (f l).lastStart = l.lastStart)
    (h : s'.lives = s.lives.modify id f) : s'.lastStarts = s.lastStarts := by
  have hmap : s'.lastStarts = s.lastStarts.modify id fun x => x := by
    rw [lastStarts, h]
    exact map_modify hf s.lives id
  exact hmap.trans (List.modify_id id s.lastStarts)

theorem DueStep.of_modify {f : Lifecycle → Lifecycle} (hdue : s'.due? = s.due?)
    (h : s'.lives = s.lives.modify id f) (hf : ∀ l, (f l).lastStart = l.lastStart) : DueStep s s' :=
  .keep [] nofun hdue ((lastStarts_modify hf h).trans (List.append_nil _).symm)

theorem DueStep.of_lives (hdue : s'.due? = s.due?) (h : s'.lives = s.lives) : DueStep s s' := by
  refine .keep [] nofun hdue ?_
  rw [lastStarts, h, List.append_nil]
  rfl

/-- A package notes when its new build is due. -/
theorem DueStep.of_schedule {phase : Phase} {dirty mayRestore : Bool} {start : Instant}
    (hp : s.package? id = some p)
    (hstart : p.lifecycle.startTime? p.options.rebuild s.now = some start)
    (hbuilds : s'.build? = Function.update s.build? s.parties.length (some b)) (hid : b.package = id)
    (hdue : b.start = start)
    (hlives : s'.lives = s.lives.modify id fun _ => ⟨phase, dirty, some start, mayRestore⟩) :
    DueStep s s' := by
  subst hid hdue
  refine .order b.package p b.start hp hstart (due?_update hbuilds) ?_
  have hnote : ∀ l : Lifecycle, (⟨phase, dirty, some b.start, mayRestore⟩ : Lifecycle).lastStart =
      (fun _ => some b.start) l.lastStart := fun _ => rfl
  rw [lastStarts, hlives, List.set_eq_modify]
  exact map_modify hnote s.lives b.package

theorem act?_due (h : s.act? a = some s') : DueStep s s' := by
  cases act?_change h with
  | keep _ hbuilds hlives => exact .of_lives (due?_of_builds hbuilds) hlives
  | found _ hbuilds hlives =>
    refine .keep [none] (fun _ => List.mem_singleton.mp) (due?_of_builds hbuilds) ?_
    rw [lastStarts, hlives, List.map_append]
    rfl
  | work n b stage hn _ _ hbuilds hlives => exact .of_lives (due?_of_stage hn hbuilds) hlives
  | settle n b o hn _ _ _ hbuilds hlives =>
    exact .of_modify (due?_of_stage hn hbuilds) hlives fun l => by cases o <;> rfl
  | stick k p _ _ _ hbuilds hlives => exact .of_modify (due?_of_builds hbuilds) hlives fun _ => rfl
  | invalidate k p _ _ _ hbuilds hlives =>
    exact .of_modify (due?_of_builds hbuilds) hlives fun _ => rfl
  | schedule k p start hp _ _ _ hbuilds hlives =>
    have hnone : s.build? s.parties.length = none := look_of_length_le _ (Nat.le_refl _)
    have hnew : s'.build? s.parties.length =
        some ⟨k, start, p.lifecycle.mayRestore, .delayed⟩ := by rw [hbuilds, Function.update_self]
    obtain ⟨i, c, allowance, p', hi, hc, hp', -, hstart, hid, -⟩ := orders_of_new h hnone hnew
    obtain rfl : k = c.package := hid
    obtain rfl := Option.some.inj (hp.symm.trans hp')
    exact .of_schedule hp hstart hbuilds rfl rfl hlives

/-- A build stays due when it was. -/
theorem due?_act (h : s.act? a = some s') (hn : s.due? n = some (id, t)) : s'.due? n = some (id, t) := by
  cases act?_due h with
  | keep _ _ hdue => rw [hdue, hn]
  | order k p start hp hstart hdue =>
    rw [hdue, Function.update_of_ne (Nat.ne_of_lt (lt_length_of_due? hn)), hn]

/-! ## 2. A window apart -/

/-- The starts that builds are due at agree with the notes of their packages, and those of a throttled
package are a window apart. -/
structure Spaced (s : Site) : Prop where
  noted : ∀ n id t, s.due? n = some (id, t) → ∃ last, s.lastStarts[id]? = some (some last)
  latest : ∀ id last, s.lastStarts[id]? = some (some last) → ∃ n, s.due? n = some (id, last) ∧
    ∀ m t, s.due? m = some (id, t) → m ≤ n
  apart : ∀ id p window, s.package? id = some p → p.options.rebuild = .throttled window →
    ∀ m n t t', s.due? m = some (id, t) → s.due? n = some (id, t') → m < n → t + window ≤ t'

namespace Spaced

theorem empty (epoch : Nat) (tree : FileTree) : Spaced (.empty epoch tree) where
  noted n id t hn := by cases hn
  latest id last hlast := by cases hlast
  apart id p window hp := by cases hp

/-- No build is due later than its package has noted. -/
theorem le_last (hs : Spaced s) (hp : s.package? id = some p)
    (hwindow : p.options.rebuild = .throttled window) (hn : s.due? n = some (id, t))
    (hlast : p.lifecycle.lastStart = some last) : t ≤ last := by
  obtain ⟨k, hk, hle⟩ := hs.latest id last (by rw [lastStarts_getElem? hp, hlast])
  rcases Nat.lt_or_eq_of_le (hle n t hn) with hlt | rfl
  · have hapart := hs.apart id p window hp hwindow n k t last hn hk hlt
    exact Nat.le_trans (Nat.le_add_right t window) hapart
  · rw [hn] at hk
    exact Nat.le_of_eq (Prod.mk.inj (Option.some.inj hk)).2

/-- A new build is due a window after each build before it. -/
theorem apart_new (hs : Spaced s) (hp : s.package? id = some p)
    (hwindow : p.options.rebuild = .throttled window)
    (hstart : p.lifecycle.startTime? p.options.rebuild s.now = some t') (hn : s.due? n = some (id, t)) :
    t + window ≤ t' := by
  obtain ⟨last, hlast⟩ := hs.noted n id t hn
  rw [lastStarts_getElem? hp] at hlast
  have hlast : p.lifecycle.lastStart = some last := Option.some.inj hlast
  have hle := hs.le_last hp hwindow hn hlast
  rw [hwindow] at hstart
  have hstart := Lifecycle.startTime?_throttled hstart
  rw [hlast] at hstart
  calc t + window ≤ last + window := Nat.add_le_add_right hle window
    _ ≤ max s.now (last + window) := Nat.le_max_right _ _
    _ = t' := hstart.symm

theorem package?_before (hs : Spaced s) (h : s.act? a = some s') (hn : s.due? n = some (id, t))
    (hp : s'.package? id = some p) :
    ∃ p₀, s.package? id = some p₀ ∧ p.options = p₀.options := by
  obtain ⟨last, hlast⟩ := hs.noted n id t hn
  have hlt : id < s.lives.length := by
    obtain ⟨hlt, -⟩ := List.getElem?_eq_some_iff.mp hlast
    rwa [lastStarts, List.length_map] at hlt
  exact Site.package?_before (act?_plans h) hlt hp

theorem keep {new : List (Option Instant)} (hs : Spaced s) (h : s.act? a = some s')
    (hnew : ∀ x ∈ new, x = none) (hdue : s'.due? = s.due?)
    (hlast : s'.lastStarts = s.lastStarts ++ new) : Spaced s' where
  noted n id t hn := by
    rw [hdue] at hn
    obtain ⟨last, hid⟩ := hs.noted n id t hn
    refine ⟨last, ?_⟩
    rw [hlast, List.getElem?_append_left (List.getElem?_eq_some_iff.mp hid).1, hid]
  latest id last hid := by
    rw [hdue]
    rw [hlast] at hid
    apply hs.latest
    -- a package that is new has not noted anything
    by_cases hlt : id < s.lastStarts.length
    · rwa [List.getElem?_append_left hlt] at hid
    · rw [List.getElem?_append_right (Nat.le_of_not_lt hlt)] at hid
      cases hnew _ (List.mem_of_getElem? hid)
  apart id p window hp hwindow m n t t' hm hn hlt := by
    rw [hdue] at hm hn
    obtain ⟨p₀, hp₀, hoptions⟩ := hs.package?_before h hm hp
    exact hs.apart id p₀ window hp₀ (hoptions ▸ hwindow) m n t t' hm hn hlt

section Order

variable (hs : Spaced s) (h : s.act? a = some s') (hp : s.package? id = some p)
  (hdue : s'.due? = Function.update s.due? s.parties.length (some (id, t)))
  (hlast : s'.lastStarts = s.lastStarts.set id (some t))

include hp hlast in
theorem lastStarts_new : s'.lastStarts[id]? = some (some t) := by
  have hlt : id < s.lastStarts.length := by
    rw [lastStarts, List.length_map]
    exact lt_length_lives hp
  rw [hlast, List.getElem?_set_self hlt]

include hdue in
/-- A build that is due is the new one, or it was due before. -/
theorem due?_cases {k : PackageId} {u : Instant} (hn : s'.due? n = some (k, u)) :
    n = s.parties.length ∧ k = id ∧ u = t ∨ s.due? n = some (k, u) ∧ n < s.parties.length := by
  rw [hdue, Function.update_apply] at hn
  split at hn
  · rename_i heq
    obtain ⟨rfl, rfl⟩ := Prod.mk.inj (Option.some.inj hn)
    exact .inl ⟨heq, rfl, rfl⟩
  · exact .inr ⟨hn, lt_length_of_due? hn⟩

include hs hp hdue hlast in
theorem noted_order (n : BuildId) (k : PackageId) (u : Instant) (hn : s'.due? n = some (k, u)) :
    ∃ last, s'.lastStarts[k]? = some (some last) := by
  have hnew := lastStarts_new hp hlast
  rcases due?_cases hdue hn with ⟨-, rfl, -⟩ | ⟨hn, -⟩
  · exact ⟨t, hnew⟩
  · obtain ⟨last, hk⟩ := hs.noted n k u hn
    by_cases heq : k = id
    · exact ⟨t, heq ▸ hnew⟩
    · exact ⟨last, by rw [hlast, List.getElem?_set_ne (Ne.symm heq), hk]⟩

include hs h hp hdue hlast in
theorem latest_order (k : PackageId) (last : Instant) (hk : s'.lastStarts[k]? = some (some last)) :
    ∃ n, s'.due? n = some (k, last) ∧ ∀ m u, s'.due? m = some (k, u) → m ≤ n := by
  by_cases heq : k = id
  · subst heq
    have hnew := lastStarts_new hp hlast
    obtain rfl : t = last := Option.some.inj (Option.some.inj (hnew.symm.trans hk))
    refine ⟨s.parties.length, by rw [hdue, Function.update_self], fun m u hm => ?_⟩
    rcases due?_cases hdue hm with ⟨rfl, -, -⟩ | ⟨-, hlt⟩
    · exact Nat.le_refl _
    · exact Nat.le_of_lt hlt
  · -- the other packages get no build
    rw [hlast, List.getElem?_set_ne (Ne.symm heq)] at hk
    obtain ⟨n, hn, hle⟩ := hs.latest k last hk
    refine ⟨n, due?_act h hn, fun m u hm => ?_⟩
    rcases due?_cases hdue hm with ⟨-, rfl, -⟩ | ⟨hm, -⟩
    · exact absurd rfl heq
    · exact hle m u hm

include hs h hp hdue in
theorem apart_order (hstart : p.lifecycle.startTime? p.options.rebuild s.now = some t)
    (k : PackageId) (p' : Package) (window : Duration) (hp' : s'.package? k = some p')
    (hwindow : p'.options.rebuild = .throttled window) (m n : BuildId) (u u' : Instant)
    (hm : s'.due? m = some (k, u)) (hn : s'.due? n = some (k, u')) (hmn : m < n) :
    u + window ≤ u' := by
  rcases due?_cases hdue hm with ⟨rfl, -, -⟩ | ⟨hm, -⟩
  · -- no build is newer than the new one
    rcases due?_cases hdue hn with ⟨rfl, -, -⟩ | ⟨-, hlt⟩
    · exact absurd hmn (Nat.lt_irrefl _)
    · exact absurd hmn (Nat.lt_asymm hlt)
  · obtain ⟨p₀, hp₀, hoptions⟩ := hs.package?_before h hm hp'
    rw [hoptions] at hwindow
    rcases due?_cases hdue hn with ⟨-, rfl, rfl⟩ | ⟨hn, -⟩
    · obtain rfl := Option.some.inj (hp.symm.trans hp₀)
      exact hs.apart_new hp hwindow hstart hm
    · exact hs.apart k p₀ window hp₀ hwindow m n u u' hm hn hmn

end Order

theorem act (hs : Spaced s) (h : s.act? a = some s') : Spaced s' := by
  cases act?_due h with
  | keep new hnew hdue hlast => exact hs.keep h hnew hdue hlast
  | order id p start hp hstart hdue hlast =>
    exact ⟨hs.noted_order hp hdue hlast, hs.latest_order h hp hdue hlast,
      hs.apart_order h hp hdue hstart⟩

end Spaced

theorem spaced_of_run {epoch : Nat} {tree : FileTree}
    (h : (Site.empty epoch tree).run? acts = some s) : Spaced s :=
  run?_preserves (fun hact hs => hs.act hact) h (.empty epoch tree)

/-! ## 3. The demand that schedules a build -/

/-- In a run, a caller asks in state `s₀` for the package, and with that build `n` is made, which is due
to start at `t`.  Builds are numbered as they are made. -/
structure Schedules (start : Site) (acts : List Act) (id : PackageId) (n : BuildId) (t : Instant)
    (s₀ : Site) : Prop where
  asks : ∃ i s₁, Asks start acts i id s₀ s₁ ∧ s₁.due? n = some (id, t)
  number : n = s₀.parties.length

theorem Schedules.concat (h : Schedules start acts id n t s₀) (a : Act) :
    Schedules start (acts ++ [a]) id n t s₀ := by
  obtain ⟨⟨i, s₁, hasks, hdue⟩, hn⟩ := h
  exact ⟨⟨i, s₁, hasks.concat a, hdue⟩, hn⟩

theorem Schedules.of_orders (hrun : start.run? acts = some s) (h : s.act? a = some s')
    (horders : Orders s n b a) (hdue : s'.due? n = some (b.package, t)) :
    Schedules start (acts ++ [a]) b.package n t s := by
  obtain ⟨i, c, allowance, p, hi, hc, hp, hn, hstart, hid, -⟩ := horders
  rw [hid] at hdue ⊢
  exact ⟨⟨i, s', Asks.last hrun hi hc h, hdue⟩, hn⟩

theorem schedules_of_run (hstart : ∀ n, start.build? n = none) (hrun : start.run? acts = some s)
    (hn : s.due? n = some (id, t)) : ∃ s₀, Schedules start acts id n t s₀ := by
  refine run?_induction (P := fun acts s => ∀ {t}, s.due? n = some (id, t) →
    ∃ s₀, Schedules start acts id n t s₀) (fun hn => ?_)
    (fun {acts s a s'} hrun h ih t hn => ?_) hrun hn
  · rw [due?, hstart] at hn
    cases hn
  · -- a build that is new has been made by the last act
    cases hold : s.build? n with
    | none =>
      obtain ⟨b, hb, rfl, rfl⟩ := due?_eq_some.mp hn
      exact ⟨s, .of_orders hrun h (orders_of_new h hold hb) hn⟩
    | some b =>
      have hdue : s.due? n = some (b.package, b.start) := due?_eq_some.mpr ⟨b, hold, rfl, rfl⟩
      rw [due?_act h hdue] at hn
      obtain ⟨rfl, rfl⟩ := Prod.mk.inj (Option.some.inj hn)
      obtain ⟨s₀, hs₀⟩ := ih hdue
      exact ⟨s₀, hs₀.concat a⟩

/-- When a build is due that a throttled package gets in a state: at once, unless the latest build was
due to start less than a window ago. -/
structure DueAt (s : Site) (id : PackageId) (window : Duration) (t : Instant) : Prop where
  le : s.now ≤ t
  first : (∀ n b, s.build? n = some b → b.package ≠ id) → t = s.now
  elapsed : ∀ n b, s.build? n = some b → s.IsLatest id n → b.start + window ≤ s.now → t = s.now
  held : ∀ n b, s.build? n = some b → s.IsLatest id n → s.now ≤ b.start + window →
    t = b.start + window

/-- A package has noted when its latest build was due to start. -/
theorem Spaced.lastStart_eq (hs : Spaced s) (hp : s.package? id = some p) (hb : s.build? n = some b)
    (hlatest : s.IsLatest id n) : p.lifecycle.lastStart = some b.start := by
  have hid : b.package = id := Option.some.inj ((origin?_of_build? hb).symm.trans hlatest.origin)
  have hn : s.due? n = some (id, b.start) := due?_eq_some.mpr ⟨b, hb, hid, rfl⟩
  obtain ⟨last, hlast⟩ := hs.noted n id b.start hn
  obtain ⟨k, hk, hle⟩ := hs.latest id last hlast
  have hkn : k ≤ n := by
    obtain ⟨b', hb', hid', -⟩ := due?_eq_some.mp hk
    exact hlatest.le k ((origin?_of_build? hb').trans (congrArg some hid'))
  obtain rfl : k = n := Nat.le_antisymm hkn (hle n b.start hn)
  rw [hk] at hn
  rw [lastStarts_getElem? hp] at hlast
  rw [Option.some.inj hlast, (Prod.mk.inj (Option.some.inj hn)).2]

theorem Spaced.dueAt (hs : Spaced s) (hp : s.package? id = some p)
    (hwindow : p.options.rebuild = .throttled window)
    (hstart : p.lifecycle.startTime? p.options.rebuild s.now = some t) : DueAt s id window t := by
  have hle : s.now ≤ t := Lifecycle.le_startTime? hstart
  rw [hwindow] at hstart
  have hstart := Lifecycle.startTime?_throttled hstart
  have hnext : ∀ n b, s.build? n = some b → s.IsLatest id n → t = max s.now (b.start + window) := by
    intro n b hb hlatest
    rw [hs.lastStart_eq hp hb hlatest] at hstart
    exact hstart
  refine ⟨hle, fun hnone => ?_, fun n b hb hlatest hover => ?_, fun n b hb hlatest hover => ?_⟩
  · -- a package without a build has noted nothing
    cases hlast : p.lifecycle.lastStart with
    | none =>
      rw [hlast] at hstart
      exact hstart
    | some last =>
      obtain ⟨k, hk, -⟩ := hs.latest id last (by rw [lastStarts_getElem? hp, hlast])
      obtain ⟨b, hb, hid, -⟩ := due?_eq_some.mp hk
      exact absurd hid (hnone k b hb)
  · rw [hnext n b hb hlatest]
    exact Nat.max_eq_left hover
  · rw [hnext n b hb hlatest]
    exact Nat.max_eq_right hover

theorem options_of_run {p' : Package} (hrun : s.run? acts = some s') (hp : s.package? id = some p)
    (hp' : s'.package? id = some p') : p'.options = p.options := by
  have hplans : s.plans <+: s'.plans :=
    run?_preserves (P := fun s₁ => s.plans <+: s₁.plans)
      (fun hact h => h.trans (act?_plans hact)) hrun (List.prefix_refl _)
  obtain ⟨p'', hp'', hoptions⟩ := package?_of_plans hplans hp
  rw [Option.some.inj (hp'.symm.trans hp''), hoptions]

theorem Schedules.dueAt {epoch : Nat} {tree : FileTree}
    (h : Schedules (.empty epoch tree) acts id n t s₀)
    (hrun : (Site.empty epoch tree).run? acts = some s) (hp : s.package? id = some p)
    (hwindow : p.options.rebuild = .throttled window) : DueAt s₀ id window t := by
  obtain ⟨⟨i, s₁, ⟨before, rest, c, allowance, rfl, hbefore, -, -, -, hact⟩, hdue⟩, hn⟩ := h
  rw [run?_append, hbefore, Option.bind_some] at hrun
  have hnone : s₀.build? n = none := look_of_length_le _ (Nat.le_of_eq hn.symm)
  obtain ⟨b, hb, rfl, rfl⟩ := due?_eq_some.mp hdue
  obtain ⟨_, c', -, p₀, -, -, hp₀, -, hstart, hid, -⟩ := orders_of_new hact hnone hb
  rw [← hid] at hp₀
  rw [options_of_run hrun hp₀ hp] at hwindow
  exact (spaced_of_run hbefore).dueAt hp₀ hwindow hstart

/-! ## 4. Throttling -/

/-- What a run from `start` to `s` says about the builds of a package that are a window apart. -/
structure Throttling (start : Site) (acts : List Act) (s : Site) (id : PackageId) (p : Package)
    (window : Duration) : Prop where
  /-- Each build is due to start at least a window after each build before it. -/
  apart : ∀ m n b b', s.build? m = some b → s.build? n = some b' → b.package = id →
    b'.package = id → m < n → b.start + window ≤ b'.start
  /-- The package has noted when the latest build was due to start. -/
  noted : ∀ n b, s.build? n = some b → s.IsLatest id n → p.lifecycle.lastStart = some b.start
  /-- Each build has been scheduled by a demand.  It is due at the time of the demand, or a window after
  the build before it if that is later. -/
  scheduled : ∀ n b, s.build? n = some b → b.package = id →
    ∃ s₀, Schedules start acts id n b.start s₀ ∧ DueAt s₀ id window b.start
  /-- Until a build is due to start, it keeps off the files, the locks and the builder. -/
  waits : ∀ n b, s.build? n = some b → b.package = id → s.now < b.start → s.KeepsOff n
  /-- A build has the time that its package allows from its start on, and not from the demand: from when
  it sets out, which is at the tick of its start unless time passes by it. -/
  budget : ∀ n b budget, s.build? n = some b → b.package = id → b.stage.budget? = some budget →
    budget = .withTimeout budget.started p.options.buildTimeout ∧ b.start ≤ budget.started ∧
      (Along (Rouses id) start acts → Clock.tickOf budget.started = Clock.tickFrom b.start)

/-- The first build of a package is dropped before it has set out.  The package is invalidated and asked
for again a little later, and the second build sets out when a second has passed. -/
def throttledRun : List Act :=
  let terms : Budget.Terms := ⟨none, false, none⟩
  [.provide fun _ _ => ⟨none, fun t => (.broken, t)⟩, .found "p" "p" 0 .standard,
    .come 0 0 terms .ready, .move 0, .move 0, .drop 1, .invalidate 0, .wait (Clock.millis 400),
    .come 0 0 terms .ready, .move 2, .move 2, .wait (Clock.millis 600), .move 3]

end Playground.Site
