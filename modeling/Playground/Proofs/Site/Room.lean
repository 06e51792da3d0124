import Playground.Proofs.Site.Copying
import Playground.Proofs.Site.Spacing
/-!
# Room on the clock

The next build of a throttled package is due a window after the last one, and the clock has to show
that instant.  The last one has begun by the time that the next one is asked for, unless its task was
dropped before.  So a window that the clock has room for from now on is never too long.
-/

namespace Playground

namespace Budget

/-- The clock can show the deadline, if there is one. -/
def OnClock (b : Budget) : Prop := ∀ deadline, b.deadline = some deadline → deadline < Clock.limit

theorem onClock_withTimeout (now : Instant) (timeout : Duration) : (withTimeout now timeout).OnClock := by
  intro deadline h
  rw [withTimeout, Clock.after?] at h
  split at h
  · rename_i hlimit
    exact Option.some.inj h ▸ hlimit
  · cases h

/-- A budget for a part of the work ends with the whole at the latest. -/
theorem OnClock.child {b : Budget} (h : b.OnClock) (now : Instant) (timeout : Option Duration) :
    (b.child now timeout).OnClock := by
  have hpart : ∀ deadline, timeout.bind (Clock.after? now) = some deadline → deadline < Clock.limit := by
    intro deadline hdeadline
    obtain ⟨d, -, hafter⟩ := Option.bind_eq_some_iff.mp hdeadline
    exact onClock_withTimeout now d deadline hafter
  intro deadline hdeadline
  rw [Budget.child] at hdeadline
  dsimp only at hdeadline
  cases hwhole : b.deadline with
  | none =>
    rw [hwhole] at hdeadline
    exact hpart deadline hdeadline
  | some whole =>
    rw [hwhole] at hdeadline
    have hlt := h whole hwhole
    cases hend : timeout.bind (Clock.after? now) with
    | none =>
      rw [hend] at hdeadline
      exact Option.some.inj hdeadline ▸ hlt
    | some part =>
      rw [hend] at hdeadline
      exact Option.some.inj hdeadline ▸ Nat.lt_of_le_of_lt (Nat.min_le_left whole part) hlt

theorem Terms.Granted.onClock {t : Terms} {b : Budget} (h : t.Granted b) : b.OnClock := by
  obtain ⟨since, -, hdeadline, -⟩ := h
  intro deadline hb
  rw [hdeadline] at hb
  obtain ⟨timeout, cancelled, cancelAfter⟩ := t
  cases timeout with
  | none => cases cancelled <;> cases hb
  | some d => cases cancelled <;> exact onClock_withTimeout since d deadline hb

end Budget

namespace Lifecycle

variable {l : Lifecycle} {rebuild : Rebuild} {now start : Instant}

theorem startTime?_lt_limit (h : l.startTime? rebuild now = some start) (hnow : now < Clock.limit) :
    start < Clock.limit := by
  unfold startTime? at h
  split at h
  · obtain ⟨next, hafter, rfl⟩ := Option.map_eq_some_iff.mp h
    unfold Clock.after? at hafter
    split at hafter
    · rename_i hlimit
      exact Nat.max_lt.mpr ⟨hnow, Option.some.inj hafter ▸ hlimit⟩
    · cases hafter
  · exact Option.some.inj h ▸ hnow

end Lifecycle

/-- An outcome tells a caller something. -/
theorem Call.after_ne_offTheClock (c : Call) (allowance : Budget.Allowance) (t : Instant) (o : Outcome) :
    c.after allowance t o ≠ .offTheClock := by
  obtain ⟨id, start, terms, wish, stage⟩ := c
  cases o with
  | error e => nofun
  | ok artifact => cases wish <;> nofun

namespace Site

variable {s s' : Site} {a : Act} {i : PartyId} {n : BuildId} {id : PackageId} {b : Build} {c c' : Call}
  {p : Package} {last t : Instant}

/-! ## 1. Demands -/

theorem build?_addBuild (s : Site) (id : PackageId) (l : Lifecycle) (b : Build) :
    ((s.withLife id l).addParty (.build b)).1.build? =
      Function.update s.build? s.parties.length (some b) := by
  have hparties : ((s.withLife id l).addParty (.build b)).1.parties = s.parties ++ [.build b] := rfl
  exact look_concat Party.build? hparties

/-- A demand from outside does to the starts of builds what a caller's does. -/
theorem demand_due (hp : s.package? id = some p) : DueStep s (s.demand id p).1 := by
  by_cases hdue : p.lifecycle.IsDue
  · by_cases hclock : p.lifecycle.OnClock p.options.rebuild
    · obtain ⟨start, hstart⟩ := Lifecycle.exists_startTime? hclock s.now
      rw [demand, Lifecycle.demand_of_startTime? hdue hstart]
      exact .of_schedule hp hstart (build?_addBuild s id _ _) rfl rfl (lives_withLife s id _)
    · rw [demand, Lifecycle.demand_of_not_onClock hdue hclock]
      have hlives := (lives_withLife s id _).trans
        (lives_modify_const hp fun l => { l with phase := .notReady })
      exact .of_modify rfl hlives fun _ => rfl
  · -- a demand that changes nothing writes the lifecycle back all the same
    have hback : (s.withLife id p.lifecycle).lives = s.lives :=
      (lives_withLife s id _).trans (lives_modify_self hp)
    have hform := s.demandForm id p
    generalize s.demand id p = d at hform ⊢
    cases hform with
    | settled o => exact .of_lives rfl hback
    | joined n => exact .of_lives rfl hback
    | scheduled start h => exact absurd h hdue
    | offTheClock h => exact absurd h hdue

/-- A demand makes only builds that wait for their start. -/
theorem build?_of_demand (hb : (s.demand id p).1.build? n = some b) :
    s.build? n = some b ∨ b.stage = .delayed := by
  have hform := s.demandForm id p
  generalize s.demand id p = d at hb hform ⊢
  cases hform with
  | scheduled start hdue hclock =>
    rw [build?_addBuild, Function.update_apply] at hb
    split at hb
    · exact .inr (Option.some.inj hb ▸ rfl)
    · exact .inl hb
  | _ => exact .inl hb

theorem NextStage.ne_offTheClock {stage : CallStage} (h : NextStage s c stage) :
    stage ≠ .offTheClock := by
  cases h with
  | settled allowance l t o => exact c.after_ne_offTheClock allowance t o
  | get allowance n t o => exact c.after_ne_offTheClock allowance t o
  | copy stage _ hstage =>
    rcases hstage with hstage | ⟨t, answer, rfl⟩
    · rintro rfl
      cases hstage
    · nofun
  | _ => nofun

/-- A build is due that the clock is too short for. -/
def IsShort (s : Site) : Prop := ∃ id p, s.package? id = some p ∧ p.lifecycle.IsDue ∧
  ¬ p.lifecycle.OnClock p.options.rebuild

/-- A call breaks off only if it asks for such a build. -/
theorem isShort_of_call (hi : s.call? i = some c) (h : s.act? (.move i) = some s')
    (hi' : s'.call? i = some c') (hoff : c'.stage = .offTheClock) : s.IsShort := by
  have hparty : s.parties[i]? = some (.call c) := call?_eq_some.mp hi
  obtain ⟨stage, hcalls, hstep⟩ := act?_move_call hi h
  rw [hcalls, Function.update_self] at hi'
  obtain rfl := Option.some.inj hi'
  obtain rfl : stage = .offTheClock := hoff
  generalize hend : CallStage.offTheClock = stage at hstep
  cases hstep with
  | next _ hnext => exact absurd hend.symm hnext.ne_offTheClock
  | copy _ _ hcopy =>
    rcases hcopy with hcopy | ⟨t, answer, rfl⟩
    · subst hend
      cases hcopy
    · cases hend
  | schedule => cases hend
  | offTheClock allowance l hstage hl hdue =>
    rw [lives_getElem?] at hl
    obtain ⟨p, hp, rfl⟩ := Option.map_eq_some_iff.mp hl
    refine ⟨c.package, p, hp, hdue, fun hclock => ?_⟩
    -- with room on the clock the call would have joined a new build
    obtain ⟨start, hdemand⟩ := Lifecycle.demand_of_onClock hdue hclock s.now s.parties.length
    rw [act?_asking hi hstage hp, demand, hdemand] at h
    have hjoins : s'.call? i = some { c with stage := .joining allowance s.parties.length } := by
      rw [← Option.some.inj h]
      exact call?_of_concat_set hparty rfl rfl
    rw [hcalls, Function.update_self] at hjoins
    cases congrArg Call.stage (Option.some.inj hjoins)

theorem isShort_of_act (h : s.act? a = some s') (hi' : s'.call? i = some c')
    (hoff : c'.stage = .offTheClock) :
    s.IsShort ∨ ∃ c, s.call? i = some c ∧ c.stage = .offTheClock := by
  cases hi : s.call? i with
  | none => cases ((act?_calls h).new i c' hi hi').symm.trans hoff
  | some c =>
    obtain ⟨c₁, hi₁, hchange⟩ := (act?_calls h).old i c hi
    obtain rfl := Option.some.inj (hi₁.symm.trans hi')
    cases hchange with
    | keep => exact .inr ⟨c, rfl, hoff⟩
    | cancel allowance hallowance =>
      obtain ⟨old, hold, -⟩ := hallowance
      have hoff : c.stage.withAllowance allowance = .offTheClock := hoff
      have hkept := CallStage.allowance?_withAllowance hold allowance
      rw [hoff] at hkept
      cases hkept
    | move stage ha => exact .inl (isShort_of_call hi (ha ▸ h) hi' hoff)

/-! ## 2. Builds that begin in time -/

/-- The clock shows the time, and all windows that begin now. -/
structure HasRoom (s : Site) : Prop where
  now : s.now < Clock.limit
  windows : ∀ id p window, s.package? id = some p → p.options.rebuild = .throttled window →
    s.now + window < Clock.limit

/-- What the packages have noted are starts of builds that the clock shows, and builds that do not wait
for their start any more have come to it. -/
structure Prompt (s : Site) : Prop where
  noted : ∀ id last, s.lastStarts[id]? = some (some last) → ∃ n, s.due? n = some (id, last)
  begun : ∀ n b, s.build? n = some b → b.stage ≠ .delayed → b.start ≤ s.now
  shown : ∀ n id t, s.due? n = some (id, t) → t < Clock.limit

/-- The act drops a build that waits for its start. -/
def Interrupts (s : Site) (a : Act) : Prop :=
  ∃ n b, a = .drop n ∧ s.build? n = some b ∧ b.stage = .delayed

theorem DueStep.noted (h : DueStep s s') (hs : Prompt s) (id : PackageId) (last : Instant)
    (hlast' : s'.lastStarts[id]? = some (some last)) : ∃ n, s'.due? n = some (id, last) := by
  cases h with
  | keep new hnew hdue hlast =>
    rw [hdue]
    refine hs.noted id last ?_
    -- a package that is new has not noted anything
    rw [hlast, List.getElem?_append] at hlast'
    split at hlast'
    · exact hlast'
    · cases hnew _ (List.mem_of_getElem? hlast')
  | order k p start hp hstart hdue hlast =>
    rw [hlast, List.getElem?_set] at hlast'
    split at hlast'
    · rename_i hk
      split at hlast'
      · obtain rfl := Option.some.inj (Option.some.inj hlast')
        exact ⟨s.parties.length, by rw [hdue, Function.update_self, hk]⟩
      · cases hlast'
    · obtain ⟨n, hn⟩ := hs.noted id last hlast'
      exact ⟨n, by rw [hdue, Function.update_of_ne (Nat.ne_of_lt (lt_length_of_due? hn)), hn]⟩

theorem DueStep.shown (h : DueStep s s') (hs : Prompt s) (hnow : s.now < Clock.limit) (n : BuildId)
    (id : PackageId) (t : Instant) (hn : s'.due? n = some (id, t)) : t < Clock.limit := by
  cases h with
  | keep _ _ hdue => exact hs.shown n id t (hdue ▸ hn)
  | order k p start hp hstart hdue =>
    rw [hdue, Function.update_apply] at hn
    split at hn
    · obtain ⟨-, rfl⟩ := Prod.mk.inj (Option.some.inj hn)
      exact Lifecycle.startTime?_lt_limit hstart hnow
    · exact hs.shown n id t hn

namespace Prompt

theorem empty (epoch : Nat) (tree : FileTree) : Prompt (.empty epoch tree) where
  noted id last hlast := by cases hlast
  begun n b hb := by cases hb
  shown n id t hn := by cases hn

theorem act (hs : Prompt s) (h : s.act? a = some s') (hnow : s.now < Clock.limit)
    (hawake : ¬ s.Interrupts a) : Prompt s' where
  noted := (act?_due h).noted hs
  shown := (act?_due h).shown hs hnow
  begun n b hb hstage := by
    have hlater := now_le_of_act h
    cases act?_course h hb with
    | rest hn => exact Nat.le_trans (hs.begun n b hn hstage) hlater
    | order horders =>
      obtain ⟨i, c, allowance, p, -, -, -, -, -, -, hdelayed⟩ := horders
      exact absurd hdelayed hstage
    | setOut b₀ p hn _ hp hdue heq =>
      subst heq
      exact Nat.le_trans (Clock.le_of_hasFired hdue) hlater
    | work b₀ stage hn hold hnew _ heq =>
      subst heq
      refine Nat.le_trans (hs.begun n b₀ hn fun hdelayed => ?_) hlater
      rw [hdelayed] at hold
      cases hold
    | leave b₀ stage hn hdelayed hnew heq =>
      subst heq
      by_cases hwaits : b₀.stage = .delayed
      · -- it has got away without setting out, so it was dropped or has been due before
        refine Nat.le_trans ?_ hlater
        rcases build?_of_act h hn with hrest | rfl | rfl
        · exact absurd (hwaits ▸ congrArg Build.stage (Option.some.inj (hb.symm.trans hrest))) hdelayed
        · rw [act?, build?_eq_some.mp hn] at h
          have hfired : Clock.hasFired s.now b₀.start = true := hasFired_of_moveBuild? h hwaits
          exact Clock.le_of_hasFired hfired
        · exact absurd ⟨n, b₀, rfl, hn, hwaits⟩ hawake
      · exact Nat.le_trans (hs.begun n b₀ hn hwaits) hlater

theorem demand (hs : Prompt s) (hp : s.package? id = some p) (hnow : s.now < Clock.limit) :
    Prompt (s.demand id p).1 where
  noted := (demand_due hp).noted hs
  shown := (demand_due hp).shown hs hnow
  begun n b hb hstage := by
    rw [now_demand]
    rcases build?_of_demand hb with hn | hdelayed
    · exact hs.begun n b hn hstage
    · exact absurd hdelayed hstage

/-- The clock has room for every build that is due. -/
theorem not_isShort (hs : Prompt s) (hsound : Sound s) (hroom : HasRoom s) : ¬ s.IsShort := by
  rintro ⟨id, p, hp, hdue, hshort⟩
  refine hshort fun window last hwindow hlast => ?_
  obtain ⟨n, hn⟩ := hs.noted id last (by rw [lastStarts_getElem? hp, hlast])
  obtain ⟨b, hb, hid, hstart⟩ := due?_eq_some.mp hn
  -- a build that waits for its start keeps its package in the build
  have hstage : b.stage ≠ .delayed := by
    intro hdelayed
    have hphase := (hsound.building id n).mpr ⟨b, hb, hid, by rw [Build.isOpen, hdelayed]⟩
    rw [phase?, lives_getElem?, hp] at hphase
    exact hdue.idle n (Option.some.inj hphase)
  have hbegun : last ≤ s.now := hstart ▸ hs.begun n b hb hstage
  calc last + window ≤ s.now + window := Nat.add_le_add_right hbegun window
    _ < Clock.limit := hroom.windows id p window hp hwindow

end Prompt

/-- There is room in a state if there is room in a later one. -/
theorem HasRoom.before (h : HasRoom s') (hnow : s.now ≤ s'.now) (hplans : s.plans <+: s'.plans) :
    HasRoom s where
  now := Nat.lt_of_le_of_lt hnow h.now
  windows id p window hp hwindow := by
    obtain ⟨p', hp', hoptions⟩ := package?_of_plans hplans hp
    calc s.now + window ≤ s'.now + window := Nat.add_le_add_right hnow window
      _ < Clock.limit := h.windows id p' window hp' (hoptions ▸ hwindow)

end Site

end Playground
