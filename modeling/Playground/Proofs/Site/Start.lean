import Playground.Proofs.Site.SingleFlight
import Playground.Proofs.Site.Time
import Playground.Proofs.Site.Unhindered
/-!
# The start of a build

A build is made by a demand, which also says when it is due to start.  Until then the build stays away
from its package: it stands in no line, and it touches neither the files nor the builder.  The time that
the package allows it runs from when it sets out, and so never from before its start.
-/

namespace Playground

/-! ## 1. Builds away from their package -/

namespace BuildStage

variable {stage : BuildStage}

/-- Whether a build has not come to its package yet, or is through with it. -/
def isAway : BuildStage → Bool
  | delayed => true
  | telling _ => true
  | ended _ => true
  | _ => false

theorem standing?_of_isAway (h : stage.isAway = true) (id : PackageId) :
    stage.standing? id = none := by
  cases stage <;> first | rfl | cases h

theorem budget?_of_isAway (h : stage.isAway = true) : stage.budget? = none := by
  cases stage <;> first | rfl | cases h

end BuildStage

theorem Build.isAway_of_isOpen {b : Build} (hopen : b.isOpen = true) (h : b.stage ≠ .delayed) :
    b.stage.isAway = false := by
  obtain ⟨id, start, restore, stage⟩ := b
  cases stage with
  | delayed => exact absurd rfl h
  | telling o => cases hopen
  | ended o => cases hopen
  | _ => rfl

namespace Lifecycle

variable {l : Lifecycle} {rebuild : Rebuild} {now start : Instant}

theorem exists_startTime? (h : l.OnClock rebuild) (now : Instant) :
    ∃ start, l.startTime? rebuild now = some start :=
  Option.ne_none_iff_exists'.mp fun hnone => (startTime?_eq_none_iff now).mp hnone h

theorem demand_of_startTime? (hdue : l.IsDue) (h : l.startTime? rebuild now = some start)
    (new : BuildId) : l.demand rebuild now new =
      (⟨.building new, false, some start, false⟩, .scheduled new start l.mayRestore) := by
  have hstart : ({ l with phase := .notReady } : Lifecycle).startTime? rebuild now = some start := h
  rw [demand_of_isDue hdue, schedule, hstart]

/-- No build is due to start before it is asked for. -/
theorem le_startTime? (h : l.startTime? rebuild now = some start) : now ≤ start := by
  unfold startTime? at h
  split at h
  · obtain ⟨t, -, rfl⟩ := Option.map_eq_some_iff.mp h
    exact Nat.le_max_left now t
  · exact Nat.le_of_eq (Option.some.inj h)

/-- A throttled build is due when it is asked for, or a window after the last start if that is
later. -/
theorem startTime?_throttled {window : Duration} (h : l.startTime? (.throttled window) now = some start) :
    start = l.lastStart.elim now fun last => max now (last + window) := by
  unfold startTime? Clock.after? at h
  cases hlast : l.lastStart with
  | none =>
    rw [hlast] at h
    exact (Option.some.inj h).symm
  | some last =>
    rw [hlast] at h
    dsimp only at h
    split at h
    · exact (Option.some.inj h).symm
    · cases h

end Lifecycle

namespace Site

variable {s s' : Site} {a : Act} {acts : List Act} {i n : PartyId} {id : PackageId} {b b' : Build}
  {c : Call} {p : Package} {stage : BuildStage}

/-! ## 2. New builds -/

/-- The act is the demand of a caller that makes build `n`. -/
inductive Orders (s : Site) (n : BuildId) (b : Build) : Act → Prop where
  | mk (i : PartyId) (c : Call) (allowance : Budget.Allowance) (p : Package)
      (hi : s.call? i = some c) (hc : c.stage = .asking allowance)
      (hp : s.package? c.package = some p) (hn : n = s.parties.length)
      (hstart : p.lifecycle.startTime? p.options.rebuild s.now = some b.start)
      (hid : b.package = c.package) (hstage : b.stage = .delayed) : Orders s n b (.move i)

theorem asking_of_event? (h : s.event? a = some (.scheduled id n)) :
    ∃ i c allowance, a = .move i ∧ s.call? i = some c ∧ c.stage = .asking allowance ∧
      c.package = id := by
  cases a with
  | move i =>
    unfold event? at h
    dsimp only at h
    split at h
    · rename_i hdemand
      obtain ⟨rfl, rfl⟩ := Event.scheduled.inj (Option.some.inj h)
      unfold demand? at hdemand
      split at hdemand
      · rename_i hi
        obtain ⟨p, -, hp⟩ := Option.map_eq_some_iff.mp hdemand
        exact ⟨i, _, _, rfl, hi, rfl, (Prod.mk.inj hp).1⟩
      · cases hdemand
    · cases h
  | invalidate k =>
    unfold event? at h
    obtain ⟨p, -, h⟩ := Option.bind_eq_some_iff.mp h
    split at h <;> cases h
  | _ => cases h

/-- The build that a demand makes. -/
theorem build?_asking {allowance : Budget.Allowance} (hi : s.call? i = some c)
    (hc : c.stage = .asking allowance) (hp : s.package? c.package = some p)
    (hdue : p.lifecycle.IsDue) {start : Instant}
    (hstart : p.lifecycle.startTime? p.options.rebuild s.now = some start)
    (h : s.act? (.move i) = some s') : s'.build? s.parties.length =
      some ⟨c.package, start, p.lifecycle.mayRestore, .delayed⟩ := by
  rw [act?_asking hi hc hp, demand, Lifecycle.demand_of_startTime? hdue hstart] at h
  have hparties : s'.parties =
      (s.parties ++ [Party.build ⟨c.package, start, p.lifecycle.mayRestore, .delayed⟩]).set i
        (.call { c with stage := .joining allowance s.parties.length }) := by
    rw [← Option.some.inj h]
    rfl
  have hbuilds : s'.build? = Function.update s.build? s.parties.length
      (some ⟨c.package, start, p.lifecycle.mayRestore, .delayed⟩) :=
    look_concat_set_of_none _ (call?_eq_some.mp hi) rfl rfl hparties
  rw [hbuilds, Function.update_self]

/-- A build that is new has been ordered. -/
theorem orders_of_new (h : s.act? a = some s') (hnone : s.build? n = none)
    (hb : s'.build? n = some b) : Orders s n b a := by
  cases (act?_change h).build hb with
  | stay b₀ stage hb₀ => cases hnone.symm.trans hb₀
  | schedule k p start hp hdue hclock hevent hn =>
    obtain ⟨i, c, allowance, rfl, hi, hc, rfl⟩ := asking_of_event? hevent
    obtain ⟨start', hstart⟩ := Lifecycle.exists_startTime? hclock s.now
    have hnew := build?_asking hi hc hp hdue hstart h
    rw [← hn, hb] at hnew
    rw [Option.some.inj hnew]
    exact .mk i c allowance p hi hc hp hn hstart rfl rfl

/-! ## 3. The course of a build -/

theorem eq_of_build?_setParty (h : (s.setParty i (.build b)).build? i = some b') : b' = b := by
  obtain ⟨hlt, hget⟩ := List.getElem?_eq_some_iff.mp (build?_eq_some.mp h)
  have hself : (s.parties.set i (.build b))[i] = .build b := List.getElem_set_self hlt
  exact (Party.build.inj (hself.symm.trans hget)).symm

/-- A build that has set out never waits for its start again, and never gets more time. -/
theorem BuildTurn.keeps (h : BuildTurn s i b p stage s') (hstage : stage ≠ .delayed)
    (hb : s'.build? i = some b') : b'.stage ≠ .delayed ∧
      ∀ budget, b'.stage.budget? = some budget → stage.budget? = some budget := by
  cases h with
  | setOut budget => exact absurd rfl hstage
  | enter budget grip s₁ h =>
    obtain rfl := eq_of_build?_setParty hb
    dsimp only
    split <;> exact ⟨nofun, fun _ h => h⟩
  | approach budget grip grip' s₁ h =>
    obtain rfl := eq_of_build?_setParty hb
    exact ⟨nofun, fun _ h => h⟩
  | distrust budget h =>
    obtain rfl := eq_of_build?_setParty hb
    exact ⟨nofun, fun _ h => h⟩
  | clear budget =>
    obtain rfl := eq_of_build?_setParty hb
    exact ⟨nofun, fun _ h => h⟩
  | call budget log hlog =>
    obtain rfl := eq_of_build?_setParty hb
    exact ⟨nofun, fun _ h => h⟩
  | _ =>
    -- from here on the build has no budget any more
    obtain rfl := eq_of_build?_setParty hb
    exact ⟨nofun, nofun⟩

/-- How a build comes to where it is, as far as its start and its budget go. -/
inductive Course (s : Site) (a : Act) (n : BuildId) (b' : Build) : Prop where
  | rest (hn : s.build? n = some b')
  | order (h : Orders s n b' a)
  | setOut (b : Build) (p : Package) (hn : s.build? n = some b) (hstage : b.stage = .delayed)
      (hp : s.package? b.package = some p) (hdue : Clock.hasFired s.now b.start = true)
      (hb : b' = { b with
        stage := .gripping (.withTimeout s.now p.options.buildTimeout) .wanted })
  | work (b : Build) (stage : BuildStage) (hn : s.build? n = some b)
      (hold : b.stage.isAway = false) (hnew : stage.isAway = false)
      (hbudget : ∀ budget, stage.budget? = some budget → b.stage.budget? = some budget)
      (hb : b' = { b with stage })
  | leave (b : Build) (stage : BuildStage) (hn : s.build? n = some b) (hdelayed : stage ≠ .delayed)
      (hnew : stage.isAway = true) (hb : b' = { b with stage })

theorem BuildEffect.parties (h : BuildEffect s i b s') :
    ∃ stage, s'.parties = s.parties.set i (.build { b with stage }) := by
  cases h with
  | work stage _ _ hparties => exact ⟨stage, hparties⟩
  | settle o _ _ _ hparties => exact ⟨.telling o, hparties⟩
  | tell o _ hparties => exact ⟨.ended o, hparties⟩

theorem CallEffect.parties (h : CallEffect s i c s') :
    ∃ extra new, s'.parties = (s.parties ++ extra).set i new := by
  cases h with
  | next stage _ hparties => exact ⟨[], _, by rw [hparties, List.append_nil]⟩
  | schedule _ _ _ _ _ _ _ hparties => exact ⟨_, _, hparties⟩
  | offTheClock _ _ _ _ _ hparties => exact ⟨[], _, by rw [hparties, List.append_nil]⟩
  | startCopy stage w _ _ hparties => exact ⟨_, _, hparties⟩
  | finishCopy t answer _ hparties => exact ⟨[], _, by rw [hparties, List.append_nil]⟩

theorem course_of_build (hn : s.build? n = some b) (h : s.moveBuild? n b = some s')
    (hb : s'.build? n = some b') : Course s a n b' := by
  have hself : ∀ {stage}, s'.parties = s.parties.set n (.build { b with stage }) →
      b' = { b with stage } := by
    intro stage hparties
    have hbuilds : s'.build? = Function.update s.build? n (some { b with stage }) :=
      look_set _ (build?_eq_some.mp hn) hparties
    rw [hbuilds, Function.update_self] at hb
    exact (Option.some.inj hb).symm
  obtain ⟨p, hp, hturn⟩ := moveBuild?_turn h
  cases moveBuild?_effect h with
  | work stage hopen hstage hparties =>
    -- a delayed build does nothing but set out, which it does once it is due
    by_cases hdelayed : b.stage = .delayed
    · have hdue := hasFired_of_moveBuild? h hdelayed
      rw [moveBuild?_delayed hp hdelayed hdue] at h
      refine .setOut b p hn hdelayed hp hdue (hself ?_)
      rw [← Option.some.inj h]
      rfl
    · obtain ⟨hkeeps, hbudget⟩ := hturn.keeps hdelayed hb
      obtain rfl := hself hparties
      exact .work b stage hn (Build.isAway_of_isOpen hopen hdelayed)
        (Build.isAway_of_isOpen hstage hkeeps) hbudget rfl
  | settle o _ _ _ hparties => exact .leave b (.telling o) hn nofun rfl (hself hparties)
  | tell o _ hparties => exact .leave b (.ended o) hn nofun rfl (hself hparties)

/-- The move of another party leaves a build as it is. -/
theorem build?_of_move (hne : n ≠ i) (h : s.act? (.move i) = some s') (hn : s.build? n = some b) :
    s'.build? n = some b := by
  have hparty := build?_eq_some.mp hn
  have hlt : n < s.parties.length := (List.getElem?_eq_some_iff.mp hparty).1
  have hset : ∀ {extra new}, s'.parties = (s.parties ++ extra).set i new → s'.build? n = some b := by
    intro extra new hparties
    rw [build?_eq_some, hparties, List.getElem?_set_ne (Ne.symm hne), List.getElem?_append_left hlt,
      hparty]
  have hquiet : s'.build? = s.build? → s'.build? n = some b := fun hbuilds => by rw [hbuilds, hn]
  cases act?_turn h with
  | build _ b₀ _ hi h =>
    obtain ⟨stage, hparties⟩ := (moveBuild?_effect h).parties
    rw [← List.append_nil s.parties] at hparties
    exact hset hparties
  | call _ c _ hi h =>
    obtain ⟨extra, new, hparties⟩ := (moveCall?_effect h).parties
    exact hset hparties
  | copy _ w result tree hi => exact hquiet (look_set_of_none _ hi rfl rfl rfl)
  | depart _ o hi => exact hquiet (look_set_of_none _ hi rfl rfl rfl)

/-- A build stays as it is unless it moves or is dropped. -/
theorem build?_of_act (h : s.act? a = some s') (hn : s.build? n = some b) :
    s'.build? n = some b ∨ a = .move n ∨ a = .drop n := by
  have hquiet : s'.build? = s.build? → s'.build? n = some b ∨ a = .move n ∨ a = .drop n :=
    fun hbuilds => .inl (by rw [hbuilds, hn])
  have hmove : ∀ i, a = .move i → s'.build? n = some b ∨ a = .move n ∨ a = .drop n := by
    rintro i rfl
    by_cases hne : n = i
    · exact .inr (.inl (hne ▸ rfl))
    · exact .inl (build?_of_move hne h hn)
  cases act?_turn h with
  | build i => exact hmove i rfl
  | call i => exact hmove i rfl
  | copy i => exact hmove i rfl
  | depart i => exact hmove i rfl
  | drop i b₀ p hi =>
    by_cases hne : n = i
    · exact .inr (.inr (hne ▸ rfl))
    · refine .inl (build?_eq_some.mpr ?_)
      exact (List.getElem?_set_ne (Ne.symm hne)).trans (build?_eq_some.mp hn)
  | cancel i c allowance hi => exact hquiet (look_set_of_none _ hi rfl rfl rfl)
  | come => exact hquiet (look_concat_of_none _ rfl rfl)
  | visit => exact hquiet (look_concat_of_none _ rfl rfl)
  | dismiss i o hi => exact hquiet (look_set_of_none _ hi rfl rfl rfl)
  | _ => exact hquiet rfl

/-- How every build comes to where it is. -/
theorem act?_course (h : s.act? a = some s') (hb : s'.build? n = some b') : Course s a n b' := by
  by_cases hnone : s.build? n = none
  · exact .order (orders_of_new h hnone hb)
  obtain ⟨b, hn⟩ := Option.ne_none_iff_exists'.mp hnone
  rcases build?_of_act h hn with hrest | rfl | rfl
  · obtain rfl := Option.some.inj (hrest.symm.trans hb)
    exact .rest hn
  · rw [act?, build?_eq_some.mp hn] at h
    exact course_of_build hn h hb
  · cases act?_turn h with
    | drop _ b₀ p hi =>
      exact .leave b₀ (.telling _) (build?_eq_some.mpr hi) (fun h => by cases h) rfl
        (eq_of_build?_setParty hb)

/-! ## 4. No build is early -/

/-- No build has come to its package before its start, and the time that the package allows it runs
from its start at the earliest. -/
structure Timely (s : Site) : Prop where
  away : ∀ n b, s.build? n = some b → s.now < b.start → b.stage.isAway = true
  budget : ∀ n b budget, s.build? n = some b → b.stage.budget? = some budget →
    ∃ p, s.package? b.package = some p ∧
      budget = .withTimeout budget.started p.options.buildTimeout ∧ b.start ≤ budget.started

namespace Timely

theorem empty (epoch : Nat) (tree : FileTree) : Timely (.empty epoch tree) where
  away n b hb := by cases hb
  budget n b budget hb := by cases hb

theorem away_act (hs : Timely s) (h : s.act? a = some s') (n : BuildId) (b : Build)
    (hb : s'.build? n = some b) (hearly : s'.now < b.start) : b.stage.isAway = true := by
  have hnow : s.now < b.start := Nat.lt_of_le_of_lt (now_le_of_act h) hearly
  cases act?_course h hb with
  | rest hn => exact hs.away n b hn hnow
  | order h =>
    obtain ⟨i, c, allowance, p, hi, hc, hp, hn, hstart, hid, hstage⟩ := h
    rw [hstage]
    rfl
  | setOut b₀ p hn hstage hp hdue heq =>
    -- a build that has set out was due
    rw [heq] at hnow
    exact absurd (Clock.le_of_hasFired hdue) (Nat.not_le.mpr hnow)
  | work b₀ stage hn hold hnew hbudget heq =>
    rw [heq] at hnow
    exact absurd (hs.away n b₀ hn hnow) (by rw [hold]; exact Bool.false_ne_true)
  | leave b₀ stage hn hdelayed hnew heq =>
    rw [heq]
    exact hnew

theorem budget_act (hs : Timely s) (h : s.act? a = some s') (n : BuildId) (b : Build)
    (budget : Budget) (hb : s'.build? n = some b) (hbudget : b.stage.budget? = some budget) :
    ∃ p, s'.package? b.package = some p ∧
      budget = .withTimeout budget.started p.options.buildTimeout ∧ b.start ≤ budget.started := by
  have hkeep : ∀ b₀ : Build, s.build? n = some b₀ → b₀.stage.budget? = some budget →
      ∃ p, s'.package? b₀.package = some p ∧
        budget = .withTimeout budget.started p.options.buildTimeout ∧
        b₀.start ≤ budget.started := by
    intro b₀ hn hbudget₀
    obtain ⟨p, hp, heq, hle⟩ := hs.budget n b₀ budget hn hbudget₀
    obtain ⟨p', hp', hoptions⟩ := package?_act h hp
    exact ⟨p', hp', by rw [hoptions]; exact heq, hle⟩
  cases act?_course h hb with
  | rest hn => exact hkeep b hn hbudget
  | order h =>
    obtain ⟨i, c, allowance, p, hi, hc, hp, hn, hstart, hid, hstage⟩ := h
    rw [hstage] at hbudget
    cases hbudget
  | setOut b₀ p hn hstage hp hdue heq =>
    obtain ⟨p', hp', hoptions⟩ := package?_act h hp
    subst heq
    obtain rfl := Option.some.inj hbudget
    exact ⟨p', hp', by rw [hoptions]; rfl, Clock.le_of_hasFired hdue⟩
  | work b₀ stage hn hold hnew hkeeps heq =>
    subst heq
    exact hkeep b₀ hn (hkeeps budget hbudget)
  | leave b₀ stage hn hdelayed hnew heq =>
    subst heq
    cases (BuildStage.budget?_of_isAway hnew).symm.trans hbudget

theorem act (hs : Timely s) (h : s.act? a = some s') : Timely s' where
  away := hs.away_act h
  budget := hs.budget_act h

end Timely

theorem timely_of_run {epoch : Nat} {tree : FileTree}
    (h : (Site.empty epoch tree).run? acts = some s) : Timely s :=
  run?_preserves (fun hact hs => hs.act hact) h (.empty epoch tree)

/-- Nothing is read or written, no builder is called, and all locks stay as they are. -/
structure LeavesAlone (s : Site) (a : Act) (s' : Site) : Prop where
  deed : s.deed? s' a = none
  tree : s'.tree = s.tree
  builders : s'.builders = s.builders
  locks : s'.locks = s.locks
  held : s'.held = s.held

/-- A build that has nothing of any package, and leaves everything alone whatever becomes of it
next. -/
structure KeepsOff (s : Site) (n : BuildId) : Prop where
  hasNothing : s.HasNothing n
  acts : ∀ a s', a = .move n ∨ a = .drop n → s.act? a = some s' → LeavesAlone s a s'

theorem Custody.locks_leave (hc : Custody s) (hn : s.standing? n = none) (id : PackageId) :
    s.locks.modify id (·.leave n) = s.locks := by
  apply List.ext_getElem?
  intro k
  rw [List.getElem?_modify]
  cases hl : s.locks[k]? with
  | none => rfl
  | some l =>
    have hline : n ∉ l.line := fun hmem => hc.not_lines hn k ⟨l, hl, hmem⟩
    have hleave : l.leave n = l := (hc.fair l (List.mem_of_getElem? hl)).leave_of_not_mem hline
    simp [hleave]

theorem Custody.held_leave (hc : Custody s) (hn : s.standing? n = none) :
    s.held.filter (·.2 != n) = s.held := by
  apply List.filter_eq_self.mpr
  rintro ⟨file, i⟩ hmem
  apply bne_iff_ne.mpr
  rintro rfl
  exact (hc.hasNothing hn).files file hmem

/-- A build keeps off its package until it is due to start. -/
theorem Timely.keepsOff (hs : Timely s) (hc : Custody s) (hn : s.build? n = some b)
    (hearly : s.now < b.start) : s.KeepsOff n := by
  have haway : b.stage.isAway = true := hs.away n b hn hearly
  have hstanding : s.standing? n = none :=
    (standing?_of_party (build?_eq_some.mp hn)).trans (BuildStage.standing?_of_isAway haway b.package)
  refine ⟨hc.hasNothing hstanding, ?_⟩
  rintro _ s' (rfl | rfl) h
  · rw [act?_move_build hn] at h
    have hdelayed : b.stage ≠ .delayed := by
      intro hstage
      exact Nat.not_le.mpr hearly (Clock.le_of_hasFired (hasFired_of_moveBuild? h hstage))
    obtain ⟨p, -, hturn⟩ := moveBuild?_turn h
    generalize hstage : b.stage = stage at haway hdelayed hturn
    cases hturn with
    | setOut => exact absurd rfl hdelayed
    | tell o =>
      exact ⟨deed?_of_stage (build?_eq_some.mp hn) rfl hstage rfl, rfl, rfl, rfl, rfl⟩
    | _ => cases haway
  · cases act?_turn h with
    | drop _ b' p =>
      -- a build that is dropped in its sleep has nothing to give up
      refine ⟨rfl, rfl, rfl, ?_, hc.held_leave hstanding⟩
      rw [conclude, locks_publish, locks_release, hc.locks_leave hstanding]

/-! ## 5. Builds that are roused in time -/

/-- Whether a build waits for its start can be told. -/
instance decidableDelayed (stage : BuildStage) : Decidable (stage = .delayed) :=
  match stage with
  | .delayed => isTrue rfl
  | .gripping _ _ => isFalse nofun
  | .restoring _ => isFalse nofun
  | .clearing _ => isFalse nofun
  | .invoking _ => isFalse nofun
  | .working _ _ _ => isFalse nofun
  | .marking _ => isFalse nofun
  | .telling _ => isFalse nofun
  | .ended _ => isFalse nofun

/-- Time does not pass by a build of the package whose timer has fired. -/
def Rouses (id : PackageId) (s : Site) (_ : Act) (s' : Site) : Prop :=
  ∀ b ∈ s.parties.filterMap Party.build?, b.package = id → b.stage = .delayed →
    s'.now ≤ Clock.wakeTime s.now b.start

instance decidableRouses (id : PackageId) (s : Site) (a : Act) (s' : Site) :
    Decidable (Rouses id s a s') :=
  inferInstanceAs (Decidable (∀ b ∈ _, _))

/-- The builds of the package set out at the tick at which they are due to start. -/
structure Punctual (id : PackageId) (s : Site) : Prop where
  delayed : ∀ n b, s.build? n = some b → b.package = id → b.stage = .delayed →
    Clock.tickOf s.now ≤ Clock.tickFrom b.start
  budget : ∀ n b budget, s.build? n = some b → b.package = id → b.stage.budget? = some budget →
    Clock.tickOf budget.started = Clock.tickFrom b.start

namespace Punctual

theorem empty (id : PackageId) (epoch : Nat) (tree : FileTree) : Punctual id (.empty epoch tree) where
  delayed n b hb := by cases hb
  budget n b budget hb := by cases hb

theorem delayed_act (hs : Punctual id s) (h : s.act? a = some s') (hrouses : Rouses id s a s')
    (n : BuildId) (b : Build) (hb : s'.build? n = some b) (hid : b.package = id)
    (hstage : b.stage = .delayed) : Clock.tickOf s'.now ≤ Clock.tickFrom b.start := by
  cases act?_course h hb with
  | rest hn =>
    have hmem : b ∈ s.parties.filterMap Party.build? :=
      List.mem_filterMap.mpr ⟨.build b, List.mem_of_getElem? (build?_eq_some.mp hn), rfl⟩
    exact Clock.tickOf_le_of_le_wakeTime (hs.delayed n b hn hid hstage) (hrouses b hmem hid hstage)
  | order horder =>
    obtain ⟨i, c, allowance, p, hi, hc, hp, hn, hstart, -, -⟩ := horder
    rw [now_of_move h]
    exact Clock.tickOf_le_tickFrom (Lifecycle.le_startTime? hstart)
  | setOut b₀ p hn hstage₀ hp hdue heq =>
    subst heq
    cases hstage
  | work b₀ stage hn hold hnew hbudget heq =>
    subst heq
    obtain rfl : stage = .delayed := hstage
    cases hnew
  | leave b₀ stage hn hdelayed hnew heq =>
    subst heq
    exact absurd hstage hdelayed

theorem budget_act (hs : Punctual id s) (h : s.act? a = some s') (n : BuildId) (b : Build)
    (budget : Budget) (hb : s'.build? n = some b) (hid : b.package = id)
    (hbudget : b.stage.budget? = some budget) :
    Clock.tickOf budget.started = Clock.tickFrom b.start := by
  cases act?_course h hb with
  | rest hn => exact hs.budget n b budget hn hid hbudget
  | order h =>
    obtain ⟨i, c, allowance, p, hi, hc, hp, hn, hstart, -, hstage⟩ := h
    rw [hstage] at hbudget
    cases hbudget
  | setOut b₀ p hn hstage hp hdue heq =>
    subst heq
    obtain rfl := Option.some.inj hbudget
    exact Nat.le_antisymm (hs.delayed n b₀ hn hid hstage) (of_decide_eq_true hdue)
  | work b₀ stage hn hold hnew hkeeps heq =>
    subst heq
    exact hs.budget n b₀ budget hn hid (hkeeps budget hbudget)
  | leave b₀ stage hn hdelayed hnew heq =>
    subst heq
    cases (BuildStage.budget?_of_isAway hnew).symm.trans hbudget

theorem act (hs : Punctual id s) (h : s.act? a = some s') (hrouses : Rouses id s a s') :
    Punctual id s' where
  delayed := hs.delayed_act h hrouses
  budget := hs.budget_act h

end Punctual

theorem punctual_of_run {epoch : Nat} {tree : FileTree}
    (h : (Site.empty epoch tree).run? acts = some s)
    (hrouses : Along (Rouses id) (.empty epoch tree) acts) : Punctual id s :=
  hrouses.preserves (fun hact hQ hs => hs.act hact hQ) h (.empty id epoch tree)

end Site

end Playground
