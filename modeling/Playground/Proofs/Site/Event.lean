import Playground.Proofs.Site.Flight
import Playground.Proofs.Site.Step
/-!
# What a run leaves on record

Two kinds of events decide whether a package has to be built: builds that are scheduled and
invalidations that are accepted.  The history of a run lists them in order.  Every act is read here
as a change of the builds and the lifecycles that its event accounts for.
-/

namespace Playground

/-- What decides whether a package has to be built. -/
inductive Event where
  | scheduled (id : PackageId) (n : BuildId)
  | invalidated (id : PackageId)
deriving DecidableEq, Repr

/-- The package that an event is about. -/
def Event.package : Event → PackageId
  | scheduled id _ => id
  | invalidated id => id

/-- No build of the package has been scheduled. -/
def Unscheduled (log : List Event) (id : PackageId) : Prop :=
  ∀ n, .scheduled id n ∉ log

/-- An invalidation of the package has been accepted, and no build has been scheduled since. -/
def Stale (log : List Event) (id : PackageId) : Prop :=
  ∃ before rest, log = before ++ .invalidated id :: rest ∧ Unscheduled rest id

/-- No event is about the package. -/
def Untouched (log : List Event) (id : PackageId) : Prop :=
  ∀ e ∈ log, e.package ≠ id

/-- Build `n` is the first of the package, and no invalidation came before it was scheduled. -/
def Opens (log : List Event) (id : PackageId) (n : BuildId) : Prop :=
  ∃ before rest, log = before ++ .scheduled id n :: rest ∧ Untouched before id

variable {log : List Event} {e : Event} {id : PackageId} {n : BuildId}

theorem unscheduled_concat :
    Unscheduled (log ++ [e]) id ↔ Unscheduled log id ∧ ∀ n, e ≠ .scheduled id n := by
  constructor
  · intro h
    refine ⟨fun n hn => h n (List.mem_append_left _ hn), fun n he => h n ?_⟩
    rw [he]
    exact List.mem_concat_self
  · rintro ⟨hlog, he⟩ n hn
    rcases List.mem_append.mp hn with hn | hn
    · exact hlog n hn
    · exact he n (List.mem_singleton.mp hn).symm

theorem stale_concat :
    Stale (log ++ [e]) id ↔ e = .invalidated id ∨ Stale log id ∧ ∀ n, e ≠ .scheduled id n := by
  constructor
  · rintro ⟨before, rest, heq, hrest⟩
    -- the invalidation is the last event itself, or the last event comes after it
    rcases List.eq_nil_or_concat rest with rfl | ⟨rest, e', rfl⟩
    · exact .inl (List.append_singleton_inj.mp heq).2
    · rw [List.concat_eq_append, ← List.cons_append, ← List.append_assoc] at heq
      obtain ⟨rfl, rfl⟩ := List.append_singleton_inj.mp heq
      rw [List.concat_eq_append, unscheduled_concat] at hrest
      exact .inr ⟨⟨before, rest, rfl, hrest.1⟩, hrest.2⟩
  · rintro (rfl | ⟨⟨before, rest, rfl, hrest⟩, he⟩)
    · exact ⟨log, [], rfl, fun n => List.not_mem_nil⟩
    · exact ⟨before, rest ++ [e], by simp, unscheduled_concat.mpr ⟨hrest, he⟩⟩

theorem untouched_concat : Untouched (log ++ [e]) id ↔ Untouched log id ∧ e.package ≠ id := by
  rw [Untouched, List.forall_mem_append, List.forall_mem_singleton]
  rfl

theorem Opens.append (h : Opens log id n) (events : List Event) : Opens (log ++ events) id n := by
  obtain ⟨before, rest, rfl, hbefore⟩ := h
  exact ⟨before, rest ++ events, by simp, hbefore⟩

/-- What comes after the first build has been scheduled makes no difference to it. -/
theorem opens_append_iff (h : .scheduled id n ∈ log) (events : List Event) :
    Opens (log ++ events) id n ↔ Opens log id n := by
  refine ⟨fun hopens => ?_, fun hopens => hopens.append events⟩
  obtain ⟨before, rest, heq, hbefore⟩ := hopens
  rcases List.append_eq_append_iff.mp heq with ⟨more, rfl, -⟩ | ⟨more, rfl, hrest⟩
  · -- the build has been scheduled before anything else happened to its package
    exact absurd rfl (hbefore _ (List.mem_append_left more h))
  · cases more with
    | nil =>
      rw [List.append_nil] at h
      exact absurd rfl (hbefore _ h)
    | cons e more => exact ⟨before, more, by rw [(List.cons.inj hrest).1], hbefore⟩

theorem opens_concat_iff (h : .scheduled id n ∉ log) :
    Opens (log ++ [.scheduled id n]) id n ↔ Untouched log id := by
  refine ⟨fun hopens => ?_, fun huntouched => ⟨log, [], rfl, huntouched⟩⟩
  obtain ⟨before, rest, heq, hbefore⟩ := hopens
  rcases List.eq_nil_or_concat rest with rfl | ⟨rest, e, rfl⟩
  · exact (List.append_singleton_inj.mp heq).1 ▸ hbefore
  · rw [List.concat_eq_append, ← List.cons_append, ← List.append_assoc] at heq
    rw [(List.append_singleton_inj.mp heq).1] at h
    exact absurd (List.mem_append_right _ List.mem_cons_self) h

theorem Untouched.unscheduled (h : Untouched log id) : Unscheduled log id :=
  fun _ hn => h _ hn rfl

theorem Untouched.not_stale (h : Untouched log id) : ¬ Stale log id := by
  rintro ⟨before, rest, rfl, -⟩
  exact h (.invalidated id) (List.mem_append_right _ List.mem_cons_self) rfl

/-! ## 1. Demands -/

namespace Lifecycle

variable {l : Lifecycle} {rebuild : Rebuild}

/-- The clock can show the earliest start of a next build.  It can as long as the window between two
builds, counted from the last start, ends within the `2 ^ 63` seconds of the clock. -/
def OnClock (l : Lifecycle) (rebuild : Rebuild) : Prop :=
  ∀ window last, rebuild = .throttled window → l.lastStart = some last →
    last + window < Clock.limit

theorem startTime?_eq_none_iff (now : Instant) :
    l.startTime? rebuild now = none ↔ ¬ l.OnClock rebuild := by
  obtain ⟨phase, dirty, lastStart, mayRestore⟩ := l
  cases rebuild with
  | never => simp [startTime?, OnClock]
  | throttled window =>
    cases lastStart with
    | none => simp [startTime?, OnClock]
    | some last => simp [startTime?, OnClock, Clock.after?]

theorem demand_of_isDue (hdue : l.IsDue) (rebuild : Rebuild) (now : Instant) (new : BuildId) :
    l.demand rebuild now new =
      ({ l with phase := .notReady } : Lifecycle).schedule rebuild now new := by
  obtain ⟨phase, dirty, lastStart, mayRestore⟩ := l
  cases phase with
  | notReady => rfl
  | building b => exact absurd rfl (hdue.idle b)
  | ready a =>
    obtain rfl : dirty = true := hdue.stale _ rfl
    rfl
  | faulted e =>
    obtain rfl : dirty = true := hdue.stale _ rfl
    rfl

theorem demand_of_onClock (hdue : l.IsDue) (hclock : l.OnClock rebuild) (now : Instant)
    (new : BuildId) : ∃ start, l.demand rebuild now new =
      (⟨.building new, false, some start, false⟩, .scheduled new start l.mayRestore) := by
  have hstart : ({ l with phase := .notReady } : Lifecycle).startTime? rebuild now ≠ none :=
    fun h => (startTime?_eq_none_iff now).mp h hclock
  obtain ⟨start, hstart⟩ := Option.ne_none_iff_exists'.mp hstart
  refine ⟨start, ?_⟩
  rw [demand_of_isDue hdue, schedule, hstart]

theorem demand_of_not_onClock (hdue : l.IsDue) (hclock : ¬ l.OnClock rebuild) (now : Instant)
    (new : BuildId) :
    l.demand rebuild now new = ({ l with phase := .notReady }, .offTheClock) := by
  have hstart : ({ l with phase := .notReady } : Lifecycle).startTime? rebuild now = none :=
    (startTime?_eq_none_iff now).mpr hclock
  rw [demand_of_isDue hdue, schedule, hstart]

theorem demand_of_settled {o : Outcome} (ho : l.phase.outcome? = some o) (hclean : l.dirty = false)
    (now : Instant) (new : BuildId) : l.demand rebuild now new = (l, .settled o) := by
  obtain ⟨phase, dirty, lastStart, mayRestore⟩ := l
  dsimp only at ho hclean
  subst hclean
  cases phase with
  | notReady => cases ho
  | building b => cases ho
  | ready a =>
    rw [← Option.some.inj ho]
    rfl
  | faulted e =>
    rw [← Option.some.inj ho]
    rfl

theorem invalidate_of_accepts (h : rebuild = .never → l.phase.state = .faulted) :
    l.invalidate rebuild = ({ l with dirty := true, mayRestore := false }, true) :=
  if_neg fun hrefused => hrefused.2 (h hrefused.1)

theorem invalidate_of_refuses (h : ¬ (rebuild = .never → l.phase.state = .faulted)) :
    l.invalidate rebuild = (l, false) :=
  if_pos (Classical.not_imp.mp h)

end Lifecycle

namespace Site

variable {s s' s₁ : Site} {a : Act} {acts : List Act} {i : PartyId} {b : Build} {c : Call}
  {p : Package}

/-! ## 2. Events of acts -/

/-- The demand that a caller makes when it moves. -/
def demand? (s : Site) (i : PartyId) : Option (PackageId × Demand) :=
  match s.call? i with
  | some ⟨id, _, _, _, .asking _⟩ => (s.package? id).map fun p => (id, (s.demand id p).2)
  | _ => none

/-- The event that an act is. -/
def event? (s : Site) : Act → Option Event
  | .move i =>
      match s.demand? i with
      | some (id, .scheduled n _ _) => some (.scheduled id n)
      | _ => none
  | .invalidate id =>
      (s.package? id).bind fun p =>
        if (s.invalidate id p).2 then some (.invalidated id) else none
  | _ => none

/-- The events of a run, in order. -/
def history (s : Site) : List Act → List Event
  | [] => []
  | a :: acts => (s.event? a).toList ++ (s.act? a).elim [] (·.history acts)

theorem history_concat {start : Site} (h : start.run? acts = some s) (a : Act) :
    start.history (acts ++ [a]) = start.history acts ++ (s.event? a).toList := by
  -- on the acts before the last one, from whatever state they start
  induction acts generalizing start with
  | nil =>
    rw [← Option.some.inj h, List.nil_append, history, history]
    cases start.act? a with
    | none => exact List.append_nil _
    | some s' => exact List.append_nil _
  | cons a' acts ih =>
    obtain ⟨s₁, hfirst, hrest⟩ := Option.bind_eq_some_iff.mp h
    rw [List.cons_append, history, history, hfirst, Option.elim_some, Option.elim_some, ih hrest,
      List.append_assoc]

theorem demand?_of_asking {allowance : Budget.Allowance} (hi : s.call? i = some c)
    (hc : c.stage = .asking allowance) (hp : s.package? c.package = some p) :
    s.demand? i = some (c.package, (s.demand c.package p).2) := by
  obtain ⟨id, start, terms, wish, stage⟩ := c
  dsimp only at hc hp
  rw [demand?, hi, hc]
  dsimp only
  rw [hp]
  rfl

theorem demand?_of_not_asking
    (h : ∀ c allowance, s.call? i = some c → c.stage ≠ .asking allowance) :
    s.demand? i = none := by
  unfold demand?
  split
  · rename_i hi
    exact absurd rfl (h _ _ hi)
  · rfl

theorem event?_of_not_asking (h : ∀ c allowance, s.call? i = some c → c.stage ≠ .asking allowance) :
    s.event? (.move i) = none := by
  rw [event?, demand?_of_not_asking h]

theorem event?_of_party {party : Party} (hi : s.parties[i]? = some party) (h : party.call? = none) :
    s.event? (.move i) = none := by
  refine event?_of_not_asking fun c _ hc => ?_
  rw [call?, look, hi] at hc
  cases h.symm.trans hc

/-! ## 3. What events account for -/

/-- What happens to builds and lifecycles, with the event that goes on record. -/
inductive Shift (s : Site) (event : Option Event) (s' : Site) : Prop where
  | keep (hevent : event = none) (hbuilds : s'.build? = s.build?) (hlives : s'.lives = s.lives)
  | found (hevent : event = none) (hbuilds : s'.build? = s.build?)
      (hlives : s'.lives = s.lives ++ [.fresh])
  | work (n : BuildId) (b : Build) (stage : BuildStage) (hn : s.build? n = some b)
      (hhonest : b.IsHonest → ({ b with stage } : Build).IsHonest) (hevent : event = none)
      (hbuilds : s'.build? = Function.update s.build? n (some { b with stage }))
      (hlives : s'.lives = s.lives)
  | settle (n : BuildId) (b : Build) (o : Outcome) (hn : s.build? n = some b)
      (hopen : b.isOpen = true)
      (hhonest : b.IsHonest → ({ b with stage := .telling o } : Build).IsHonest)
      (hevent : event = none)
      (hbuilds : s'.build? = Function.update s.build? n (some { b with stage := .telling o }))
      (hlives : s'.lives = s.lives.modify b.package (·.publish o))
  | schedule (id : PackageId) (p : Package) (start : Instant) (hp : s.package? id = some p)
      (hdue : p.lifecycle.IsDue) (hclock : p.lifecycle.OnClock p.options.rebuild)
      (hevent : event = some (.scheduled id s.parties.length))
      (hbuilds : s'.build? = Function.update s.build? s.parties.length
        (some ⟨id, start, p.lifecycle.mayRestore, .delayed⟩))
      (hlives : s'.lives = s.lives.modify id fun _ =>
        ⟨.building s.parties.length, false, some start, false⟩)
  | stick (id : PackageId) (p : Package) (hp : s.package? id = some p)
      (hclock : ¬ p.lifecycle.OnClock p.options.rebuild) (hevent : event = none)
      (hbuilds : s'.build? = s.build?)
      (hlives : s'.lives = s.lives.modify id fun l => { l with phase := .notReady })
      (hdue : p.lifecycle.IsDue)
  | invalidate (id : PackageId) (p : Package) (hp : s.package? id = some p)
      (haccepts : p.options.rebuild = .never → p.state = .faulted)
      (hevent : event = some (.invalidated id)) (hbuilds : s'.build? = s.build?)
      (hlives : s'.lives = s.lives.modify id fun l => { l with dirty := true, mayRestore := false })

/-- What an act and its event change about builds and lifecycles. -/
abbrev Change (s : Site) (a : Act) (s' : Site) : Prop := Shift s (s.event? a) s'

theorem Change.of_build (hi : s.parties[i]? = some (.build b)) (heffect : BuildEffect s i b s')
    (hmove : BuildMove s i b s') (hevent : s.event? a = none) : Change s a s' := by
  have hn : s.build? i = some b := build?_eq_some.mpr hi
  cases heffect with
  | work stage hopen hstage hparties hlives =>
    exact .work i b stage hn (hmove.isHonest hi hparties) hevent (look_set _ hi hparties) hlives
  | settle o hopen hknown ho hparties hlives =>
    exact .settle i b o hn hopen (hmove.isHonest hi hparties) hevent (look_set _ hi hparties) hlives
  | tell o hstage hparties hlives =>
    -- the package has been settled before, so for the lifecycles this is work like any other
    exact .work i b (.ended o) hn (hmove.isHonest hi hparties) hevent (look_set _ hi hparties)
      hlives

theorem event?_of_not_isDue {allowance : Budget.Allowance} (hi : s.call? i = some c)
    (hc : c.stage = .asking allowance) (hp : s.package? c.package = some p)
    (hdue : ¬ p.lifecycle.IsDue) : s.event? (.move i) = none := by
  have hresult := p.lifecycle.demandResult_demand p.options.rebuild s.now s.parties.length
  rw [event?, demand?_of_asking hi hc hp, demand]
  generalize p.lifecycle.demand p.options.rebuild s.now s.parties.length = d at hresult ⊢
  cases hresult with
  | settled => rfl
  | joined => rfl
  | scheduled start h => exact absurd h hdue
  | offTheClock h => exact absurd h hdue

theorem event?_of_isDue {allowance : Budget.Allowance} (hi : s.call? i = some c)
    (hc : c.stage = .asking allowance) (hp : s.package? c.package = some p)
    (hdue : p.lifecycle.IsDue) (hclock : p.lifecycle.OnClock p.options.rebuild) :
    s.event? (.move i) = some (.scheduled c.package s.parties.length) := by
  obtain ⟨start, h⟩ := Lifecycle.demand_of_onClock hdue hclock s.now s.parties.length
  rw [event?, demand?_of_asking hi hc hp, demand, h]

theorem event?_of_not_onClock {allowance : Budget.Allowance} (hi : s.call? i = some c)
    (hc : c.stage = .asking allowance) (hp : s.package? c.package = some p)
    (hdue : p.lifecycle.IsDue) (hclock : ¬ p.lifecycle.OnClock p.options.rebuild) :
    s.event? (.move i) = none := by
  have h := Lifecycle.demand_of_not_onClock hdue hclock s.now s.parties.length
  rw [event?, demand?_of_asking hi hc hp, demand, h]

/-- A caller who asks makes a new build exactly if one is due and can start on the clock. -/
theorem event?_asking {allowance : Budget.Allowance} (hi : s.call? i = some c)
    (hc : c.stage = .asking allowance) (hp : s.package? c.package = some p) :
    (p.lifecycle.IsDue ∧ p.lifecycle.OnClock p.options.rebuild) ∧
        s.event? (.move i) = some (.scheduled c.package s.parties.length) ∨
      ¬ (p.lifecycle.IsDue ∧ p.lifecycle.OnClock p.options.rebuild) ∧
        s.event? (.move i) = none := by
  by_cases hdue : p.lifecycle.IsDue
  · by_cases hclock : p.lifecycle.OnClock p.options.rebuild
    · exact .inl ⟨⟨hdue, hclock⟩, event?_of_isDue hi hc hp hdue hclock⟩
    · exact .inr ⟨fun h => hclock h.2, event?_of_not_onClock hi hc hp hdue hclock⟩
  · exact .inr ⟨fun h => hdue h.1, event?_of_not_isDue hi hc hp hdue⟩

theorem act?_asking {allowance : Budget.Allowance} (hi : s.call? i = some c)
    (hc : c.stage = .asking allowance) (hp : s.package? c.package = some p) :
    s.act? (.move i) = some (answerDemand i c allowance (s.demand c.package p)) := by
  rw [act?, call?_eq_some.mp hi, Option.bind_some, move?, moveCall?_asking hp hc]

theorem event?_of_accepts {id : PackageId} (hp : s.package? id = some p)
    (h : p.options.rebuild = .never → p.state = .faulted) :
    s.event? (.invalidate id) = some (.invalidated id) := by
  rw [event?, hp, Option.bind_some, invalidate, Lifecycle.invalidate_of_accepts h]
  rfl

theorem event?_of_refuses {id : PackageId} (hp : s.package? id = some p)
    (h : ¬ (p.options.rebuild = .never → p.state = .faulted)) :
    s.event? (.invalidate id) = none := by
  rw [event?, hp, Option.bind_some, invalidate, Lifecycle.invalidate_of_refuses h]
  rfl

theorem Change.of_asking {allowance : Budget.Allowance} (hi : s.parties[i]? = some (.call c))
    (hc : c.stage = .asking allowance) (hp : s.package? c.package = some p) :
    Change s (.move i) (answerDemand i c allowance (s.demand c.package p)) := by
  have hcall : s.call? i = some c := call?_eq_some.mpr hi
  have hupdate : ∀ l, (s.updatePackage c.package fun p => { p with lifecycle := l }).lives =
      s.lives.modify c.package fun _ => l := fun l => lives_updatePackage s c.package fun _ => rfl
  by_cases hdue : p.lifecycle.IsDue
  · by_cases hclock : p.lifecycle.OnClock p.options.rebuild
    · have hevent := event?_of_isDue hcall hc hp hdue hclock
      obtain ⟨start, h⟩ := Lifecycle.demand_of_onClock hdue hclock s.now s.parties.length
      rw [demand, h]
      -- the new build enters, and then the caller joins it
      have hbuilds : ∀ s₁ : Site, s₁.parties =
          (s.parties ++ [Party.build ⟨c.package, start, p.lifecycle.mayRestore, .delayed⟩]).set i
            (.call { c with stage := .joining allowance s.parties.length }) → _ :=
        fun s₁ => look_concat_set_of_none Party.build? hi rfl rfl
      exact .schedule c.package p start hp hdue hclock hevent (hbuilds _ rfl) (hupdate _)
    · have hevent := event?_of_not_onClock hcall hc hp hdue hclock
      have h := Lifecycle.demand_of_not_onClock hdue hclock s.now s.parties.length
      rw [demand, h]
      refine .stick c.package p hp hclock hevent (look_set_of_none _ hi rfl rfl rfl) ?_ hdue
      exact (hupdate _).trans (lives_modify_const hp fun l => { l with phase := .notReady })
  · -- nothing is due: the caller joins a build or gets what the last one came to
    have hevent := event?_of_not_isDue hcall hc hp hdue
    have hknown : ∀ l, s.lives[c.package]? = some l → ¬ l.IsDue := by
      intro l hl
      rw [lives_getElem?, hp] at hl
      exact Option.some.inj hl ▸ hdue
    cases CallEffect.of_demand (i := i) hp hc with
    | next stage h hparties hlives =>
      exact .keep hevent (look_set_of_none _ hi rfl rfl hparties) hlives
    | schedule _ l _ _ _ hl h => exact absurd h (hknown l hl)
    | offTheClock _ l _ hl h => exact absurd h (hknown l hl)
    | startCopy _ _ h => simp [hc, CallStage.isCopy] at h
    | finishCopy _ _ h => simp [hc, CallStage.isCopy] at h

theorem Change.of_moveCall? (hi : s.parties[i]? = some (.call c)) (h : s.moveCall? i c = some s') :
    Change s (.move i) s' := by
  by_cases hasking : ∃ allowance, c.stage = .asking allowance
  · obtain ⟨allowance, hc⟩ := hasking
    obtain ⟨p, hp, -⟩ := Option.bind_eq_some_iff.mp h
    rw [moveCall?_asking hp hc] at h
    rw [← Option.some.inj h]
    exact .of_asking hi hc hp
  · have hevent : s.event? (.move i) = none := by
      refine event?_of_not_asking fun c' allowance hc' hstage => hasking ⟨allowance, ?_⟩
      rw [call?_eq_some.mpr hi] at hc'
      rw [Option.some.inj hc', hstage]
    cases moveCall?_effect h with
    | next stage _ hparties hlives =>
      exact .keep hevent (look_set_of_none _ hi rfl rfl hparties) hlives
    | schedule allowance _ _ _ hc => exact absurd ⟨allowance, hc⟩ hasking
    | offTheClock allowance _ hc => exact absurd ⟨allowance, hc⟩ hasking
    | startCopy stage w _ _ hparties hlives =>
      exact .keep hevent (look_concat_set_of_nones _ hi rfl rfl rfl hparties) hlives
    | finishCopy t answer _ hparties hlives =>
      exact .found hevent (look_set_of_none _ hi rfl rfl hparties) hlives

theorem Change.of_invalidate {id : PackageId} (hp : s.package? id = some p) :
    Change s (.invalidate id) (s.invalidate id p).1 := by
  have hlives : (s.invalidate id p).1.lives =
      s.lives.modify id fun _ => (p.lifecycle.invalidate p.options.rebuild).1 :=
    lives_updatePackage s id fun _ => rfl
  by_cases haccepts : p.options.rebuild = .never → p.state = .faulted
  · refine .invalidate id p hp haccepts (event?_of_accepts hp haccepts) rfl ?_
    rw [hlives, Lifecycle.invalidate_of_accepts haccepts]
    exact lives_modify_const hp fun l => { l with dirty := true, mayRestore := false }
  · refine .keep (event?_of_refuses hp haccepts) rfl ?_
    rw [hlives, Lifecycle.invalidate_of_refuses haccepts]
    exact lives_modify_self hp

theorem Change.of_same (hevent : s.event? a = none) (h : Same s s') : Change s a s' :=
  .keep hevent (look_of_eq _ h.parties) h.lives

theorem act?_change (h : s.act? a = some s') : Change s a s' := by
  cases act?_turn h with
  | build i b _ hi h =>
    exact .of_build hi (moveBuild?_effect h) (moveBuild?_move h) (event?_of_party hi rfl)
  | call i c _ hi h => exact .of_moveCall? hi h
  | copy i w result tree hi =>
    exact .keep (event?_of_party hi rfl) (look_set_of_none _ hi rfl rfl rfl) rfl
  | depart i o hi => exact .keep (event?_of_party hi rfl) (look_set_of_none _ hi rfl rfl rfl) rfl
  | cancel i c a hi => exact .keep rfl (look_set_of_none _ hi rfl rfl rfl) rfl
  | drop i b p hi hopen hp =>
    -- a build that is dropped fails, so it takes nothing over
    exact .of_build hi (.of_conclude (.refl s) hopen (lt_length_lives hp) _) (.of_fail rfl _) rfl
  | come => exact .keep rfl (look_concat_of_none _ rfl rfl) rfl
  | invalidate id p hp => exact .of_invalidate hp
  | found => exact .found rfl rfl List.map_append
  | visit => exact .keep rfl (look_concat_of_none _ rfl rfl) rfl
  | dismiss i o hi => exact .keep rfl (look_set_of_none _ hi rfl rfl rfl) rfl
  | _ => exact .of_same rfl ⟨rfl, rfl⟩

/-! ## 4. One package -/

/-- What happens to the lifecycle of one package. -/
inductive LifeShift (s : Site) (id : PackageId) (p : Package) (event : Option Event) (s' : Site) :
    Lifecycle → Prop where
  | keep : LifeShift s id p event s' p.lifecycle
  | settle (n : BuildId) (o : Outcome) (hflies : s.Flies id n) (ho : s'.published? n = some o) :
      LifeShift s id p event s' (p.lifecycle.publish o)
  | schedule (start : Instant) (hdue : p.lifecycle.IsDue)
      (hclock : p.lifecycle.OnClock p.options.rebuild) :
      LifeShift s id p event s' ⟨.building s.parties.length, false, some start, false⟩
  | stick (hclock : ¬ p.lifecycle.OnClock p.options.rebuild) (hdue : p.lifecycle.IsDue) :
      LifeShift s id p event s' { p.lifecycle with phase := .notReady }
  | invalidate (haccepts : p.options.rebuild = .never → p.state = .faulted)
      (hevent : event = some (.invalidated id)) :
      LifeShift s id p event s' { p.lifecycle with dirty := true, mayRestore := false }

/-- A package changes only by what happens to it. -/
theorem Shift.life {event : Option Event} {id : PackageId} {p' : Package} (h : Shift s event s')
    (hplans : s.plans <+: s'.plans) (hp : s.package? id = some p)
    (hp' : s'.package? id = some p') : LifeShift s id p event s' p'.lifecycle := by
  have hkept : s'.lives[id]? = s.lives[id]? → LifeShift s id p event s' p'.lifecycle := by
    intro hlives
    rw [lives_getElem?, lives_getElem?, hp, hp'] at hlives
    have hsame : p'.lifecycle = p.lifecycle := Option.some.inj hlives
    rw [hsame]
    exact .keep
  -- a change of the lifecycle with number `k` is one of this package, or it is kept
  have hmodify : ∀ {k f}, s'.lives = s.lives.modify k f →
      (k = id → LifeShift s id p event s' (f p.lifecycle)) →
      LifeShift s id p event s' p'.lifecycle := by
    intro k f hlives hself
    obtain ⟨p₀, hp₀, -, hlifecycle⟩ := package?_of_modify hplans hlives hp'
    rw [hlifecycle, Option.some.inj (hp₀.symm.trans hp)]
    split
    · exact hself ‹_›
    · exact .keep
  cases h with
  | keep _ _ hlives => exact hkept (by rw [hlives])
  | found _ _ hlives =>
    apply hkept
    rw [hlives, List.getElem?_append_left (lt_length_lives hp)]
  | work _ _ _ _ _ _ _ hlives => exact hkept (by rw [hlives])
  | settle n b o hn hopen _ _ hbuilds hlives =>
    refine hmodify hlives fun hid => .settle n o ⟨b, hn, hid, hopen⟩ ?_
    rw [published?_self hbuilds]
    rfl
  | schedule k p₀ start hp₀ hdue hclock _ _ hlives =>
    refine hmodify hlives ?_
    rintro rfl
    obtain rfl := Option.some.inj (hp₀.symm.trans hp)
    exact .schedule start hdue hclock
  | stick k p₀ hp₀ hclock _ _ hlives hdue =>
    refine hmodify hlives ?_
    rintro rfl
    obtain rfl := Option.some.inj (hp₀.symm.trans hp)
    exact .stick hclock hdue
  | invalidate k p₀ hp₀ haccepts hevent _ hlives =>
    refine hmodify hlives ?_
    rintro rfl
    obtain rfl := Option.some.inj (hp₀.symm.trans hp)
    exact .invalidate haccepts hevent

/-! ## 5. One build -/

/-- What a build with the number `n` is: one that was there, maybe at another stage, or the one that
has just been scheduled. -/
inductive BuildShift (s : Site) (event : Option Event) (s' : Site) (n : BuildId) : Build → Prop where
  | stay (b : Build) (stage : BuildStage) (hb : s.build? n = some b)
      (hhonest : b.IsHonest → ({ b with stage } : Build).IsHonest) :
      BuildShift s event s' n { b with stage }
  | schedule (id : PackageId) (p : Package) (start : Instant) (hp : s.package? id = some p)
      (hdue : p.lifecycle.IsDue) (hclock : p.lifecycle.OnClock p.options.rebuild)
      (hevent : event = some (.scheduled id n)) (hn : n = s.parties.length)
      (hlives : s'.lives = s.lives.modify id fun _ => ⟨.building n, false, some start, false⟩) :
      BuildShift s event s' n ⟨id, start, p.lifecycle.mayRestore, .delayed⟩

theorem Shift.build {event : Option Event} {n : BuildId} {b' : Build} (h : Shift s event s')
    (hb' : s'.build? n = some b') : BuildShift s event s' n b' := by
  have hkept : ∀ {b}, s.build? n = some b → BuildShift s event s' n b := fun {b} hb =>
    .stay b b.stage hb id
  have hstage : ∀ {m b stage}, s.build? m = some b →
      (b.IsHonest → ({ b with stage } : Build).IsHonest) →
      s'.build? = Function.update s.build? m (some { b with stage }) →
      BuildShift s event s' n b' := by
    intro m b stage hm hhonest hbuilds
    rw [hbuilds, Function.update_apply] at hb'
    split at hb'
    · rename_i hnm
      rw [← Option.some.inj hb']
      exact .stay b stage (hnm ▸ hm) hhonest
    · exact hkept hb'
  cases h with
  | keep _ hbuilds => exact hkept (hbuilds ▸ hb')
  | found _ hbuilds => exact hkept (hbuilds ▸ hb')
  | work m b stage hm hhonest _ hbuilds => exact hstage hm hhonest hbuilds
  | settle m b o hm _ hhonest _ hbuilds => exact hstage hm hhonest hbuilds
  | schedule id p start hp hdue hclock hevent hbuilds hlives =>
    rw [hbuilds, Function.update_apply] at hb'
    split at hb'
    · rename_i hn
      subst hn
      rw [← Option.some.inj hb']
      exact .schedule id p start hp hdue hclock hevent rfl hlives
    · exact hkept hb'
  | stick _ _ _ _ _ hbuilds => exact hkept (hbuilds ▸ hb')
  | invalidate _ _ _ _ _ hbuilds => exact hkept (hbuilds ▸ hb')

end Site

end Playground
