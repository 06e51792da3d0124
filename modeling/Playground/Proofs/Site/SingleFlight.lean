import Playground.Proofs.Site.Flight
/-!
# Single flight

However callers, invalidations, cancellations and builds are interleaved, at most one build of a
package is in flight, and all callers that wait for a build get what that very build comes to.
-/

namespace Playground.Site

variable {start s s' s₀ s₁ : Site} {a : Act} {acts before rest : List Act} {i : PartyId}
  {n : BuildId} {c c' : Call} {o : Outcome} {stage : CallStage}

/-! ## 1. What happened to a caller -/

/-- The answer that the budget of a caller is exceeded. -/
def IsOverrun (answer : Except PackageError Gain) : Prop := ∃ e, answer = .error (.budget e)

/-- In a run, caller `i` asks for its package in state `s₀` and has asked in state `s₁`. -/
def Asks (start : Site) (acts : List Act) (i : PartyId) (id : PackageId) (s₀ s₁ : Site) : Prop :=
  ∃ before rest c a, acts = before ++ .move i :: rest ∧ start.run? before = some s₀ ∧
    s₀.call? i = some c ∧ c.package = id ∧ c.stage = .asking a ∧ s₀.act? (.move i) = some s₁

/-- In a run, caller `i` asks for a package that is settled and has not been invalidated since. -/
def Finds (start : Site) (acts : List Act) (i : PartyId) (o : Outcome) : Prop :=
  ∃ id s₀ s₁ l, Asks start acts i id s₀ s₁ ∧ s₀.lives[id]? = some l ∧
    l.phase.outcome? = some o ∧ l.dirty = false

/-- In a run, caller `i` asks for a package, and then build `n` of it is in flight. -/
def Joins (start : Site) (acts : List Act) (i : PartyId) (n : BuildId) : Prop :=
  ∃ id s₀ s₁, Asks start acts i id s₀ s₁ ∧ s₁.phase? id = some (.building n)

/-- In a run to state `s`, caller `i` has found an outcome or has joined the build with it. -/
inductive Served (start : Site) (acts : List Act) (s : Site) (i : PartyId) (o : Outcome) :
    Prop where
  | found (h : Finds start acts i o)
  | joined (n : BuildId) (h : Joins start acts i n) (ho : s.published? n = some o)

theorem Asks.concat {id : PackageId} (h : Asks start acts i id s₀ s₁) (a : Act) :
    Asks start (acts ++ [a]) i id s₀ s₁ := by
  obtain ⟨before, rest, c, allowance, rfl, h⟩ := h
  exact ⟨before, rest ++ [a], c, allowance, by simp, h⟩

theorem Asks.last {allowance : Budget.Allowance} (hrun : start.run? acts = some s)
    (hi : s.call? i = some c) (hc : c.stage = .asking allowance)
    (h : s.act? (.move i) = some s') : Asks start (acts ++ [.move i]) i c.package s s' :=
  ⟨acts, [], c, allowance, rfl, hrun, hi, rfl, hc, h⟩

theorem Joins.concat (h : Joins start acts i n) (a : Act) : Joins start (acts ++ [a]) i n := by
  obtain ⟨id, s₀, s₁, hasks, hphase⟩ := h
  exact ⟨id, s₀, s₁, hasks.concat a, hphase⟩

theorem Served.concat (hserved : Served start acts s i o) (h : s.act? a = some s') :
    Served start (acts ++ [a]) s' i o := by
  cases hserved with
  | found hfinds =>
    obtain ⟨id, s₀, s₁, l, hasks, hl⟩ := hfinds
    exact .found ⟨id, s₀, s₁, l, hasks.concat a, hl⟩
  | joined n hjoins ho => exact .joined n (hjoins.concat a) (published?_act h ho)

/-- What must have happened to a caller in the stage it is in. -/
structure Past (start : Site) (acts : List Act) (s : Site) (i : PartyId) (c : Call) : Prop where
  waits : ∀ n, c.stage.build? = some n → Joins start acts i n
  copies : c.stage.isCopy = true →
    c.wish ≠ .ready ∧ ∃ artifact, Served start acts s i (.ok artifact)
  answered : ∀ t answer, c.wish = .ready → c.stage = .answered t answer →
    IsOverrun answer ∨ ∃ o, Served start acts s i o ∧ answer = o.map .artifact

namespace Past

theorem of_overrun {t : Instant} {e : Budget.Exceeded} :
    Past start acts s i { c with stage := .answered t (.error (.budget e)) } where
  waits n hn := by cases hn
  copies hcopy := by cases hcopy
  answered _ answer _ h := by
    rw [← (CallStage.answered.inj h).2]
    exact .inl ⟨e, rfl⟩

theorem of_answer {t : Instant} (h : Served start acts s i o) :
    Past start acts s i { c with stage := .answered t (o.map .artifact) } where
  waits n hn := by cases hn
  copies hcopy := by cases hcopy
  answered u answer _ hc := .inr ⟨o, h, (CallStage.answered.inj hc).2.symm⟩

/-- A caller who neither waits nor copies and has no answer has no history to speak of. -/
theorem of_idle (hbuild : stage.build? = none) (hcopy : stage.isCopy = false)
    (hanswer : ∀ t answer, stage ≠ .answered t answer) :
    Past start acts s i { c with stage } where
  waits n hn := by cases hbuild.symm.trans hn
  copies h := by cases hcopy.symm.trans h
  answered t answer _ h := absurd h (hanswer t answer)

theorem of_after {allowance : Budget.Allowance} {t : Instant} (h : Served start acts s i o) :
    Past start acts s i { c with stage := c.after allowance t o } := by
  obtain ⟨package, time, terms, wish, stage⟩ := c
  have hanswer := of_answer (c := ⟨package, time, terms, wish, stage⟩) (t := t) h
  cases o with
  | error e => exact hanswer
  | ok artifact =>
    cases wish with
    | ready => exact hanswer
    | copy order =>
      refine ⟨fun n hn => ?_, fun _ => ⟨fun hready => ?_, artifact, h⟩, fun u answer hready => ?_⟩
      · cases hn
      · cases hready
      · cases hready

theorem of_joins (hstage : stage.build? = some n) (hjoins : Joins start acts i n) :
    Past start acts s i { c with stage } where
  waits m hm := by
    rw [← Option.some.inj (hstage.symm.trans hm)]
    exact hjoins
  copies hcopy := by
    rw [CallStage.build?_of_isCopy hcopy] at hstage
    cases hstage
  answered t answer _ hc := by
    dsimp only at hc
    rw [hc] at hstage
    cases hstage

theorem concat (hpast : Past start acts s i c) (h : s.act? a = some s') :
    Past start (acts ++ [a]) s' i c where
  waits n hn := (hpast.waits n hn).concat a
  copies hcopy := by
    obtain ⟨hwish, artifact, hserved⟩ := hpast.copies hcopy
    exact ⟨hwish, artifact, hserved.concat h⟩
  answered t answer hwish hc := by
    rcases hpast.answered t answer hwish hc with hover | ⟨o, hserved, ho⟩
    · exact .inl hover
    · exact .inr ⟨o, hserved.concat h, ho⟩

theorem of_coming (h : c.stage = .coming) : Past start acts s i c := by
  obtain ⟨package, time, terms, wish, stage⟩ := c
  subst h
  exact of_idle (c := ⟨package, time, terms, wish, .coming⟩) rfl rfl (by intro t answer h; cases h)

theorem of_copies (hpast : Past start acts s i c) (hcopy : c.stage.isCopy = true)
    (hstage : stage.isCopy = true ∨ ∃ t answer, stage = .answered t answer) :
    Past start acts s i { c with stage } := by
  obtain ⟨hwish, hserved⟩ := hpast.copies hcopy
  refine ⟨fun n hn => ?_, fun _ => ⟨hwish, hserved⟩, fun _ _ hready => absurd hready hwish⟩
  rcases hstage with hstage | ⟨t, answer, rfl⟩
  · dsimp only at hn
    rw [CallStage.build?_of_isCopy hstage] at hn
    cases hn
  · cases hn

theorem of_cancel (hpast : Past start acts s i c) (allowance : Budget.Allowance) :
    Past start acts s i { c with stage := c.stage.withAllowance allowance } := by
  obtain ⟨package, time, terms, wish, stage⟩ := c
  cases stage with
  | coming => exact hpast
  | asking =>
    refine of_idle (c := ⟨package, time, terms, wish, .coming⟩) rfl rfl ?_
    intro t answer h
    cases h
  | joining a n => exact of_joins rfl (hpast.waits n rfl)
  | waiting a n => exact of_joins rfl (hpast.waits n rfl)
  | gripping => exact hpast.of_copies rfl (.inl rfl)
  | copying => exact hpast.of_copies rfl (.inl rfl)
  | answered => exact hpast
  | offTheClock => exact hpast

theorem of_step (hrun : start.run? acts = some s) (hi : s.call? i = some c)
    (h : s.act? (.move i) = some s') (hstep : CallStep s c s' stage)
    (hpast : Past start acts s i c) : Past start (acts ++ [.move i]) s' i { c with stage } := by
  -- everything that happened before is still so after the act
  have hpast' := hpast.concat h
  cases hstep with
  | next stage hnext hphases =>
    cases hnext with
    | refuse t e hc => exact of_overrun
    | come allowance hc => exact of_idle rfl rfl (by intro t answer h; cases h)
    | settled allowance l t o hc hl ho hclean =>
      exact of_after (.found ⟨_, s, s', l, .last hrun hi hc h, hl, ho, hclean⟩)
    | join allowance l n hc hl hn =>
      refine of_joins rfl ⟨_, s, s', .last hrun hi hc h, ?_⟩
      rw [hphases, phase?, hl, Option.map_some, hn]
    | wait allowance n hc => exact of_joins rfl (hpast'.waits n hc)
    | giveUp n t e hc => exact of_overrun
    | get allowance n t o hc ho =>
      exact of_after (.joined n (hpast'.waits n hc) (published?_act h (published?_of_outcome? ho)))
    | copy stage hcopy hstage => exact hpast'.of_copies hcopy hstage
  | schedule allowance l n hc hl hdue hphase =>
    exact of_joins rfl ⟨_, s, s', .last hrun hi hc h, hphase⟩
  | offTheClock allowance l hc hl hdue hphase =>
    exact of_idle rfl rfl (by intro t answer h; cases h)
  | copy stage hcopy hstage => exact hpast'.of_copies hcopy hstage

theorem of_change (hrun : start.run? acts = some s) (hi : s.call? i = some c)
    (h : s.act? a = some s') (hc : CallChange s a s' i c c') (hpast : Past start acts s i c) :
    Past start (acts ++ [a]) s' i c' := by
  cases hc with
  | keep => exact hpast.concat h
  | cancel allowance => exact (hpast.concat h).of_cancel allowance
  | move stage ha hstep =>
    rw [ha] at h ⊢
    exact of_step hrun hi h hstep hpast

end Past

/-- The history of every caller in every run that begins before anybody has come. -/
theorem past_of_run (hstart : ∀ i, start.call? i = none) (hrun : start.run? acts = some s)
    (hi : s.call? i = some c) : Past start acts s i c := by
  refine call?_induction (P := fun acts s c => Past start acts s i c) (hstart i) .of_coming ?_ hrun hi
  intro acts s a s' c c' hrun hold h hchange _ hpast
  exact .of_change hrun hold h hchange hpast

/-! ## 2. What will happen to a caller -/

namespace CallStep

variable {allowance : Budget.Allowance} {l : Lifecycle}

theorem ne_answered (h : CallStep s c s' stage) (t : Instant) (answer : Except PackageError Gain) :
    c.stage ≠ .answered t answer := by
  intro hc
  have hbuild : c.stage.build? = none := by rw [hc]; rfl
  have hcopy : c.stage.isCopy = false := by rw [hc]; rfl
  cases h with
  | next stage hnext _ => cases hnext <;> simp_all
  | _ => simp_all

/-- A caller who waits for a build goes on waiting for it, gives up, or gets what it came to. -/
theorem of_build? (h : CallStep s c s' stage) (hn : c.stage.build? = some n) :
    stage.build? = some n ∨ (∃ t e, stage = .answered t (.error (.budget e))) ∨
      ∃ allowance t o, stage = c.after allowance t o ∧ s.published? n = some o := by
  -- the other steps are made at stages without a build
  have hstage : ∀ stage : CallStage, stage.build? = none → c.stage ≠ stage := by
    rintro stage hnone rfl
    rw [hn] at hnone
    cases hnone
  have hcopy : c.stage.isCopy ≠ true := by
    intro hcopy
    rw [CallStage.build?_of_isCopy hcopy] at hn
    cases hn
  cases h with
  | next stage hnext _ =>
    cases hnext with
    | refuse t e hc => exact absurd hc (hstage _ rfl)
    | come allowance hc => exact absurd hc (hstage _ rfl)
    | settled allowance l t o hc => exact absurd hc (hstage _ rfl)
    | join allowance l m hc => exact absurd hc (hstage _ rfl)
    | wait allowance m hm => exact .inl (hm.symm.trans hn)
    | giveUp m t e _ => exact .inr (.inl ⟨t, e, rfl⟩)
    | get allowance m t o hm ho =>
      rw [← Option.some.inj (hm.symm.trans hn)]
      exact .inr (.inr ⟨allowance, t, o, rfl, published?_of_outcome? ho⟩)
    | copy stage h => exact absurd h hcopy
  | schedule allowance l m hc => exact absurd hc (hstage _ rfl)
  | offTheClock allowance l hc => exact absurd hc (hstage _ rfl)
  | copy stage h => exact absurd h hcopy

/-- What a caller who asks can get to. -/
theorem of_asking (h : CallStep s c s' stage) (hc : c.stage = .asking allowance) :
    (∃ l o allowance t, s.lives[c.package]? = some l ∧ l.phase.outcome? = some o ∧
        s'.phase? = s.phase? ∧ stage = c.after allowance t o) ∨
      (∃ l m, s.lives[c.package]? = some l ∧ (l.phase = .building m ∨ l.IsDue) ∧
        s'.phase? c.package = some (.building m) ∧ stage.build? = some m) ∨
      ∃ l, s.lives[c.package]? = some l ∧ l.IsDue ∧ s'.phase? c.package = some .notReady ∧
        stage = .offTheClock := by
  have hbuild : c.stage.build? = none := by rw [hc]; rfl
  have hcopy : c.stage.isCopy = false := by rw [hc]; rfl
  cases h with
  | next stage hnext hphases =>
    cases hnext with
    | refuse t e hcoming => cases hc.symm.trans hcoming
    | come allowance hcoming => cases hc.symm.trans hcoming
    | settled allowance l t o _ hl ho => exact .inl ⟨l, o, allowance, t, hl, ho, hphases, rfl⟩
    | join allowance l m _ hl hm =>
      refine .inr (.inl ⟨l, m, hl, .inl hm, ?_, rfl⟩)
      rw [hphases, phase?, hl, Option.map_some, hm]
    | wait allowance m hm => cases hbuild.symm.trans hm
    | giveUp m t e hm => cases hbuild.symm.trans hm
    | get allowance m t o hm => cases hbuild.symm.trans hm
    | copy stage h => cases hcopy.symm.trans h
  | schedule allowance l m _ hl hdue hphase =>
    exact .inr (.inl ⟨l, m, hl, .inr hdue, hphase, rfl⟩)
  | offTheClock allowance l _ hl hdue hphase => exact .inr (.inr ⟨l, hl, hdue, hphase, rfl⟩)
  | copy stage h => cases hcopy.symm.trans h

/-- A caller who asks and then sees a build in flight waits for that build. -/
theorem of_building (h : CallStep s c s' stage) (hc : c.stage = .asking allowance)
    (hphase : s'.phase? c.package = some (.building n)) : stage.build? = some n := by
  rcases h.of_asking hc with ⟨l, o, _, _, hl, ho, hphases, -⟩ | ⟨l, m, -, -, hm, hstage⟩ |
    ⟨l, -, -, hnone, -⟩
  · rw [hphases, phase?, hl, Option.map_some] at hphase
    rw [Option.some.inj hphase] at ho
    cases ho
  · rw [hm] at hphase
    rw [hstage, Phase.building.inj (Option.some.inj hphase)]
  · rw [hnone] at hphase
    cases hphase

/-- A caller who asks for a package that is settled and valid gets what it is settled with. -/
theorem of_settled (h : CallStep s c s' stage) (hc : c.stage = .asking allowance)
    (hl : s.lives[c.package]? = some l) (ho : l.phase.outcome? = some o)
    (hclean : l.dirty = false) : ∃ allowance t, stage = c.after allowance t o := by
  -- a package that is settled and valid is not built again
  have hdue : ∀ l', s.lives[c.package]? = some l' → ¬ l'.IsDue := by
    intro l' hl' hdue
    rw [hl] at hl'
    rw [Option.some.inj hl', hdue.stale o (Option.some.inj hl' ▸ ho)] at hclean
    cases hclean
  rcases h.of_asking hc with ⟨l', o', a, t, hl', ho', -, hstage⟩ |
    ⟨l', m, hl', hm | hm, -, -⟩ | ⟨l', hl', hnone, -⟩
  · rw [← Option.some.inj (hl.symm.trans hl')] at ho'
    rw [← Option.some.inj (ho.symm.trans ho')] at hstage
    exact ⟨a, t, hstage⟩
  · rw [Option.some.inj (hl.symm.trans hl'), hm] at ho
    cases ho
  · exact absurd hm (hdue l' hl')
  · exact absurd hnone (hdue l' hl')

end CallStep

/-- What can become of a caller for a ready package that waits for build `n`. -/
inductive Fate (n : BuildId) (s : Site) (c : Call) : Prop where
  | waits (h : c.stage.build? = some n)
  | overrun (t : Instant) (e : Budget.Exceeded) (h : c.stage = .answered t (.error (.budget e)))
  | served (t : Instant) (o : Outcome) (h : c.stage = .answered t (o.map .artifact))
      (ho : s.published? n = some o)

theorem CallChange.answered {t : Instant} {answer : Except PackageError Gain}
    (h : CallChange s a s' i c c') (hc : c.stage = .answered t answer) :
    c'.stage = .answered t answer := by
  cases h with
  | keep => exact hc
  | cancel allowance =>
    dsimp only
    rw [hc]
    rfl
  | move stage _ hstep => exact absurd hc (hstep.ne_answered t answer)

theorem CallChange.wish (h : CallChange s a s' i c c') : c'.wish = c.wish := by
  cases h <;> rfl

theorem Fate.change (h : s.act? a = some s') (hc : CallChange s a s' i c c')
    (hwish : c.wish = .ready) (hfate : Fate n s c) : Fate n s' c' := by
  cases hfate with
  | waits hn =>
    cases hc with
    | keep => exact .waits hn
    | cancel allowance => exact .waits ((c.stage.build?_withAllowance allowance).trans hn)
    | move stage _ hstep =>
      rcases hstep.of_build? hn with hn | ⟨t, e, rfl⟩ | ⟨allowance, t, o, rfl, ho⟩
      · exact .waits hn
      · exact .overrun t e rfl
      · exact .served t o (Call.after_ready hwish allowance t o) (published?_act h ho)
  | overrun t e hover => exact .overrun t e (hc.answered hover)
  | served t o hserved ho => exact .served t o (hc.answered hserved) (published?_act h ho)

/-- What holds of a caller for a ready package when it has just asked, and is preserved by acts,
holds of it for ever. -/
theorem call_of_asks {Q : Site → Call → Prop} {id : PackageId}
    (hact : ∀ {s a s' c c'}, s.act? a = some s' → CallChange s a s' i c c' → c.wish = .ready →
      Q s c → Q s' c')
    (hrun : start.run? acts = some s) (hasks : Asks start acts i id s₀ s₁)
    (hstep : ∀ {c allowance stage}, c.package = id → c.stage = .asking allowance →
      CallStep s₀ c s₁ stage → c.wish = .ready → Q s₁ { c with stage })
    (hi : s.call? i = some c) (hwish : c.wish = .ready) : Q s c := by
  obtain ⟨before, rest, c₀, allowance, rfl, hbefore, hi₀, hid, hc₀, h⟩ := hasks
  rw [run?_append, hbefore, Option.bind_some, run?, h, Option.bind_some] at hrun
  obtain ⟨stage, hcalls, hcall⟩ := act?_move_call hi₀ h
  -- the rest of the run preserves that the caller is there and has the property
  have hlast : ∃ c, s.call? i = some c ∧ (c.wish = .ready → Q s c) := by
    refine run?_preserves (P := fun s => ∃ c, s.call? i = some c ∧ (c.wish = .ready → Q s c))
      ?_ hrun ⟨{ c₀ with stage }, ?_, hstep (c := c₀) hid hc₀ hcall⟩
    · rintro s a s' h ⟨c, hi, hQ⟩
      obtain ⟨c', hi', hchange⟩ := (act?_calls h).old i c hi
      exact ⟨c', hi', fun hready => hact h hchange (hchange.wish ▸ hready)
        (hQ (hchange.wish ▸ hready))⟩
    · rw [hcalls, Function.update_self]
  obtain ⟨c', hi', hQ⟩ := hlast
  rw [hi] at hi'
  rw [Option.some.inj hi'] at hwish ⊢
  exact hQ hwish

theorem fate_of_joins (hrun : start.run? acts = some s) (hjoins : Joins start acts i n)
    (hi : s.call? i = some c) (hwish : c.wish = .ready) : Fate n s c := by
  obtain ⟨id, s₀, s₁, hasks, hphase⟩ := hjoins
  refine call_of_asks Fate.change hrun hasks (fun hid hc hstep _ => ?_) hi hwish
  exact .waits (hstep.of_building hc (hid ▸ hphase))

theorem answered_of_finds (hrun : start.run? acts = some s) (hfinds : Finds start acts i o)
    (hi : s.call? i = some c) (hwish : c.wish = .ready) :
    ∃ t, c.stage = .answered t (o.map .artifact) := by
  obtain ⟨id, s₀, s₁, l, hasks, hl, ho, hclean⟩ := hfinds
  refine call_of_asks (Q := fun _ c => ∃ t, c.stage = .answered t (o.map .artifact))
    (fun _ hchange _ hc => hc.imp fun t hc => hchange.answered hc) hrun hasks
    (fun hid hc hstep hready => ?_) hi hwish
  obtain ⟨allowance, t, hstage⟩ := hstep.of_settled hc (hid ▸ hl) ho hclean
  exact ⟨t, hstage.trans (Call.after_ready hready allowance t o)⟩

/-! ## 3. Giving up and breaking off -/

/-- A caller who neither asks nor copies changes nothing but its own stage. -/
theorem setParty_of_moveCall? (h : s.moveCall? i c = some s') (hcopy : c.stage.isCopy = false)
    (hask : ∀ allowance, c.stage ≠ .asking allowance) :
    ∃ stage, s' = s.setParty i (.call { c with stage }) := by
  obtain ⟨p, -, hturn⟩ := moveCall?_turn h
  generalize c.stage = stage at hturn hcopy hask
  cases hturn with
  | ask allowance => exact absurd rfl (hask allowance)
  | get _ allowance n o =>
    rw [afterOutcome_eq]
    exact ⟨_, rfl⟩
  | come | refuse | wait | giveUp => exact ⟨_, rfl⟩
  | _ => cases hcopy

/-- Asking never exceeds a budget. -/
theorem CallStep.not_overrun (hs : Sound s) {allowance : Budget.Allowance}
    (h : CallStep s c s' stage) (hc : c.stage = .asking allowance) (t : Instant)
    (e : Budget.Exceeded) : stage ≠ .answered t (.error (.budget e)) := by
  rcases h.of_asking hc with ⟨l, o, allowance, u, hl, ho, -, hstage⟩ | ⟨l, m, -, -, -, hstage⟩ |
    ⟨l, -, -, -, hstage⟩
  · have ho' : NoOverrun o := hs.phases c.package l.phase o (by rw [phase?, hl]; rfl) ho
    rw [hstage]
    exact fun hover => ho' e (Call.eq_error_of_after hover)
  · rintro rfl
    cases hstage
  · rw [hstage]
    intro h
    cases h

/-- A caller who gives up changes nothing but its own stage. -/
theorem setParty_of_giveUp (hs : Sound s) (hi : s.call? i = some c) (hcopy : c.stage.isCopy = false)
    (h : s.act? (.move i) = some s') {t : Instant} {e : Budget.Exceeded}
    (hi' : s'.call? i = some c') (hc' : c'.stage = .answered t (.error (.budget e))) :
    s' = s.setParty i (.call c') := by
  obtain ⟨stage, hcalls, hstep⟩ := act?_move_call hi h
  rw [hcalls, Function.update_self] at hi'
  obtain rfl := Option.some.inj hi'
  have hparty : s.parties[i]? = some (.call c) := call?_eq_some.mp hi
  rw [act?, hparty] at h
  obtain ⟨stage', rfl⟩ := setParty_of_moveCall? h hcopy
    fun allowance hc => hstep.not_overrun hs hc t e hc'
  -- both descriptions of the new state give the caller the same stage
  have hset : (s.setParty i (.call { c with stage := stage' })).call? = _ :=
    look_set _ hparty rfl
  have hstage := congrFun (hcalls.symm.trans hset) i
  rw [Function.update_self, Function.update_self] at hstage
  exact congrArg _ (congrArg _ (Option.some.inj hstage).symm)

/-- A caller who cancels its budget changes nothing but its own stage. -/
theorem setParty_of_cancel (h : s.act? (.cancel i) = some s') :
    ∃ c stage, s.call? i = some c ∧ s' = s.setParty i (.call { c with stage }) := by
  cases act?_turn h with
  | cancel _ c allowance hi => exact ⟨c, _, call?_eq_some.mpr hi, rfl⟩

/-- A build that breaks off is settled as aborted. -/
theorem published?_of_drop (h : s.act? (.drop n) = some s') :
    ∃ b p, s.build? n = some b ∧ s.package? b.package = some p ∧
      s'.published? n = some (.error (.aborted p.name)) := by
  cases act?_turn h with
  | drop _ b p hi hopen hp =>
    refine ⟨b, p, build?_eq_some.mpr hi, hp, ?_⟩
    have hbuild : (s.conclude n b p (.error (.aborted p.name))).build? n =
        some { b with stage := .telling (.error (.aborted p.name)) } :=
      build?_eq_some.mpr (List.getElem?_set_self (List.getElem?_eq_some_iff.mp hi).1)
    exact published?_of_build? hbuild

theorem published?_of_dropped (hrun : start.run? (before ++ .drop n :: rest) = some s) :
    ∃ s₀ b p, start.run? before = some s₀ ∧ s₀.build? n = some b ∧
      s₀.package? b.package = some p ∧ s.published? n = some (.error (.aborted p.name)) := by
  rw [run?_append] at hrun
  obtain ⟨s₀, hbefore, hrun⟩ := Option.bind_eq_some_iff.mp hrun
  obtain ⟨s₁, h, hrun⟩ := Option.bind_eq_some_iff.mp hrun
  obtain ⟨b, p, hb, hp, ho⟩ := published?_of_drop h
  exact ⟨s₀, b, p, hbefore, hb, hp, run?_preserves published?_act hrun ho⟩

/-! ## 4. Single flight and agreement -/

/-- Single flight and agreement in a run from `start` to `s`. -/
structure SingleFlight (start : Site) (acts : List Act) (s : Site) : Prop where
  /-- A package is in the phase of a build exactly while that build has not settled it. -/
  building : ∀ id n, s.phase? id = some (.building n) ↔ s.Flies id n
  /-- At most one build of a package has not settled it. -/
  unique : ∀ id n m, s.Flies id n → s.Flies id m → n = m
  /-- A build settles its package when the package is in the phase of that very build, which is its
  latest, and no other phase changes with it. -/
  publish : ∀ a s' n o, s.act? a = some s' → s.published? n = none → s'.published? n = some o →
    ∃ b, s.build? n = some b ∧ s.phase? b.package = some (.building n) ∧
      (∀ m b', s.build? m = some b' → b'.package = b.package → m ≤ n) ∧
      s'.phase? = Function.update s.phase? b.package (some (.ofOutcome o))
  /-- What a build has settled its package with never changes. -/
  final : ∀ a s' n o, s.act? a = some s' → s.published? n = some o → s'.published? n = some o
  /-- A build that was dropped has settled its package as aborted. -/
  dropped : ∀ before n rest, acts = before ++ .drop n :: rest →
    ∃ s₀ b p, start.run? before = some s₀ ∧ s₀.build? n = some b ∧
      s₀.package? b.package = some p ∧ s.published? n = some (.error (.aborted p.name))
  /-- No build comes to the overrun of a budget: the overrun that a caller reports is its own. -/
  own : ∀ n o, s.published? n = some o → NoOverrun o
  /-- A caller who gives up changes nothing but its own stage. -/
  giveUp : ∀ i c s' c' t e, s.call? i = some c → c.stage.isCopy = false →
    s.act? (.move i) = some s' → s'.call? i = some c' →
    c'.stage = .answered t (.error (.budget e)) → s' = s.setParty i (.call c')
  /-- Neither does a caller who cancels its budget. -/
  cancel : ∀ i s', s.act? (.cancel i) = some s' →
    ∃ c stage, s.call? i = some c ∧ s' = s.setParty i (.call { c with stage })
  /-- A caller who does not report an overrun has what the package was settled with when it asked,
  or what the build came to that was in flight when it had asked. -/
  answered : ∀ i c t answer, s.call? i = some c → c.wish = .ready → c.stage = .answered t answer →
    IsOverrun answer ∨ ∃ o, Served start acts s i o ∧ answer = o.map .artifact
  /-- So has a caller who goes on to copy the package. -/
  copying : ∀ i c, s.call? i = some c → c.stage.isCopy = true →
    ∃ artifact, Served start acts s i (.ok artifact)
  /-- A caller who asked for a settled package has got what that was settled with. -/
  found : ∀ i c o, s.call? i = some c → c.wish = .ready → Finds start acts i o →
    ∃ t, c.stage = .answered t (o.map .artifact)
  /-- A caller who joined a build waits for it, has reported an overrun, or has got what that build
  came to. -/
  joined : ∀ i c n, s.call? i = some c → c.wish = .ready → Joins start acts i n → Fate n s c
  /-- All callers who joined a build and did not report an overrun have the same answer. -/
  agree : ∀ i j c c' t t' answer answer' n, s.call? i = some c → s.call? j = some c' →
    c.wish = .ready → c'.wish = .ready → Joins start acts i n → Joins start acts j n →
    c.stage = .answered t answer → c'.stage = .answered t' answer' →
    ¬ IsOverrun answer → ¬ IsOverrun answer' → answer = answer'

theorem sound_of_run {epoch : Nat} {tree : FileTree}
    (h : (Site.empty epoch tree).run? acts = some s) : Sound s :=
  run?_preserves (fun hact hs => hs.act hact) h (.empty epoch tree)

theorem Fate.answer {t : Instant} {answer : Except PackageError Gain} (h : Fate n s c)
    (hc : c.stage = .answered t answer) (hover : ¬ IsOverrun answer) :
    ∃ o, s.published? n = some o ∧ answer = o.map .artifact := by
  cases h with
  | waits hn =>
    rw [hc] at hn
    cases hn
  | overrun u e h => exact absurd ⟨e, (CallStage.answered.inj (hc.symm.trans h)).2⟩ hover
  | served u o h ho => exact ⟨o, ho, (CallStage.answered.inj (hc.symm.trans h)).2⟩

/-- Single flight and agreement hold in every run that begins on an empty site. -/
theorem single_flight (epoch : Nat) (tree : FileTree) (acts : List Act) (s : Site)
    (h : (Site.empty epoch tree).run? acts = some s) :
    SingleFlight (.empty epoch tree) acts s := by
  have hs : Sound s := sound_of_run h
  have hpast : ∀ {i c}, s.call? i = some c → Past (.empty epoch tree) acts s i c :=
    past_of_run (fun _ => rfl) h
  refine
    { building := hs.building
      unique := ?_
      publish := ?_
      final := fun _ _ _ _ => published?_act
      dropped := ?_
      own := hs.outcomes
      giveUp := fun _ _ _ _ _ _ hi hcopy h => setParty_of_giveUp hs hi hcopy h
      cancel := fun _ _ => setParty_of_cancel
      answered := fun _ _ t answer hi => (hpast hi).answered t answer
      copying := fun _ _ hi hcopy => ((hpast hi).copies hcopy).2
      found := fun _ _ _ hi hwish hfinds => answered_of_finds h hfinds hi hwish
      joined := fun _ _ _ hi hwish hjoins => fate_of_joins h hjoins hi hwish
      agree := ?_ }
  · intro id n m hn hm
    rw [← hs.building] at hn hm
    exact Phase.building.inj (Option.some.inj (hn.symm.trans hm))
  · intro a s' n o hact hnone ho
    rcases published?_cases hact n with hkeep | ⟨b, o', hb, hopen, -, ho', hphases⟩
    · rw [hkeep, hnone] at ho
      cases ho
    · have hphase : s.phase? b.package = some (.building n) :=
        (hs.building _ _).mpr ⟨b, hb, rfl, hopen⟩
      rw [Option.some.inj (ho.symm.trans ho')]
      exact ⟨b, hb, hphase, fun m b' => hs.latest _ n m b' hphase, hphases⟩
  · rintro before n rest rfl
    exact published?_of_dropped h
  · intro i j c c' t t' answer answer' n hi hj hc hc' hin hjn ht ht' hover hover'
    obtain ⟨o, ho, hanswer⟩ := (fate_of_joins h hin hi hc).answer ht hover
    obtain ⟨o', ho', hanswer'⟩ := (fate_of_joins h hjn hj hc').answer ht' hover'
    rw [hanswer, hanswer', Option.some.inj (ho.symm.trans ho')]

/-- Three callers join one build, which is invalidated and dropped while they wait.  The last of
them cancels its budget before it has an answer. -/
def droppedRun : List Act :=
  let terms : Budget.Terms := ⟨none, false, none⟩
  [.provide fun _ _ => ⟨none, fun t => (.broken, t)⟩, .found "p" "p" 0 .standard,
    .come 0 0 terms .ready, .come 0 0 terms .ready, .come 0 0 terms .ready,
    .move 0, .move 1, .move 2, .move 0, .move 1, .invalidate 0, .move 2,
    .cancel 2, .move 0, .drop 3, .move 2, .move 3, .move 0, .move 1]

theorem single_flight_droppedRun :
    ∃ s, (Site.empty 0 .empty).run? droppedRun = some s ∧
      s.answer? 0 = some (0, .error (.aborted "p")) ∧
      s.answer? 1 = some (0, .error (.aborted "p")) ∧
      s.answer? 2 = some (0, .error (.budget ⟨"package.ensure_ready", 0, true⟩)) ∧
      SingleFlight (.empty 0 .empty) droppedRun s :=
  ⟨_, rfl, rfl, rfl, rfl, single_flight 0 .empty droppedRun _ rfl⟩

end Playground.Site
