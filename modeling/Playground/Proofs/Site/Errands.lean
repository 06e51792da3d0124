import Playground.Proofs.Site.CopyOrders
/-!
# Copies under the locks

A caller that has the locks of its package sets a worker on the copy and waits.  The worker is on its
own from then on: it does not hear of it when its caller leaves.  A caller leaves with what the worker
has come to, and then there is nothing left to be done; or it leaves because its budget has run out,
and only then can the worker be at the files when the locks are free.
-/

namespace Playground

/-- The answer to a caller whose budget has run out while its package was being copied. -/
def IsCopyOverrun (answer : Except PackageError Gain) : Prop :=
  ∃ e : Budget.Exceeded, answer = .error (.budget e) ∧ e.checkpoint = "package.copy"

/-- What a caller is told of the copy that it has ordered, when the worker is done. -/
inductive CopyOrder.Reports (order : CopyOrder) :
    Except FileError Unit → Except PackageError Gain → Prop where
  | copied (copy : PackageId) : Reports order (.ok ()) (.ok (.copied copy))
  | failed (e : FileError) : Reports order (.error e) (.error (.ofFile order.destination e))

/-- How a caller stands to its worker `w`, which has come to `result` so far. -/
inductive CopyOrder.Awaits (order : CopyOrder) (w : PartyId)
    (result : Option (Except FileError Unit)) : CallStage → Prop where
  | waiting (allowance : Budget.Allowance) : Awaits order w result (.copying allowance order w)
  | served (t : Instant) (r : Except FileError Unit) (answer : Except PackageError Gain)
      (hresult : result = some r) (hreports : order.Reports r answer) :
      Awaits order w result (.answered t answer)
  | deserted (t : Instant) (answer : Except PackageError Gain) (h : IsCopyOverrun answer) :
      Awaits order w result (.answered t answer)

theorem Budget.eq_of_poll_lost {b : Budget} {now : Instant} {checkpoint : String} {e : Exceeded}
    {α : Type} {work : Option α} (h : b.poll now checkpoint work = .lost e) :
    e = b.exceeded now checkpoint := by
  unfold poll at h
  split at h
  · exact (Race.lost.inj h).symm
  · split at h
    · cases h
    · split at h
      · exact (Race.lost.inj h).symm
      · cases h

namespace Site

variable {start s s' s₀ s₁ : Site} {a : Act} {acts before middle : List Act} {i w : PartyId}
  {id : PackageId} {c c' : Call} {cw cw' : CopyWork} {p : Package} {order : CopyOrder}

/-! ## 1. Single steps -/

/-- A caller who waits for its worker leaves the files alone.  It goes on when the worker is done, or
when its budget has run out. -/
theorem act?_copying {allowance : Budget.Allowance} (hi : s.call? i = some c)
    (hstage : c.stage = .copying allowance order w) (h : s.act? (.move i) = some s') :
    s'.tree = s.tree ∧ ∃ answer, s'.call? i = some { c with stage := .answered s.now answer } ∧
      ((∃ r, s.copyResult? w = some r ∧ order.Reports r answer) ∨ IsCopyOverrun answer) := by
  have hparty : s.parties[i]? = some (.call c) := call?_eq_some.mp hi
  rw [act?, hparty, Option.bind_some, move?] at h
  obtain ⟨p, -, hmove⟩ := Option.bind_eq_some_iff.mp h
  rw [hstage] at hmove
  dsimp only at hmove
  split at hmove
  · cases hmove
  · rename_i result hwon
    rw [← Option.some.inj hmove]
    have hresult : s.copyResult? w = some result := Budget.of_poll_won hwon
    cases result with
    | error e =>
      exact ⟨rfl, _, call?_of_set hparty rfl, .inl ⟨_, hresult, .failed e⟩⟩
    | ok _ => exact ⟨rfl, _, call?_of_set hparty rfl, .inl ⟨_, hresult, .copied _⟩⟩
  · rename_i e hlost
    rw [← Option.some.inj hmove]
    refine ⟨rfl, _, call?_of_set hparty rfl, .inr ⟨e, rfl, ?_⟩⟩
    rw [Budget.eq_of_poll_lost hlost]
    rfl

theorem act?_answered {t : Instant} {answer : Except PackageError Gain} (hi : s.call? i = some c)
    (hstage : c.stage = .answered t answer) : s.act? (.move i) = none := by
  rw [act?, call?_eq_some.mp hi, Option.bind_some, move?, moveCall?, hstage]
  exact Option.bind_fun_none _

/-- A worker does its work once, all in one act. -/
theorem act?_copyWork (hw : s.copyWork? w = some cw) (h : s.act? (.move w) = some s') :
    cw.result = none ∧
      ∃ r, (FileAction.copyOutside lockName cw.source cw.target).run s.tree = (r, s'.tree) := by
  have hmove : s.moveCopy? w cw = some s' := by
    rwa [act?, copyWork?_eq_some.mp hw, Option.bind_some, move?] at h
  cases hresult : cw.result with
  | some r =>
    rw [moveCopy?, hresult] at hmove
    cases hmove
  | none =>
    cases hrun : (FileAction.copyOutside lockName cw.source cw.target).run s.tree with
    | mk r tree =>
      rw [moveCopy?_of_run hresult hrun] at hmove
      rw [← Option.some.inj hmove]
      exact ⟨rfl, r, rfl⟩

/-- What a worker has come to stays. -/
theorem act?_copyWork? (h : s.act? a = some s') (hw : s.copyWork? w = some cw) :
    ∃ cw', s'.copyWork? w = some cw' ∧ cw'.source = cw.source ∧ cw'.target = cw.target ∧
      ∀ r, cw.result = some r → cw'.result = some r := by
  obtain ⟨cw', hw', hsource, htarget⟩ := (act?_works h).copyWork? hw
  refine ⟨cw', hw', hsource, htarget, fun r hr => ?_⟩
  cases act?_works h with
  | keep hworks =>
    obtain rfl := Option.some.inj ((hworks ▸ hw).symm.trans hw')
    exact hr
  | enter new _ hworks =>
    rw [hworks, Function.update_apply] at hw'
    split at hw'
    · rename_i hnew
      cases (hnew ▸ hw).symm.trans (look_of_length_le _ (Nat.le_refl _))
    · exact Option.some.inj (hw.symm.trans hw') ▸ hr
  | done j old result ha hj _ hworks =>
    rw [hworks, Function.update_apply] at hw'
    split at hw'
    · -- a worker that is done does not go to work again
      rename_i hwj
      subst hwj ha
      cases (act?_copyWork hw h).1.symm.trans hr
    · exact Option.some.inj (hw.symm.trans hw') ▸ hr

theorem act?_none_of_result {r : Except FileError Unit} (hw : s.copyWork? w = some cw)
    (hr : cw.result = some r) : s.act? (.move w) = none := by
  cases h : s.act? (.move w) with
  | none => rfl
  | some s' => cases (act?_copyWork hw h).1.symm.trans hr

/-! ## 2. Errands -/

/-- In a run, caller `i` gets the locks of package `id` in state `s₀` and has worker `w` copy it. -/
structure Commissions (start : Site) (before : List Act) (i w : PartyId) (id : PackageId)
    (order : CopyOrder) (s₀ s₁ : Site) : Prop where
  starts : StartsCopy start before i id s₀ s₁
  caller : ∃ c allowance, s₁.call? i = some c ∧ c.stage = .copying allowance order w
  worker : ∃ p, s₁.package? id = some p ∧ s₁.copyWork? w = some ⟨p.directory, order.destination, none⟩

/-- Caller `c` has had worker `w` copy its package, and has come thus far. -/
structure Errand (s : Site) (i w : PartyId) (id : PackageId) (order : CopyOrder) (c : Call)
    (cw : CopyWork) (p : Package) : Prop where
  caller : s.call? i = some c
  worker : s.copyWork? w = some cw
  package : s.package? id = some p
  isFor : c.package = id
  source : cw.source = p.directory
  target : cw.target = order.destination
  awaits : order.Awaits w cw.result c.stage

theorem Commissions.errand (h : Commissions start before i w id order s₀ s₁) :
    ∃ c cw p, Errand s₁ i w id order c cw p := by
  obtain ⟨c, hi, hid, -⟩ := h.starts.new
  obtain ⟨c', allowance, hi', hstage⟩ := h.caller
  obtain rfl := Option.some.inj (hi.symm.trans hi')
  obtain ⟨p, hp, hw⟩ := h.worker
  exact ⟨c, _, p, hi, hw, hp, hid, rfl, rfl, hstage ▸ .waiting allowance⟩

/-- Every worker has been set to work by a caller. -/
theorem commissions_of_run {epoch : Nat} {tree : FileTree}
    (hrun : (Site.empty epoch tree).run? acts = some s) (hw : s.copyWork? w = some cw) :
    ∃ before i middle id order s₀ s₁, acts = before ++ .move i :: middle ∧
      Commissions (.empty epoch tree) before i w id order s₀ s₁ := by
  refine run?_induction (P := fun acts s => ∀ {cw}, s.copyWork? w = some cw →
    ∃ before i middle id order s₀ s₁, acts = before ++ .move i :: middle ∧
      Commissions (.empty epoch tree) before i w id order s₀ s₁) (fun hw => ?_)
    (fun {acts s a s'} hbefore h ih cw hw => ?_) hrun hw
  · cases hw
  · -- a worker that was there before has its commission by induction
    have hkeep : ∀ {cw}, s.copyWork? w = some cw → ∃ before i middle id order s₀ s₁,
        acts ++ [a] = before ++ .move i :: middle ∧
          Commissions (.empty epoch tree) before i w id order s₀ s₁ := by
      intro cw hw
      obtain ⟨before, i, middle, id, order, s₀, s₁, rfl, hcommissions⟩ := ih hw
      exact ⟨before, i, middle ++ [a], id, order, s₀, s₁, by simp, hcommissions⟩
    cases act?_works h with
    | keep hworks => exact hkeep (hworks ▸ hw)
    | done j old result _ hj _ hworks =>
      rw [hworks, Function.update_apply] at hw
      split at hw
      · rename_i hwj
        exact hkeep (hwj ▸ hj)
      · exact hkeep hw
    | enter new _ hworks hhires =>
      have hnew := hw
      rw [hworks, Function.update_apply] at hw
      split at hw
      · obtain ⟨i, c, order, rfl, hhires⟩ := hhires
        rename_i hlast
        subst hlast
        obtain ⟨allowance, hi⟩ := hhires.new
        obtain ⟨p, hp, rfl⟩ := hhires.work
        obtain ⟨p', hp', hfounded⟩ := package?_founded (act?_founded h) hp
        obtain ⟨hdirectory, -⟩ := Package.kept_of_asFounded hfounded
        obtain ⟨old, grip, hgripping⟩ := hhires.gripping
        refine ⟨acts, i, [], c.package, order, s, s', rfl,
          ⟨hbefore, h, ⟨c, hhires.old, rfl, old, order, grip, hgripping⟩, ?_⟩, ?_, p', hp', ?_⟩
        · exact ⟨_, hi, rfl, allowance, order, _, rfl⟩
        · exact ⟨_, allowance, hi, rfl⟩
        · rw [hnew, ← Option.some.inj hw, hdirectory]
      · exact hkeep hw

end Site

namespace CopyOrder.Awaits

variable {order : CopyOrder} {w : PartyId} {result result' : Option (Except FileError Unit)}
  {stage : CallStage}

theorem cancel (h : order.Awaits w result stage) (allowance : Budget.Allowance) :
    order.Awaits w result (stage.withAllowance allowance) := by
  cases h with
  | waiting => exact .waiting allowance
  | served t r answer hresult hreports => exact .served t r answer hresult hreports
  | deserted t answer h => exact .deserted t answer h

theorem mono (hmono : ∀ r, result = some r → result' = some r) (h : order.Awaits w result stage) :
    order.Awaits w result' stage := by
  cases h with
  | waiting allowance => exact .waiting allowance
  | served t r answer hresult hreports => exact .served t r answer (hmono r hresult) hreports
  | deserted t answer h => exact .deserted t answer h

end CopyOrder.Awaits

namespace Site

variable {start s s' s₀ s₁ : Site} {a : Act} {acts before middle : List Act} {i w : PartyId}
  {id : PackageId} {c : Call} {cw : CopyWork} {p : Package} {order : CopyOrder}

/-- The caller waits for its worker. -/
def Attends (c : Call) (order : CopyOrder) (w : PartyId) : Prop :=
  ∃ allowance, c.stage = .copying allowance order w

namespace Errand

/-- Whatever happens, a caller who has set a worker to work waits for it, is served by it, or leaves
it because its budget has run out. -/
theorem act (he : Errand s i w id order c cw p) (h : s.act? a = some s') :
    ∃ c' cw' p', Errand s' i w id order c' cw' p' ∧ (Attends c' order w → Attends c order w) := by
  obtain ⟨c', hi', hchange⟩ := (act?_calls h).old i c he.caller
  obtain ⟨cw', hw', hsource, htarget, hresult⟩ := act?_copyWork? h he.worker
  obtain ⟨p', hp', hfounded⟩ := package?_founded (act?_founded h) he.package
  obtain ⟨hdirectory, -⟩ := Package.kept_of_asFounded hfounded
  have hnext : ∀ {c'}, s'.call? i = some c' → c'.package = id →
      order.Awaits w cw'.result c'.stage → Errand s' i w id order c' cw' p' := fun hi' hid hawaits =>
    ⟨hi', hw', hp', hid, by rw [hsource, he.source, hdirectory], htarget.trans he.target, hawaits⟩
  -- only a turn of its own takes the caller off the stage at which it waits
  cases hchange with
  | keep => exact ⟨c, cw', p', hnext hi' he.isFor (he.awaits.mono hresult), fun h => h⟩
  | cancel allowance =>
    refine ⟨_, cw', p', hnext hi' he.isFor ((he.awaits.mono hresult).cancel allowance), ?_⟩
    rintro ⟨allowance', hstage⟩
    exact CallStage.withAllowance_eq_copying hstage
  | move stage ha =>
    subst ha
    have hawaits := he.awaits
    generalize hstage : c.stage = old at hawaits
    cases hawaits with
    | waiting allowance =>
      obtain ⟨-, answer, hcall, hgain⟩ := act?_copying he.caller hstage h
      refine ⟨_, cw', p', hnext hcall he.isFor ?_, fun _ => ⟨allowance, hstage⟩⟩
      rcases hgain with ⟨r, hr, hreports⟩ | hoverrun
      · obtain ⟨cw₀, hw₀, hr⟩ := copyResult?_eq_some hr
        obtain rfl := Option.some.inj (he.worker.symm.trans hw₀)
        exact .served s.now r answer (hresult r hr) hreports
      · exact .deserted s.now answer hoverrun
    | served t r answer => cases (act?_answered he.caller hstage).symm.trans h
    | deserted t answer => cases (act?_answered he.caller hstage).symm.trans h

/-- A caller who waits for its worker has both locks. -/
theorem inside (he : Errand s i w id order c cw p) (hwaits : Attends c order w) :
    s.standing? i = some (.inside id) := by
  obtain ⟨allowance, hstage⟩ := hwaits
  rw [standing?_of_party (call?_eq_some.mp he.caller), Party.standing?, hstage, ← he.isFor]
  rfl

/-- As long as the caller waits for its worker, no build of the package does anything. -/
theorem of_run (hc : Custody s₁) (he : ∃ c cw p, Errand s₁ i w id order c cw p)
    (hrun : s₁.run? middle = some s) : ∃ c cw p, Errand s i w id order c cw p ∧
      (Attends c order w → ∀ d ∈ s₁.deeds middle, d.package ≠ id) := by
  refine run?_induction (P := fun middle s => ∃ c cw p, Errand s i w id order c cw p ∧
    (Attends c order w → ∀ d ∈ s₁.deeds middle, d.package ≠ id)) ?_
    (fun {middle s₂ a s} hmiddle h ih => ?_) hrun
  · obtain ⟨c, cw, p, he⟩ := he
    exact ⟨c, cw, p, he, fun _ d hd => by cases hd⟩
  · obtain ⟨c, cw, p, he, hquiet⟩ := ih
    obtain ⟨c', cw', p', he', hwaited⟩ := he.act h
    refine ⟨c', cw', p', he', fun hwaits => ?_⟩
    have hc₂ : Custody s₂ := run?_preserves (fun hact hs => hs.act hact) hmiddle hc
    rw [deeds_concat hmiddle h]
    intro d hd
    rcases List.mem_append.mp hd with hd | hd
    · exact hquiet (hwaited hwaits) d hd
    · obtain ⟨allowance, hstage⟩ := hwaited hwaits
      exact he.isFor ▸ hc₂.package_ne_of_deed he.caller hstage h (Option.mem_toList.mp hd)

end Errand

/-! ## 3. Work under the locks -/

/-- What holds of an errand that began in state `s₁`, after the acts in `middle`. -/
structure UnderLocks (s₁ : Site) (middle : List Act) (s : Site) (i w : PartyId) (id : PackageId)
    (order : CopyOrder) (c : Call) (cw : CopyWork) (p : Package) : Prop where
  errand : Errand s i w id order c cw p
  /-- While the caller waits for its worker, it has both locks of the package. -/
  locks : Attends c order w → s.Has i id ∧ ∀ j, s.standing? j = some (.inside id) → j = i
  /-- No build of the package has done anything meanwhile, and none can now. -/
  alone : Attends c order w → (∀ d ∈ s₁.deeds middle, d.package ≠ id) ∧
    ∀ a s' d, s.act? a = some s' → s.deed? s' a = some d → d.package ≠ id
  /-- The worker copies the directory of the package in one act, and that act comes while the caller
  waits for it, or after the budget of the caller has run out. -/
  work : ∀ s', s.act? (.move w) = some s' →
    (∃ r, (FileAction.copyOutside lockName p.directory order.destination).run s.tree =
      (r, s'.tree)) ∧
    (Attends c order w ∨ ∃ t answer, c.stage = .answered t answer ∧ IsCopyOverrun answer)
  /-- The caller leaves the files to its worker. -/
  idle : ∀ s', s.act? (.move i) = some s' → s'.tree = s.tree
  /-- Once the caller has any other answer, the worker is done for good. -/
  finished : ∀ t answer, c.stage = .answered t answer → ¬ IsCopyOverrun answer →
    ∀ rest s', s.run? rest = some s' → s'.act? (.move w) = none

theorem Errand.underLocks (hc : Custody s) (he : Errand s i w id order c cw p)
    (hquiet : Attends c order w → ∀ d ∈ s₁.deeds middle, d.package ≠ id) :
    UnderLocks s₁ middle s i w id order c cw p where
  errand := he
  locks hwaits := by
    have hinside := he.inside hwaits
    exact ⟨hc.has_of_inside hinside, fun j hj =>
      (hc.leads_inside hj).unique (hc.leads_inside hinside)⟩
  alone hwaits := by
    refine ⟨hquiet hwaits, fun a s' d h hd => ?_⟩
    obtain ⟨allowance, hstage⟩ := hwaits
    exact he.isFor ▸ hc.package_ne_of_deed he.caller hstage h hd
  work s' h := by
    obtain ⟨hnone, r, hrun⟩ := act?_copyWork he.worker h
    rw [he.source, he.target] at hrun
    refine ⟨⟨r, hrun⟩, ?_⟩
    have hawaits := he.awaits
    generalize hstage : c.stage = stage at hawaits
    cases hawaits with
    | waiting allowance => exact .inl ⟨allowance, hstage⟩
    | served t r answer hresult => cases hnone.symm.trans hresult
    | deserted t answer hoverrun => exact .inr ⟨t, answer, rfl, hoverrun⟩
  idle s' h := by
    have hawaits := he.awaits
    generalize hstage : c.stage = stage at hawaits
    cases hawaits with
    | waiting allowance => exact (act?_copying he.caller hstage h).1
    | served t r answer => cases (act?_answered he.caller hstage).symm.trans h
    | deserted t answer => cases (act?_answered he.caller hstage).symm.trans h
  finished t answer hstage hother rest s' hrest := by
    have hawaits := he.awaits
    rw [hstage] at hawaits
    cases hawaits with
    | deserted _ _ hoverrun => exact absurd hoverrun hother
    | served _ r _ hresult =>
      -- the worker has come to its end, and workers stay at it
      have hdone : ∃ cw, s'.copyWork? w = some cw ∧ cw.result = some r := by
        refine run?_preserves (P := fun s => ∃ cw, s.copyWork? w = some cw ∧ cw.result = some r)
          ?_ hrest ⟨cw, he.worker, hresult⟩
        rintro s a s' h ⟨cw, hw, hr⟩
        obtain ⟨cw', hw', -, -, hkept⟩ := act?_copyWork? h hw
        exact ⟨cw', hw', hkept r hr⟩
      obtain ⟨cw', hw', hr⟩ := hdone
      exact act?_none_of_result hw' hr

/-- Who copies in a run, and when. -/
structure CopyDiscipline (start : Site) (acts : List Act) (s : Site) : Prop where
  /-- Every worker has been set to work by a caller that had got its locks. -/
  hired : ∀ w cw, s.copyWork? w = some cw → ∃ before i middle id order s₀ s₁,
    acts = before ++ .move i :: middle ∧ Commissions start before i w id order s₀ s₁
  kept : ∀ before i middle w id order s₀ s₁, acts = before ++ .move i :: middle →
    Commissions start before i w id order s₀ s₁ → ∃ c cw p, UnderLocks s₁ middle s i w id order c cw p

/-- A caller has got the locks of its package, and its worker has not begun. -/
def hiringRun : List Act :=
  fickleRun ++ [.move 0, .move 0, .move 0, .move 0]

/-- The caller cancels its budget while its worker has not begun.  Then the package is invalidated,
and the next build calls the builder, which takes its time. -/
def desertedCopyRun : List Act :=
  let builder : Builder := fun n _ => ⟨if n = 0 then some 0 else none, fun t => (.built "app", t)⟩
  [.provide builder, .edit (FileTree.empty.put ["work", "p"] .directory),
    .found "p" "p" 0 ⟨.throttled 0, Clock.seconds 1⟩,
    .come 0 0 ⟨none, false, none⟩ (.copy ⟨"c", "c"⟩), .move 0, .move 0,
    .move 1, .move 1, .move 1, .move 1, .move 1, .move 1, .move 1, .move 1, .move 1, .move 1,
    .move 1, .move 0, .move 0, .move 0, .move 0, .move 0,
    .cancel 0, .move 0, .invalidate 0, .come 0 0 ⟨none, false, none⟩ .ready, .move 3, .move 3,
    .move 4, .move 4, .move 4, .move 4, .move 4, .move 4, .move 4]

end Site

end Playground
