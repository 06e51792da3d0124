import Mathlib.Data.List.Perm.Subperm
import Playground.Proofs.Hub.Pipeline
import Playground.Proofs.Queue
/-!
# Slots for programs

A service runs as many programs at a time as it has slots.  Who has a slot or waits for one is read
off the stages of the jobs: a job that is to run a program gets in line when it begins, has a slot
once it is past the line, and gives up what it has when it is over, however that comes about.
-/

namespace Playground

/-- Whether a job is at work on a program for a service. -/
def Job.runsAt (k : ServiceId) (job : Job) : Bool :=
  job.operation == .build .run &&
    match job.stage with
    | .active service _ _ => service == k
    | _ => false

/-- Whether the program of a job is running for a service. -/
def Job.executesAt (k : ServiceId) (job : Job) : Bool :=
  match job.stage with
  | .active service _ (.running ..) => service == k
  | _ => false

/-- Whether a job at work has got through the line for a slot. -/
def JobStage.isPastLine : JobStage → Bool
  | active _ _ .queued => false
  | active .. => true
  | _ => false

namespace Hub

variable {h h' h₀ h₁ : Hub} {m : HubAct} {acts : List HubAct} {i j : JobId} {op : Operation}
  {r : Request} {job : Job} {jobs : List Job} {k service : ServiceId} {s : Service} {b : Budget}
  {a : Budget.Allowance} {work : Work} {noted : List String} {calls : List CompilerCall}
  {progress : Progress} {site : Site} {stage : JobStage} {slots : Slots} {n : Nat}
  {terms : Budget.Terms} {t : Instant}

/-! ## 1. Slots and stages -/

/-- Who has a slot of service `k`, or waits for one, is at work on a program there; and who is past
the line has a slot. -/
structure Agrees (jobs : List Job) (k : ServiceId) (slots : Slots) : Prop where
  kept : slots.Kept
  line : ∀ i, i ∈ slots.line ↔ ∃ job, jobs[i]? = some job ∧ job.runsAt k = true
  holders : ∀ i job, jobs[i]? = some job → job.runsAt k = true → job.stage.isPastLine = true →
    i ∈ slots.holders

namespace Agrees

theorem not_mem (hagrees : Agrees jobs k slots) (hi : jobs[i]? = some job)
    (hout : job.runsAt k = false) : i ∉ slots.line := by
  intro hmem
  obtain ⟨job', hi', hat⟩ := (hagrees.line i).mp hmem
  obtain rfl := Option.some.inj (hi'.symm.trans hi)
  rw [hout] at hat
  cases hat

theorem getElem?_place (hi : jobs[i]? = some job) (stage : JobStage) (j : JobId) :
    (jobs.modify i fun job => { job with stage })[j]? =
      if i = j then some { job with stage } else jobs[j]? := by
  rw [List.getElem?_modify]
  split
  · rename_i hij
    rw [← hij, hi]
    rfl
  · exact Option.map_id'

/-- A job changes its stage, and the slots follow.  Nobody else notices. -/
theorem of_place {slots' : Slots} (hagrees : Agrees jobs k slots) (hi : jobs[i]? = some job)
    (hkept : slots'.Kept)
    (hline : i ∈ slots'.line ↔ ({ job with stage } : Job).runsAt k = true)
    (hslot : ({ job with stage } : Job).runsAt k = true → stage.isPastLine = true →
      i ∈ slots'.holders)
    (hothers : ∀ j, i ≠ j → (j ∈ slots'.line ↔ j ∈ slots.line) ∧
      (j ∈ slots.holders → j ∈ slots'.holders)) :
    Agrees (jobs.modify i fun job => { job with stage }) k slots' where
  kept := hkept
  line j := by
    rw [getElem?_place hi]
    split
    · rename_i hij
      rw [← hij, hline]
      exact ⟨fun hat => ⟨_, rfl, hat⟩, fun ⟨_, hj, hat⟩ => Option.some.inj hj ▸ hat⟩
    · rename_i hij
      exact (hothers j hij).1.trans (hagrees.line j)
  holders j job' hj hruns hpast := by
    rw [getElem?_place hi] at hj
    split at hj
    · rename_i hij
      obtain rfl := Option.some.inj hj
      exact hij ▸ hslot hruns hpast
    · rename_i hij
      exact (hothers j hij).2 (hagrees.holders j job' hj hruns hpast)

/-- A job goes on, and needs no other slot than it has. -/
theorem keep (hagrees : Agrees jobs k slots) (hi : jobs[i]? = some job)
    (hat : ({ job with stage } : Job).runsAt k = job.runsAt k)
    (hslot : ({ job with stage } : Job).runsAt k = true → stage.isPastLine = true →
      i ∈ slots.holders) :
    Agrees (jobs.modify i fun job => { job with stage }) k slots := by
  refine hagrees.of_place hi hagrees.kept ?_ hslot fun _ _ => ⟨Iff.rfl, id⟩
  rw [hagrees.line, hi, hat]
  exact ⟨fun ⟨_, hj, hruns⟩ => Option.some.inj hj ▸ hruns, fun hruns => ⟨_, rfl, hruns⟩⟩

/-- A job begins, and gets in line. -/
theorem enter (hagrees : Agrees jobs k slots) (hi : jobs[i]? = some job)
    (hout : job.runsAt k = false) (hat : ({ job with stage } : Job).runsAt k = true)
    (hslot : stage.isPastLine = false) :
    Agrees (jobs.modify i fun job => { job with stage }) k (slots.enter i) := by
  refine hagrees.of_place hi (hagrees.kept.enter (hagrees.not_mem hi hout)) ?_ ?_ fun j hij => ?_
  · exact iff_of_true (Slots.Kept.mem_line_enter.mpr (.inr rfl)) hat
  · intro _ hpast
    cases hslot.symm.trans hpast
  · exact ⟨Slots.Kept.mem_line_enter.trans (or_iff_left (Ne.symm hij)), Slots.Kept.mem_holders_enter⟩

/-- A job is over, and gives up what it has. -/
theorem leave (hagrees : Agrees jobs k slots) (hi : jobs[i]? = some job)
    (hout : ({ job with stage } : Job).runsAt k = false) :
    Agrees (jobs.modify i fun job => { job with stage }) k (slots.leave i) := by
  have hmem := fun j => Slots.Kept.mem_line_leave (j := j) (i := i) hagrees.kept
  refine hagrees.of_place hi (hagrees.kept.leave i) ?_ ?_ fun j hij => ?_
  · exact iff_of_false (fun h => ((hmem i).mp h).2 rfl) (ne_true_of_eq_false hout)
  · intro hruns
    cases hout.symm.trans hruns
  · exact ⟨(hmem j).trans (and_iff_left (Ne.symm hij)),
      fun hj => Slots.Kept.mem_holders_leave hj (Ne.symm hij)⟩

theorem append (hagrees : Agrees jobs k slots) (hout : job.runsAt k = false) :
    Agrees (jobs ++ [job]) k slots where
  kept := hagrees.kept
  line j := by
    rw [hagrees.line, Site.getElem?_concat]
    split
    · rename_i hj
      subst hj
      simp [hout]
    · exact Iff.rfl
  holders j job' hj hruns hpast := by
    rw [Site.getElem?_concat] at hj
    split at hj
    · obtain rfl := Option.some.inj hj
      rw [hout] at hruns
      cases hruns
    · exact hagrees.holders j job' hj hruns hpast

end Agrees

/-! ## 2. Moves -/

/-- Service `k` has that many slots, and they agree with the stages of the jobs. -/
def Serves (h : Hub) (k : ServiceId) (n : Nat) : Prop :=
  ∃ s, h.services[k]? = some s ∧ s.slots.capacity = n ∧ Agrees h.jobs k s.slots

theorem services_updateSlots (service : ServiceId) (hs : h.services[k]? = some s) (change : Slots → Slots) :
    (h.updateSlots service change).services[k]? =
      some (if service = k then { s with slots := change s.slots } else s) := by
  rw [updateSlots, List.getElem?_modify, hs]
  rfl

/-- A job that is not at work on a program of the service gives up what it may have there. -/
theorem Serves.leave (hserves : h.Serves k n) (hi : h.jobs[i]? = some job)
    (hout : ({ job with stage } : Job).runsAt k = false)
    (hother : service ≠ k → job.runsAt k = false) :
    ((h.updateSlots service (·.leave i)).place i stage).Serves k n := by
  obtain ⟨s, hs, hcapacity, hagrees⟩ := hserves
  refine ⟨_, services_updateSlots service hs (·.leave i), ?_⟩
  by_cases hk : service = k
  · rw [if_pos hk]
    exact ⟨hcapacity, hagrees.leave hi hout⟩
  · rw [if_neg hk]
    refine ⟨hcapacity, hagrees.keep hi (hout.trans (hother hk).symm) fun hruns => ?_⟩
    rw [hout] at hruns
    cases hruns

/-- Work that goes on has got through the line. -/
theorem Turn.held {b' : Budget} {work' : Work}
    (hturn : h.Turn i op r s b work site noted calls (.go b' work')) (hqueued : work = .queued) :
    i ∈ s.slots.holders := by
  subst hqueued
  cases hturn with
  | slot hheld => exact Slots.mem_holders_of_isHeldBy hheld

theorem runsAt_eq_false (hstage : ∀ a work, job.stage ≠ .active k a work) :
    job.runsAt k = false := by
  rw [Job.runsAt, Bool.and_eq_false_iff]
  right
  split
  · rename_i service a work heq
    refine beq_eq_false_iff_ne.mpr fun hservice => ?_
    exact hstage a work (hservice ▸ heq)
  · rfl

theorem runsAt_coming (hstage : job.stage = .coming) : job.runsAt k = false := by
  rw [Job.runsAt, hstage]
  exact Bool.and_false _

theorem Serves.settle (hserves : h.Serves k n) (hi : h.jobs[i]? = some job)
    (hstage : job.stage = .active service a work) (hs : h.services[service]? = some s)
    (hturn : h.Turn i op r s a.budget work site noted calls progress) :
    ((h.asking service i site calls).settle i job service a progress).Serves k n := by
  have hserves' : (h.asking service i site calls).Serves k n := hserves
  have hother : service ≠ k → job.runsAt k = false := by
    intro hne
    refine runsAt_eq_false fun a work heq => ?_
    exact hne (JobStage.active.inj (hstage.symm.trans heq)).1
  cases progress with
  | go budget work' =>
    obtain ⟨s', hs', hcapacity, hagrees⟩ := hserves
    have hsame : ∀ a' work', ({ job with stage := .active service a' work' } : Job).runsAt k =
        job.runsAt k := by
      intro a' work'
      rw [Job.runsAt, Job.runsAt, hstage]
    refine ⟨s', hs', hcapacity, hagrees.keep hi (hsame _ _) fun hruns _ => ?_⟩
    rw [hsame] at hruns
    -- the line has been passed now, or before
    by_cases hqueued : work = .queued
    · have hk : service = k := by
        by_contra hne
        rw [hother hne] at hruns
        cases hruns
      subst hk
      obtain rfl := Option.some.inj (hs.symm.trans hs')
      exact hturn.held hqueued
    · refine hagrees.holders i job hi hruns ?_
      rw [hstage]
      cases work with
      | queued => exact absurd rfl hqueued
      | _ => rfl
  | done budget reply => exact hserves'.leave hi (Bool.and_false _) hother
  | failed budget e => exact hserves'.leave hi (Bool.and_false _) hother
  | broken => exact hserves'.leave hi (Bool.and_false _) hother

theorem Serves.startJob (hserves : h.Serves k n) (hi : h.jobs[i]? = some job)
    (hstage : job.stage = .coming) : (h.startJob i job service a).Serves k n := by
  have hout : job.runsAt k = false := runsAt_coming hstage
  have hstarts := h.startJob_starts i job service a
  generalize h.startJob i job service a = h' at hstarts ⊢
  cases hstarts with
  | refuse => exact hserves.leave hi (Bool.and_false _) fun _ => hout
  | queue hop _ =>
    obtain ⟨s, hs, hcapacity, hagrees⟩ := hserves
    refine ⟨_, services_updateSlots service hs (·.enter i), ?_⟩
    by_cases hk : service = k
    · rw [if_pos hk]
      refine ⟨(Slots.Kept.capacity_enter _ _).trans hcapacity, hagrees.enter hi hout ?_ rfl⟩
      rw [Job.runsAt, hop, hk]
      simp
    · rw [if_neg hk]
      have hnone : ({ job with stage := .active service a .queued } : Job).runsAt k = false := by
        refine runsAt_eq_false fun a' work' heq => ?_
        exact hk (JobStage.active.inj heq).1
      refine ⟨hcapacity, hagrees.keep hi (hnone.trans hout.symm) fun _ hpast => ?_⟩
      cases hpast
  | prepare hop =>
    obtain ⟨s, hs, hcapacity, hagrees⟩ := hserves
    have hnone : ({ job with stage := .active service a .preparing } : Job).runsAt k = false := by
      rw [Job.runsAt, Bool.and_eq_false_iff]
      exact .inl (beq_eq_false_iff_ne.mpr hop)
    refine ⟨s, hs, hcapacity, hagrees.keep hi (hnone.trans hout.symm) fun hruns => ?_⟩
    rw [hnone] at hruns
    cases hruns

theorem Serves.enroll (hserves : h.Serves k n) (hstage : job.stage = .coming) :
    (h.enroll [job]).1.Serves k n := by
  obtain ⟨s, hs, hcapacity, hagrees⟩ := hserves
  exact ⟨s, hs, hcapacity, hagrees.append (runsAt_coming hstage)⟩

theorem Serves.engage? (hserves : h.Serves k n)
    (hcall : h.engage? service op r terms a = some h') : h'.Serves k n := by
  obtain ⟨_, -, rfl⟩ := Option.map_eq_some_iff.mp hcall
  exact (hserves.enroll rfl).startJob List.getElem?_concat_length rfl

theorem Serves.move (hserves : h.Serves k n) (hi : h.jobs[i]? = some job)
    (hmove : h.moveJob? i job = some h') : h'.Serves k n := by
  cases moveJob?_jobTurn hmove with
  | start service hstage => exact hserves.startJob hi hstage
  | turnAway hstage =>
    obtain ⟨s, hs, hcapacity, hagrees⟩ := hserves
    have hout : job.runsAt k = false := runsAt_coming hstage
    refine ⟨s, hs, hcapacity, hagrees.keep hi ?_ fun _ hpast => by cases hpast⟩
    exact (Bool.and_false _).trans hout.symm
  | work service s a work h₁ progress hstage hs hproceed =>
    obtain ⟨site, noted, calls, rfl, hturn⟩ := takes_proceed? hproceed
    exact hserves.settle hi hstage hs hturn

/-- A job whose budget is cancelled stays where it is. -/
theorem Serves.cancel (hserves : h.Serves k n) (hi : h.jobs[i]? = some job)
    (hstage : job.stage = .active service a work) :
    (h.place i (.active service { a with budget := a.budget.cancel } work)).Serves k n := by
  obtain ⟨s, hs, hcapacity, hagrees⟩ := hserves
  refine ⟨s, hs, hcapacity, hagrees.keep hi ?_ fun hruns hpast => ?_⟩
  · rw [Job.runsAt, Job.runsAt, hstage]
  · refine hagrees.holders i job hi ?_ ?_
    · rw [Job.runsAt, hstage]
      exact hruns
    · rw [hstage]
      cases work with
      | queued => cases hpast
      | _ => rfl

/-- No act takes a slot away from those who have one, or gives it to somebody else. -/
theorem Serves.act (hserves : h.Serves k n) (hact : h.act? m = some h') : h'.Serves k n := by
  cases act?_turn hact with
  | move i job hi hmove => exact hserves.move hi hmove
  | cancel i job service a work hi hstage => exact hserves.cancel hi hstage
  | come => exact hserves.enroll rfl
  | call service op r terms hcall => exact hserves.engage? hcall
  | employ s' =>
    obtain ⟨s, hs, hcapacity, hagrees⟩ := hserves
    refine ⟨s, ?_, hcapacity, hagrees⟩
    show (h.services ++ [s'])[k]? = some s
    rw [List.getElem?_append_left (List.getElem?_eq_some_iff.mp hs).1, hs]
  | list => exact hserves
  | site => exact hserves

/-- A new service has all its slots free. -/
theorem serves_register (hs : Sound h) (language : Language) (compiler : Compiler)
    (permits : Nat) :
    (h.register ⟨language, compiler, .ofPermits permits⟩).1.Serves h.services.length
      (max 1 permits) := by
  have hnone : ∀ (i : JobId) (job : Job), h.jobs[i]? = some job →
      job.runsAt h.services.length = false := by
    intro i job hi
    have hvalid := hs.jobs i job hi
    refine runsAt_eq_false fun a work hstage => ?_
    rw [hstage] at hvalid
    cases hvalid with
    | active _ _ _ hservice =>
      obtain ⟨s, hservice⟩ := hservice
      exact absurd (List.getElem?_eq_some_iff.mp hservice).1 (Nat.lt_irrefl _)
  refine ⟨_, List.getElem?_concat_length, rfl, Slots.kept_ofPermits permits, fun i => ?_, ?_⟩
  · refine iff_of_false List.not_mem_nil fun hruns => ?_
    obtain ⟨job, hi, hat⟩ := hruns
    rw [hnone i job hi] at hat
    cases hat
  · intro i job hi hruns
    rw [hnone i job hi] at hruns
    cases hruns

/-! ## 3. Slots in every run -/

/-- The jobs on the list of which something is so. -/
def jobsThat (h : Hub) (p : Job → Bool) : List JobId :=
  (List.range h.jobs.length).filter fun i => h.jobs[i]?.any p

theorem mem_jobsThat {p : Job → Bool} :
    i ∈ h.jobsThat p ↔ ∃ job, h.jobs[i]? = some job ∧ p job = true := by
  rw [jobsThat, List.mem_filter, Option.any_eq_true]
  refine and_iff_right_of_imp fun ⟨job, hi, _⟩ => ?_
  exact List.mem_range.mpr (List.getElem?_eq_some_iff.mp hi).1

/-- Jobs that all have a slot are no more than there are slots. -/
theorem length_jobsThat_le {p : Job → Bool} (hkept : slots.Kept)
    (hp : ∀ i job, h.jobs[i]? = some job → p job = true → i ∈ slots.holders) :
    (h.jobsThat p).length ≤ slots.capacity := by
  have hnodup : (h.jobsThat p).Nodup := List.nodup_range.filter _
  have hsubset : h.jobsThat p ⊆ slots.holders := by
    intro i hi
    obtain ⟨job, hjob, htrue⟩ := mem_jobsThat.mp hi
    exact hp i job hjob htrue
  exact (List.subperm_of_subset hnodup hsubset).length_le.trans hkept.bound

/-- The slots of service `k` at a moment of a run, if it was made with `permits`. -/
structure Permits (h : Hub) (k : ServiceId) (permits : Nat) (slots : Slots) : Prop where
  /-- Slots that are free and slots that are held are all there are. -/
  conserved : slots.available + slots.holders.length = max 1 permits
  /-- At most as many jobs as that have got a slot and are not over. -/
  past : (h.jobsThat fun job => job.runsAt k && job.stage.isPastLine).length ≤ max 1 permits
  /-- Nor have more programs been started that have not come to an end. -/
  programs : (h.jobsThat (Job.executesAt k)).length ≤ max 1 permits
  /-- Nobody has a slot or waits for one, or both, twice. -/
  once : (slots.holders ++ slots.queue).Nodup
  /-- Only jobs at work on a program have a slot or wait for one. -/
  owners : ∀ i, i ∈ slots.holders ++ slots.queue ↔
    ∃ job, h.jobs[i]? = some job ∧ job.runsAt k = true
  held : ∀ i job, h.jobs[i]? = some job → job.runsAt k = true → job.stage.isPastLine = true →
    i ∈ slots.holders
  /-- While somebody waits, no slot is free. -/
  waiting : slots.queue ≠ [] → slots.available = 0
  /-- Whoever calls with a budget that has run out is refused, and leaves all slots as they are. -/
  refused : ∀ r terms a h', a.budget.isExceeded h.now = true →
    h.engage? k (.build .run) r terms a = some h' →
    h'.Overran h.jobs.length (.build .run) r ∧ (h'.services[k]?).map (·.slots) = some slots

theorem not_mem_of_lt (hagrees : Agrees h.jobs k slots) : h.jobs.length ∉ slots.line := by
  intro hmem
  obtain ⟨job, hi, -⟩ := (hagrees.line _).mp hmem
  exact absurd (List.getElem?_eq_some_iff.mp hi).1 (Nat.lt_irrefl _)

/-- A call for a program with a budget that has run out changes no slot. -/
theorem refused_of_exceeded (hs : h.services[k]? = some s) (hagrees : Agrees h.jobs k s.slots)
    (hexceeded : a.budget.isExceeded h.now = true)
    (hcall : h.engage? k (.build .run) r terms a = some h') :
    h'.Overran h.jobs.length (.build .run) r ∧
      (h'.services[k]?).map (·.slots) = some s.slots := by
  obtain ⟨_, -, rfl⟩ := Option.map_eq_some_iff.mp hcall
  have hj : (h.enroll [⟨.build .run, r, h.now, terms, .coming⟩]).1.jobs[h.jobs.length]? =
      some ⟨.build .run, r, h.now, terms, .coming⟩ := List.getElem?_concat_length
  unfold startJob
  dsimp only
  rw [show a.budget.ensureWithin (h.enroll [⟨.build .run, r, h.now, terms, .coming⟩]).1.now
    "semaphore.acquire" = .error _ from Budget.ensureWithin_of_isExceeded hexceeded]
  refine ⟨overran_of_stage (jobs_place_self (by exact hj) _) rfl, ?_⟩
  show (((h.enroll _).1.updateSlots k (·.leave h.jobs.length)).services[k]?).map _ = _
  rw [services_updateSlots k (by exact hs), if_pos rfl, Option.map_some,
    hagrees.kept.leave_of_not_mem (not_mem_of_lt hagrees)]

/-- In every run a service has its slots, and gives out no more. -/
theorem run_slots_conserved (epoch : Nat) (tree : FileTree) (before : List HubAct) (h₀ : Hub)
    (hbefore : (Hub.start epoch tree).run? before = some h₀) (language : Language)
    (compiler : Compiler) (permits : Nat) (acts : List HubAct) (h : Hub)
    (hrun : h₀.run? (.employ ⟨language, compiler, .ofPermits permits⟩ :: acts) = some h) :
    ∃ s, h.services[h₀.services.length]? = some s ∧
      Permits h h₀.services.length permits s.slots := by
  have hs₀ : Sound h₀ := sound_of_run hbefore
  have hs : Sound h := hs₀.run hrun
  obtain ⟨h₁, hact, hacts⟩ := Option.bind_eq_some_iff.mp hrun
  have hserves₁ : h₁.Serves h₀.services.length (max 1 permits) := by
    rw [← Option.some.inj hact]
    exact serves_register hs₀ language compiler permits
  obtain ⟨s, hservice, hcapacity, hagrees⟩ : h.Serves h₀.services.length (max 1 permits) :=
    run?_preserves (P := fun h => h.Serves h₀.services.length (max 1 permits))
      (fun hact hP => hP.act hact) hacts hserves₁
  refine ⟨s, hservice, hcapacity ▸ hagrees.kept.available_add, ?_, ?_, hagrees.kept.nodup,
    hagrees.line, hagrees.holders, hagrees.kept.available_of_queue, ?_⟩
  · rw [← hcapacity]
    refine length_jobsThat_le hagrees.kept fun i job hi htrue => ?_
    rw [Bool.and_eq_true] at htrue
    exact hagrees.holders i job hi htrue.1 htrue.2
  · rw [← hcapacity]
    refine length_jobsThat_le hagrees.kept fun i job hi htrue => ?_
    -- only a job that is to run a program comes to the stage at which it runs
    have hvalid := hs.jobs i job hi
    unfold Job.executesAt at htrue
    split at htrue
    · rename_i service a c reaction since hstage
      rw [hstage] at hvalid
      cases hvalid with
      | active _ _ _ _ _ hwork =>
        cases hwork with
        | running _ _ _ p hop hc =>
          refine hagrees.holders i job hi ?_ ?_
          · rw [Job.runsAt, hop, hstage]
            exact htrue
          · rw [hstage]
            rfl
    · cases htrue
  · intro r terms a h' hexceeded hcall
    exact refused_of_exceeded hservice hagrees hexceeded hcall

/-- Two clients have a program run, at the only slot. -/
def queuedRun : List HubAct :=
  let request : Request := ⟨.new "p", ⟨"", none⟩, "r", none⟩
  [.call 0 (.build .run) request ⟨none, false, none⟩,
    .call 0 (.build .run) request ⟨none, false, none⟩, .move 0]

/-- The first of them has the slot, and the second waits. -/
theorem run_slots_conserved_queuedRun :
    ∃ h₀ h, (Hub.start 0 .empty).run? [] = some h₀ ∧
      h₀.run? (.employ ⟨.csharp, strict, .ofPermits 0⟩ :: queuedRun) = some h ∧
      (h.services[0]?).map (·.slots) = some ⟨1, [0], [1]⟩ ∧
      ∃ s, h.services[0]? = some s ∧ Permits h 0 0 s.slots :=
  ⟨_, _, rfl, rfl, rfl,
    run_slots_conserved 0 .empty [] _ rfl .csharp strict 0 queuedRun _ rfl⟩

end Hub

end Playground
