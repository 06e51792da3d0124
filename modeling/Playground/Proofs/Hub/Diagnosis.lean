import Playground.Proofs.Hub.Run
/-!
# Asking for diagnostics in place of a compile

A request for the diagnostics of a workspace takes the same work as a request for its compile.  If
one job of a hub asks for the diagnostics in place of a compile, the hub runs as it would have: all
acts are possible that were, and afterwards the hub differs in what kind of answer the job asks for,
and gets.
-/

namespace Playground

/-! ## 1. What a diagnosis is called -/

/-- A reply to a compile, as a reply to a request for diagnostics. -/
def Reply.diagnosis : Reply → Reply
  | compile r => diagnostics ⟨r.diagnostics, r.requestId⟩
  | reply => reply

def Work.diagnosis : Work → Work
  | compiling .compile p reaction since => compiling .diagnostics p reaction since
  | work => work

def JobStage.diagnosis : JobStage → JobStage
  | active service a work => active service a work.diagnosis
  | answered time b answer => answered time b (answer.map Reply.diagnosis)
  | stage => stage

/-- The job as it would be if it had asked for diagnostics. -/
def Job.diagnosis (job : Job) : Job :=
  { job with operation := .build .diagnostics, stage := job.stage.diagnosis }

@[simp] theorem Job.diagnosis_request (job : Job) : job.diagnosis.request = job.request := rfl

@[simp] theorem Job.diagnosis_start (job : Job) : job.diagnosis.start = job.start := rfl

@[simp] theorem Job.diagnosis_terms (job : Job) : job.diagnosis.terms = job.terms := rfl

@[simp] theorem Job.diagnosis_stage (job : Job) : job.diagnosis.stage = job.stage.diagnosis := rfl

namespace Hub

def Progress.diagnosis : Progress → Progress
  | go b work => go b work.diagnosis
  | done b reply => done b reply.diagnosis
  | progress => progress

/-- The hub with its jobs changed. -/
def withJobs (f : List Job → List Job) (h : Hub) : Hub :=
  { h with jobs := f h.jobs }

/-- The hub as it would be if job `j` had asked for diagnostics. -/
def diagnosis (j : JobId) : Hub → Hub :=
  withJobs (·.modify j Job.diagnosis)

@[simp] theorem diagnosis_now (j : JobId) (h : Hub) : (h.diagnosis j).now = h.now := rfl

@[simp] theorem diagnosis_route? (j : JobId) (h : Hub) : (h.diagnosis j).route? = h.route? := rfl

@[simp] theorem diagnosis_services (j : JobId) (h : Hub) :
    (h.diagnosis j).services = h.services := rfl

variable {h h' : Hub} {a : HubAct} {i j : JobId} {op : Operation} {r : Request} {job : Job}
  {service : ServiceId} {s : Service} {b : Budget} {allowance : Budget.Allowance} {work : Work}
  {f : List Job → List Job} {p : Prepared} {checkpoint : String}

/-! ## 2. The work on a request looks at no job -/

@[simp] theorem withJobs_now (f : List Job → List Job) (h : Hub) : (h.withJobs f).now = h.now := rfl

@[simp] theorem withJobs_site (f : List Job → List Job) (h : Hub) :
    (h.withJobs f).site = h.site := rfl

@[simp] theorem withJobs_registry (f : List Job → List Job) (h : Hub) :
    (h.withJobs f).registry = h.registry := rfl

/-- What a step leads to on a hub with its jobs changed, up to `φ`. -/
def carry (f : List Job → List Job) (φ : Progress → Progress) (out : Hub × Progress) :
    Hub × Progress :=
  (out.1.withJobs f, φ out.2)

/-- The change leaves alone what happens before the compile, and failures. -/
structure Mild (φ : Progress → Progress) : Prop where
  awaiting : ∀ b inlined id n, φ (.go b (.awaiting inlined id n)) = .go b (.awaiting inlined id n)
  prepared : ∀ b p, φ (.go b (.prepared p)) = .go b (.prepared p)
  failed : ∀ b e, φ (.failed b e) = .failed b e
  broken : φ .broken = .broken

theorem Mild.id : Mild id := ⟨fun _ _ _ _ => rfl, fun _ _ => rfl, fun _ _ => rfl, rfl⟩

theorem Mild.diagnosis : Mild Progress.diagnosis :=
  ⟨fun _ _ _ _ => rfl, fun _ _ => rfl, fun _ _ => rfl, rfl⟩

variable {φ : Progress → Progress}

theorem checked_withJobs (hφ : Mild φ) {outcome : Budget × Except Budget.Exceeded Unit}
    {next next' : Budget → Hub × Progress} (hnext : ∀ b, next' b = carry f φ (next b)) :
    (h.withJobs f).checked outcome next' = carry f φ (h.checked outcome next) := by
  obtain ⟨b, result⟩ := outcome
  cases result with
  | ok _ => exact hnext b
  | error e => exact congrArg _ (hφ.failed b (.budget e)).symm

theorem starting_withJobs (hφ : Mild φ) {next next' : Hub × Progress}
    (hnext : next' = carry f φ next) :
    (h.withJobs f).starting b checkpoint next' = carry f φ (h.starting b checkpoint next) := by
  unfold starting
  rw [withJobs_now]
  cases b.ensureWithin h.now checkpoint with
  | ok _ => exact hnext
  | error e => exact congrArg _ (hφ.failed _ (.budget e)).symm

theorem awaitReaction_withJobs (hφ : Mild φ) {α : Type} {reaction : Reaction α} {since : Instant}
    {next next' : Budget → α → Hub × Progress} (hnext : ∀ b a, next' b a = carry f φ (next b a)) :
    (h.withJobs f).awaitReaction b checkpoint reaction since next' =
      (h.awaitReaction b checkpoint reaction since next).map (carry f φ) := by
  unfold awaitReaction
  rw [Option.map_map, withJobs_now]
  refine congrArg (fun g => Option.map g _) (funext fun out => ?_)
  obtain ⟨b, outcome⟩ := out
  cases outcome with
  | error e => exact congrArg _ (hφ.failed b (.budget e)).symm
  | ok result =>
    cases result with
    | error reason => exact congrArg _ (hφ.failed b (.compiler reason)).symm
    | ok a => exact hnext b a

theorem askForPackage_withJobs (hφ : Mild φ) (b : Budget) (inlined : Workspace) (id : PackageId)
    (package : Package) :
    (h.withJobs f).askForPackage b inlined id package =
      carry f φ (h.askForPackage b inlined id package) := by
  unfold askForPackage
  rw [withJobs_now, withJobs_site]
  cases b.ensureWithin h.now "package.ensure_ready" with
  | error e => exact congrArg _ (hφ.failed b (.package (.budget e))).symm
  | ok _ =>
    dsimp only
    generalize h.site.demand id package = d
    obtain ⟨site, demand⟩ := d
    cases demand with
    | settled o =>
      cases o with
      | ok artifact => exact congrArg _ (hφ.prepared b _).symm
      | error e => exact congrArg _ (hφ.failed b (.package e)).symm
    | joined n => exact congrArg _ (hφ.awaiting b inlined id n).symm
    | scheduled n => exact congrArg _ (hφ.awaiting b inlined id n).symm
    | offTheClock => exact congrArg _ hφ.broken.symm

theorem prepare_withJobs (hφ : Mild φ) (b : Budget) (r : Request) :
    (h.withJobs f).prepare b r = carry f φ (h.prepare b r) := by
  refine checked_withJobs hφ fun b => ?_
  cases inline r.workspace r.activeBufferId with
  | error e =>
    cases e with
    | misfit name => exact congrArg _ hφ.broken.symm
    | _ => exact congrArg _ (hφ.failed b (.workspace _)).symm
  | ok inlined =>
    rw [withJobs_registry]
    cases h.registry.find r.workspace.workspaceType with
    | error e => exact congrArg _ (hφ.failed b (.package e)).symm
    | ok id =>
      rw [withJobs_site]
      dsimp only
      cases h.site.package? id with
      | some package => exact askForPackage_withJobs hφ b inlined id package
      | none => exact congrArg _ hφ.broken.symm

theorem startCompile_withJobs (hφ : Mild φ) {goal goal' : Goal}
    (hgoal : ∀ b reaction since,
      φ (.go b (.compiling goal p reaction since)) = .go b (.compiling goal' p reaction since)) :
    (h.withJobs f).startCompile service s i b goal' p =
      carry f φ (h.startCompile service s i b goal p) :=
  starting_withJobs hφ (congrArg _ (hgoal b _ _).symm)

theorem startQuery_withJobs (b : Budget) (query : Query) (input : CursorInput) :
    (h.withJobs f).startQuery service s i b query input =
      carry f id (h.startQuery service s i b query input) := by
  refine starting_withJobs .id ?_
  cases query with
  | completions => cases s.compiler.completions <;> rfl
  | signatureHelp => cases s.compiler.signatureHelp <;> rfl

theorem afterPrepared_withJobs :
    (h.withJobs f).afterPrepared service s i job b p =
      carry f id (h.afterPrepared service s i job b p) := by
  refine checked_withJobs .id fun b => ?_
  cases job.operation with
  | build goal => exact startCompile_withJobs .id fun _ _ _ => rfl
  | ask query =>
    dsimp only
    cases cursorInput? job.request p with
    | some input => exact startQuery_withJobs b query input
    | none => rfl

theorem startRun_withJobs (c : Compiled) :
    (h.withJobs f).startRun service s i r b p c = carry f id (h.startRun service s i r b p c) := by
  unfold startRun
  cases c.assembly? with
  | none => rfl
  | some assembly => exact starting_withJobs .id rfl

theorem afterCompile_withJobs {goal : Goal} (output : CompileOutput) :
    (h.withJobs f).afterCompile service s i r b goal p output =
      carry f id (h.afterCompile service s i r b goal p output) := by
  unfold afterCompile
  rw [withJobs_now]
  cases mapDiagnostics p.inlined r.activeBufferId output.diagnostics b h.now with
  | mk b result =>
    cases result with
    | error e => rfl
    | ok mapped =>
      cases goal with
      | run => exact startRun_withJobs _
      | _ => rfl

theorem proceed?_withJobs (work : Work) :
    (h.withJobs f).proceed? i job service s b work =
      (h.proceed? i job service s b work).map (carry f id) := by
  unfold proceed?
  rw [withJobs_now]
  cases work with
  | queued =>
    dsimp only
    cases b.poll h.now "semaphore.acquire" (if s.slots.isHeldBy i then some () else none) <;> rfl
  | preparing => exact congrArg some (prepare_withJobs .id b job.request)
  | awaiting inlined id n =>
    dsimp only
    rw [withJobs_site]
    cases b.poll h.now "package.ensure_ready" (h.site.outcome? n) with
    | pending => rfl
    | lost e => rfl
    | won o =>
      cases o with
      | error e => rfl
      | ok artifact => cases h.site.package? id <;> rfl
  | prepared p => exact congrArg some afterPrepared_withJobs
  | compiling goal p reaction since =>
    exact awaitReaction_withJobs .id fun _ output => afterCompile_withJobs output
  | running c reaction since =>
    refine awaitReaction_withJobs .id fun b ran => ?_
    exact checked_withJobs .id fun _ => rfl
  | completing reaction since => exact awaitReaction_withJobs .id fun _ _ => rfl
  | helping reaction since => exact awaitReaction_withJobs .id fun _ _ => rfl

/-! ## 3. The work on a diagnosis -/

theorem afterPrepared_diagnosis (hop : job.operation = .build .compile) :
    (h.withJobs f).afterPrepared service s i job.diagnosis b p =
      carry f Progress.diagnosis (h.afterPrepared service s i job b p) := by
  refine checked_withJobs .diagnosis fun b => ?_
  rw [hop]
  exact startCompile_withJobs .diagnosis fun _ _ _ => rfl

theorem afterCompile_diagnosis (output : CompileOutput) :
    (h.withJobs f).afterCompile service s i r b .diagnostics p output =
      carry f Progress.diagnosis (h.afterCompile service s i r b .compile p output) := by
  unfold afterCompile
  rw [withJobs_now]
  cases mapDiagnostics p.inlined r.activeBufferId output.diagnostics b h.now with
  | mk b result => cases result <;> rfl

theorem proceed?_diagnosis (hop : job.operation = .build .compile)
    (hwork : h.Relies i job.operation job.request work) :
    (h.withJobs f).proceed? i job.diagnosis service s b work.diagnosis =
      (h.proceed? i job service s b work).map (carry f Progress.diagnosis) := by
  -- A compile waits for no slot, runs nothing and answers no question at a cursor.
  cases hwork with
  | queued hrun => rw [hop] at hrun; cases hrun
  | running _ _ _ _ hrun => rw [hop] at hrun; cases hrun
  | completing _ _ hask => rw [hop] at hask; cases hask
  | helping _ _ hask => rw [hop] at hask; cases hask
  | preparing => exact congrArg some (prepare_withJobs .diagnosis b job.request)
  | awaiting inlined id n =>
    unfold proceed?
    dsimp only [Work.diagnosis]
    rw [withJobs_now, withJobs_site]
    cases b.poll h.now "package.ensure_ready" (h.site.outcome? n) with
    | pending => rfl
    | lost e => rfl
    | won o =>
      cases o with
      | error e => rfl
      | ok artifact => cases h.site.package? id <;> rfl
  | prepared p => exact congrArg some (afterPrepared_diagnosis hop)
  | compiling goal p reaction since hgoal =>
    obtain rfl : goal = .compile := Operation.build.inj (hgoal.symm.trans hop)
    unfold proceed?
    dsimp only [Work.diagnosis]
    exact awaitReaction_withJobs .diagnosis fun _ output => afterCompile_diagnosis output

/-! ## 4. Moves -/

theorem diagnosis_place_self (h : Hub) (j : JobId) (stage : JobStage) :
    (h.place j stage).diagnosis j = (h.diagnosis j).place j stage.diagnosis := by
  unfold diagnosis withJobs place
  dsimp only
  rw [List.modify_modify_eq, List.modify_modify_eq]
  rfl

theorem diagnosis_place_ne (h : Hub) (hij : i ≠ j) (stage : JobStage) :
    (h.place i stage).diagnosis j = (h.diagnosis j).place i stage := by
  unfold diagnosis withJobs place
  dsimp only
  rw [List.modify_modify_ne _ _ _ hij]

theorem diagnosis_settle_self (hop : job.operation = .build .compile) (progress : Progress) :
    (h.settle j job service allowance progress).diagnosis j =
      (h.diagnosis j).settle j job.diagnosis service allowance progress.diagnosis := by
  have hleave := diagnosis_place_self (h.updateSlots service (·.leave j)) j
  cases progress with
  | go b work => exact diagnosis_place_self h j _
  | failed b e =>
    refine (hleave _).trans ?_
    rw [hop]
    rfl
  | _ => exact hleave _

theorem diagnosis_settle_ne (hij : i ≠ j) (progress : Progress) :
    (h.settle i job service allowance progress).diagnosis j =
      (h.diagnosis j).settle i job service allowance progress := by
  have hleave := diagnosis_place_ne (h.updateSlots service (·.leave i)) hij
  cases progress with
  | go b work => exact diagnosis_place_ne h hij _
  | _ => exact hleave _

theorem diagnosis_startJob_self (hop : job.operation = .build .compile) :
    (h.startJob j job service allowance).diagnosis j =
      (h.diagnosis j).startJob j job.diagnosis service allowance := by
  unfold startJob
  rw [hop]
  exact diagnosis_place_self h j _

theorem diagnosis_startJob_ne (hij : i ≠ j) :
    (h.startJob i job service allowance).diagnosis j =
      (h.diagnosis j).startJob i job service allowance := by
  unfold startJob
  rw [diagnosis_now]
  split
  · cases allowance.budget.ensureWithin h.now "semaphore.acquire" with
    | error e => exact diagnosis_settle_ne hij _
    | ok _ => exact diagnosis_place_ne (h.updateSlots service (·.enter i)) hij _
  · exact diagnosis_place_ne h hij _

theorem moveJob?_diagnosis_self (hs : Sound h) (hj : h.jobs[j]? = some job)
    (hop : job.operation = .build .compile) :
    (h.diagnosis j).moveJob? j job.diagnosis = (h.moveJob? j job).map (diagnosis j) := by
  have hvalid := hs.jobs j job hj
  have hdiagnosis := job.diagnosis_stage
  cases hstage : job.stage with
  | coming =>
    rw [hstage] at hdiagnosis
    rw [moveJob?_coming hstage, moveJob?_coming hdiagnosis]
    rw [diagnosis_now, diagnosis_route?, Job.diagnosis_start, Job.diagnosis_request,
      Job.diagnosis_terms]
    split
    · cases h.route? job.request.workspace.language with
      | some service => exact congrArg some (diagnosis_startJob_self hop).symm
      | none => exact congrArg some (diagnosis_place_self h j (.answered _ _ (.error _))).symm
    · rfl
  | active service a work =>
    rw [hstage] at hdiagnosis hvalid
    rw [moveJob?_active hstage, moveJob?_active hdiagnosis, diagnosis_services]
    cases h.services[service]? with
    | none => rfl
    | some s =>
      cases hvalid with
      | active _ _ _ _ _ hwork =>
        rw [Option.bind_some, Option.bind_some, diagnosis, proceed?_diagnosis hop hwork,
          Option.map_map, Option.map_map]
        refine congrArg (fun g => Option.map g _) (funext fun out => ?_)
        exact (diagnosis_settle_self hop out.2).symm
  | answered =>
    rw [hstage] at hdiagnosis
    rw [moveJob?, moveJob?, hstage, hdiagnosis]
    rfl
  | broken =>
    rw [hstage] at hdiagnosis
    rw [moveJob?, moveJob?, hstage, hdiagnosis]
    rfl

theorem moveJob?_diagnosis_ne (hij : i ≠ j) :
    (h.diagnosis j).moveJob? i job = (h.moveJob? i job).map (diagnosis j) := by
  cases hstage : job.stage with
  | coming =>
    rw [moveJob?_coming hstage, moveJob?_coming hstage]
    rw [diagnosis_now, diagnosis_route?]
    split
    · cases h.route? job.request.workspace.language with
      | some service => exact congrArg some (diagnosis_startJob_ne hij).symm
      | none => exact congrArg some (diagnosis_place_ne h hij _).symm
    · rfl
  | active service a work =>
    rw [moveJob?_active hstage, moveJob?_active hstage, diagnosis_services]
    cases h.services[service]? with
    | none => rfl
    | some s =>
      rw [Option.bind_some, Option.bind_some, diagnosis, proceed?_withJobs, Option.map_map,
        Option.map_map]
      refine congrArg (fun g => Option.map g _) (funext fun out => ?_)
      exact (diagnosis_settle_ne hij out.2).symm
  | answered =>
    rw [moveJob?, moveJob?, hstage]
    rfl
  | broken =>
    rw [moveJob?, moveJob?, hstage]
    rfl

/-! ## 5. Acts and runs -/

theorem diagnosis_jobs_self (hj : h.jobs[j]? = some job) :
    (h.diagnosis j).jobs[j]? = some job.diagnosis := by
  show (h.jobs.modify j Job.diagnosis)[j]? = _
  rw [List.getElem?_modify_eq, hj]
  rfl

theorem diagnosis_jobs_ne (hij : i ≠ j) : (h.diagnosis j).jobs[i]? = h.jobs[i]? :=
  List.getElem?_modify_ne _ _ hij.symm

theorem diagnosis_enroll (hj : h.jobs[j]? = some job) (jobs : List Job) :
    (h.enroll jobs).1.diagnosis j = ((h.diagnosis j).enroll jobs).1 := by
  -- Job `j` is there already, so the new jobs stay what they are.
  have hlt : j < h.jobs.length := (List.getElem?_eq_some_iff.mp hj).1
  have hjobs : (h.jobs ++ jobs).modify j Job.diagnosis = h.jobs.modify j Job.diagnosis ++ jobs := by
    refine List.ext_getElem? fun k => ?_
    rw [List.getElem?_modify, List.getElem?_append, List.getElem?_append, List.length_modify,
      List.getElem?_modify]
    by_cases hjk : j = k
    · rw [if_pos (hjk ▸ hlt), if_pos (hjk ▸ hlt)]
    · simp only [if_neg hjk, id_map']
  unfold diagnosis withJobs enroll
  dsimp only
  rw [hjobs]

theorem cancelJob?_diagnosis (hj : h.jobs[j]? = some job) :
    (h.diagnosis j).cancelJob? i = (h.cancelJob? i).map (diagnosis j) := by
  unfold cancelJob?
  by_cases hij : i = j
  · subst hij
    rw [diagnosis_jobs_self hj, hj, Option.bind_some, Option.bind_some, Job.diagnosis_stage]
    cases job.stage with
    | active service a work => exact congrArg some (diagnosis_place_self h i (.active _ _ _)).symm
    | _ => rfl
  · rw [diagnosis_jobs_ne hij]
    cases h.jobs[i]? with
    | none => rfl
    | some job' =>
      rw [Option.bind_some, Option.bind_some]
      cases job'.stage with
      | active service a work => exact congrArg some (diagnosis_place_ne h hij _).symm
      | _ => rfl

theorem call?_diagnosis_ne (hj : h.jobs[j]? = some job) (service : ServiceId) (op : Operation)
    (r : Request) (terms : Budget.Terms) :
    (h.diagnosis j).call? service op r terms = (h.call? service op r terms).map (diagnosis j) := by
  have hlength : (h.diagnosis j).jobs.length = h.jobs.length := List.length_modify ..
  have hne : h.jobs.length ≠ j := (Nat.ne_of_lt (List.getElem?_eq_some_iff.mp hj).1).symm
  unfold call?
  rw [hlength, Option.map_map]
  refine congrArg (fun g => Option.map g _) (funext fun _ => ?_)
  refine Eq.trans ?_ (diagnosis_startJob_ne hne).symm
  rw [diagnosis_enroll hj]
  rfl

/-- A client that calls a service for diagnostics, in place of a compile. -/
theorem call?_diagnosis_self (h : Hub) (service : ServiceId) (r : Request) (terms : Budget.Terms) :
    h.call? service (.build .diagnostics) r terms =
      (h.call? service (.build .compile) r terms).map (diagnosis h.jobs.length) := by
  have henroll :
      (h.enroll [⟨.build .compile, r, h.now, terms, .coming⟩]).1.diagnosis h.jobs.length =
        (h.enroll [⟨.build .diagnostics, r, h.now, terms, .coming⟩]).1 := by
    unfold diagnosis withJobs enroll
    dsimp only
    rw [List.modify_eq_take_cons_drop (by simp), List.take_left, List.drop_of_length_le (by simp),
      List.getElem_concat_length rfl]
    rfl
  -- Neither kind of build waits for a slot, so the calls start alike.
  unfold call?
  rw [Option.map_map]
  refine congrArg (fun g => Option.map g _) (funext fun _ => ?_)
  refine Eq.trans ?_ (diagnosis_startJob_self rfl).symm
  rw [henroll]
  rfl

theorem act?_diagnosis (hs : Sound h) (hj : h.jobs[j]? = some job)
    (hop : job.operation = .build .compile) (a : HubAct) :
    (h.diagnosis j).act? a = (h.act? a).map (diagnosis j) := by
  cases a with
  | move i =>
    rw [act?, act?]
    by_cases hij : i = j
    · subst hij
      rw [diagnosis_jobs_self hj, hj]
      exact moveJob?_diagnosis_self hs hj hop
    · rw [diagnosis_jobs_ne hij]
      cases h.jobs[i]? with
      | none => rfl
      | some job' => exact moveJob?_diagnosis_ne hij
  | cancel i => exact cancelJob?_diagnosis hj
  | come operation request start terms => exact congrArg some (diagnosis_enroll hj _).symm
  | call service operation request terms =>
    exact call?_diagnosis_ne hj service operation request terms
  | employ s => rfl
  | list id =>
    rw [act?, act?, Option.map_map]
    rfl
  | site sa =>
    rw [act?, act?, Option.map_map]
    rfl

/-- A run goes through with a diagnosis exactly if it does with the compile. -/
theorem run?_diagnosis {acts : List HubAct} (hs : Sound h) (hj : h.jobs[j]? = some job)
    (hop : job.operation = .build .compile) :
    (h.diagnosis j).run? acts = (h.run? acts).map (diagnosis j) := by
  -- On the acts; job `j` stays a compile, whatever stage it comes to.
  induction acts generalizing h job with
  | nil => rfl
  | cons a acts ih =>
    rw [run?, run?, act?_diagnosis hs hj hop]
    cases hact : h.act? a with
    | none => rfl
    | some h₁ =>
      obtain ⟨stage, hj', -⟩ := holds_of_act hs hj hact
      exact ih (hs.act hact) hj' hop

end Hub

end Playground
