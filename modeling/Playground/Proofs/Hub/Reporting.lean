import Playground.Proofs.Hub.Diagnosis
/-!
# What clients are told about their compiles

A client that calls a service for a compile gets an answer, unless two files of one name, or a clock
that is too short, make the job break off.  What the answer says of success, its assembly and its
diagnostics agree, whether it tells of a compile or of a failure on the way to one; and a client that
asks for the diagnostics only is told the same ones.
-/

namespace Playground.Hub

variable {h h' h₀ : Hub} {i j : JobId} {r : Request} {job : Job} {service : ServiceId} {s : Service}
  {b : Budget} {allowance : Budget.Allowance} {work : Work} {terms : Budget.Terms}
  {acts : List HubAct} {t : Instant}

/-! ## 1. Jobs go on -/

/-- What the work waits for is not there yet. -/
def Idle (h : Hub) (i : JobId) (s : Service) : Work → Prop
  | .queued => s.slots.isHeldBy i = false
  | .awaiting _ _ n => h.site.outcome? n = none
  | .compiling _ _ reaction since => reaction.due? since h.now = none
  | .running _ reaction since => reaction.due? since h.now = none
  | .completing reaction since => reaction.due? since h.now = none
  | .helping reaction since => reaction.due? since h.now = none
  | _ => False

/-- Job `j` waits for something that is not there yet, with a budget that lasts. -/
structure Waits (h : Hub) (j : JobId) (service : ServiceId) (b : Budget) (work : Work) : Prop where
  idle : ∃ s, h.services[service]? = some s ∧ h.Idle j s work
  lasts : b.cancelled = false ∧ b.deadline.any (Clock.hasFired h.now) = false

theorem idle_of_awaitReaction {α : Type} {checkpoint : String} {reaction : Reaction α}
    {since : Instant} {next : Budget → α → Hub × Progress}
    (hnone : h.awaitReaction b checkpoint reaction since next = none) :
    reaction.due? since h.now = none ∧ b.cancelled = false ∧
      b.deadline.any (Clock.hasFired h.now) = false := by
  have hsettle := Option.map_eq_none_iff.mp hnone
  unfold Budget.settle? at hsettle
  split at hsettle
  · rename_i hpoll
    exact Budget.poll_eq_pending_iff.mp hpoll
  · cases hsettle
  · cases hsettle

/-- Work that does not go on waits. -/
theorem idle_of_proceed? (hnone : h.proceed? i job service s b work = none) :
    h.Idle i s work ∧ b.cancelled = false ∧ b.deadline.any (Clock.hasFired h.now) = false := by
  unfold proceed? at hnone
  cases work with
  | queued =>
    dsimp only at hnone
    split at hnone
    · rename_i hpoll
      obtain ⟨hslot, hlasts⟩ := Budget.poll_eq_pending_iff.mp hpoll
      refine ⟨eq_false_of_ne_true fun hheld => ?_, hlasts⟩
      rw [if_pos hheld] at hslot
      cases hslot
    · cases hnone
    · cases hnone
  | awaiting inlined id n =>
    dsimp only at hnone
    split at hnone
    · rename_i hpoll
      exact Budget.poll_eq_pending_iff.mp hpoll
    all_goals cases hnone
  | preparing => cases hnone
  | prepared p => cases hnone
  | compiling goal p reaction since => exact idle_of_awaitReaction hnone
  | running c reaction since => exact idle_of_awaitReaction hnone
  | completing reaction since => exact idle_of_awaitReaction hnone
  | helping reaction since => exact idle_of_awaitReaction hnone

/-- A job at work can move, and comes closer to its end by it, or it waits. -/
theorem goes_or_waits (hs : Sound h) (hj : h.jobs[j]? = some job)
    (hstage : job.stage = .active service allowance work) :
    (∃ h' stage, h.act? (.move j) = some h' ∧ h'.jobs[j]? = some { job with stage } ∧
      stage.left < job.stage.left) ∨ h.Waits j service allowance.budget work := by
  have hvalid := hs.jobs j job hj
  rw [hstage] at hvalid
  cases hvalid with
  | active _ _ _ hservice _ _ =>
    obtain ⟨s, hservice⟩ := hservice
    cases hproceed : h.proceed? j job service s allowance.budget work with
    | none =>
      obtain ⟨hidle, hlasts⟩ := idle_of_proceed? hproceed
      exact .inr ⟨⟨s, hservice, hidle⟩, hlasts⟩
    | some out =>
      have hmove : h.moveJob? j job = some (out.1.settle j job service allowance out.2) := by
        rw [moveJob?_active hstage, hservice, Option.bind_some, hproceed, Option.map_some]
      obtain ⟨stage, -, ⟨⟨h₁, hadvances, hsettle⟩, -, hleft⟩⟩ := moveJob?_move hs hj hmove
      refine .inl ⟨_, stage, by rw [act?, hj, Option.bind_some, hmove], ?_, hleft⟩
      rw [hsettle, jobs_place, hadvances.jobs, hj, Option.map_some, if_pos rfl]

/-! ## 2. What the answers say -/

/-- What a result of job `j`, given at a time with the budget of the job then, says is so. -/
structure Truthful (h : Hub) (j : JobId) (r : Request) (t : Instant) (b : Budget)
    (result : CompileResult) : Prop where
  requestId : result.requestId = r.requestId
  assembly : result.succeeded = result.assemblyBase64.isSome
  errors : result.succeeded = true ↔ ∀ d ∈ result.diagnostics, d.isError = false
  /-- The result tells of a failure on the way, or of a compile of the request.  If that has failed
  and shows no error in the active buffer, then each error of the compiler is reported once, in
  order; if there is none, the failure itself is. -/
  origin : (∃ e, result = .failed r.requestId [e.toDiagnostic] ∧
      h.Fails j (.build .compile) r b t e) ∨
    ∃ c p, h.Compiles j r c p ∧ result = c.compileResult r.requestId ∧
      (c.succeeded = false → (∀ d ∈ c.mapped.inActiveBuffer, d.isError = false) →
        result.diagnostics.filter (·.isError) =
          if c.rawErrors = [] then [Compiled.unexplained]
          else c.rawErrors.map DiagnosticMap.unfiltered)

theorem Truthful.of_fails {e : ServiceError} (he : h.Fails j (.build .compile) r b t e) :
    h.Truthful j r t b (.failed r.requestId [e.toDiagnostic]) where
  requestId := rfl
  assembly := rfl
  errors := by
    refine iff_of_false Bool.false_ne_true fun hnone => ?_
    exact absurd (hnone _ List.mem_cons_self) Bool.true_eq_false_eq_False
  origin := .inl ⟨e, rfl, he⟩

theorem Truthful.of_compiles {c : Compiled} {p : Prepared} (hc : h.Compiles j r c p) :
    h.Truthful j r t b (c.compileResult r.requestId) where
  requestId := rfl
  assembly := by
    show c.succeeded = (c.assembly?.map _).isSome
    rw [Option.isSome_map, Compiled.isSome_assembly?]
  errors := hc.faithful.succeeded_iff
  origin := .inr ⟨c, p, hc, rfl, hc.faithful.errors_reported⟩

/-- How far a compile has come. -/
inductive Course (h : Hub) (j : JobId) (r : Request) : JobStage → Prop where
  | goes (service : ServiceId) (a : Budget.Allowance) (work : Work) (h' : Hub) (job : Job)
      (hmove : h.act? (.move j) = some h') (hj : h'.jobs[j]? = some job)
      (hleft : job.stage.left < (JobStage.active service a work).left) :
      Course h j r (.active service a work)
  | waits (service : ServiceId) (a : Budget.Allowance) (work : Work)
      (hwaits : h.Waits j service a.budget work) : Course h j r (.active service a work)
  | answered (t : Instant) (b : Budget) (result : CompileResult)
      (hresult : h.Truthful j r t b result) : Course h j r (.answered t b (.ok (.compile result)))
  /-- There are two files of one name with a region among them, and an edit does not fit; or the
  clock is too short for the next build of a package. -/
  | broken (hbreaks : (¬ Region.RegionsApart (Inline.baseFiles r.workspace) ∧
        ∃ name, inline r.workspace r.activeBufferId = .error (.misfit name)) ∨
      ∃ id, h.site.OffClock id) : Course h j r .broken

theorem course_of_sound (hs : Sound h) (hj : h.jobs[j]? = some job)
    (hop : job.operation = .build .compile) (htaken : job.stage.isTaken = true) :
    h.Course j job.request job.stage := by
  have hvalid := hs.jobs j job hj
  cases hstage : job.stage with
  | coming =>
    rw [hstage] at htaken
    cases htaken
  | active service a work =>
    rcases goes_or_waits hs hj hstage with ⟨h', stage, hmove, hj', hleft⟩ | hwaits
    · exact .goes service a work h' _ hmove hj' (hstage ▸ hleft)
    · exact .waits service a work hwaits
  | answered t b answer =>
    rw [hstage] at hvalid htaken
    cases hvalid with
    | answered _ _ _ _ hanswer =>
      cases hanswer with
      | unsupported => cases htaken
      | failure e he =>
        rw [hop] at he ⊢
        exact .answered t b _ (.of_fails he)
      | earned reply hreply =>
        cases hreply with
        | compile c p _ hc => exact .answered t b _ (.of_compiles hc)
        | diagnostics _ _ hother => rw [hop] at hother; cases hother
        | failedRun _ _ hother => rw [hop] at hother; cases hother
        | ran _ _ _ hother => rw [hop] at hother; cases hother
        | completions _ hother => rw [hop] at hother; cases hother
        | signatureHelp _ hother => rw [hop] at hother; cases hother
  | broken =>
    rw [hstage] at hvalid
    cases hvalid with
    | broken hbreaks =>
      -- Where files of one name have no regions, a file's edits are for regions of its own.
      refine .broken (hbreaks.imp_left fun ⟨name, hmisfit⟩ => ⟨fun hapart => ?_, name, hmisfit⟩)
      exact Inline.inline_ne_misfit_of_regionsApart hapart name hmisfit

/-! ## 3. Runs with a compile -/

/-- What becomes of a compile in a run from `h₀` to `h`, which begins with a client that calls a
service for it. -/
structure Reporting (h₀ : Hub) (service : ServiceId) (r : Request) (terms : Budget.Terms)
    (acts : List HubAct) (h : Hub) : Prop where
  /-- It is on its way to an answer, has a truthful one, or has broken off. -/
  course : ∃ job, h.jobs[h₀.jobs.length]? = some job ∧ h.Course h₀.jobs.length r job.stage
  /-- Calling for the diagnostics comes to the same, apart from the kind of the answer. -/
  diagnoses : h₀.run? (.call service (.build .diagnostics) r terms :: acts) =
    some (h.diagnosis h₀.jobs.length)
  /-- The answer has the same diagnostics then. -/
  reported : ∀ t b result, h.answer? h₀.jobs.length = some (t, b, .ok (.compile result)) →
    (h.diagnosis h₀.jobs.length).answer? h₀.jobs.length =
      some (t, b, .ok (.diagnostics ⟨result.diagnostics, result.requestId⟩))

theorem answer?_diagnosis (hj : h.jobs[j]? = some job) :
    (h.diagnosis j).answer? j =
      (h.answer? j).map fun (t, b, answer) => (t, b, answer.map Reply.diagnosis) := by
  unfold answer?
  rw [diagnosis_jobs_self hj, hj]
  obtain ⟨op, r, start, terms, stage⟩ := job
  cases stage <;> rfl

theorem jobs_of_call? {op : Operation} (hcall : h.call? service op r terms = some h') :
    ∃ stage, h'.jobs[h.jobs.length]? = some ⟨op, r, h.now, terms, stage⟩ ∧
      stage.isTaken = true := by
  obtain ⟨stage, htaken, ⟨⟨h₁, hadvances, rfl⟩, -, -⟩⟩ := call?_move hcall
  refine ⟨stage, ?_, htaken⟩
  rw [jobs_place, hadvances.jobs, enroll, List.getElem?_concat_length, Option.map_some, if_pos rfl]

/-- In every run a client that calls a service for a compile is told the truth about it. -/
theorem reporting (epoch : Nat) (tree : FileTree) (before : List HubAct) (h₀ : Hub)
    (hbefore : (Hub.start epoch tree).run? before = some h₀) (service : ServiceId) (r : Request)
    (terms : Budget.Terms) (acts : List HubAct) (h : Hub)
    (hrun : h₀.run? (.call service (.build .compile) r terms :: acts) = some h) :
    Reporting h₀ service r terms acts h := by
  have hs₀ : Sound h₀ := sound_of_run hbefore
  obtain ⟨h₁, hcall, hacts⟩ := Option.bind_eq_some_iff.mp hrun
  have hs₁ : Sound h₁ := hs₀.act hcall
  -- A called service has the job in hand at once, and later acts leave it what it asks for.
  obtain ⟨stage₁, hj₁, htaken₁⟩ := jobs_of_call? hcall
  obtain ⟨stage, hj, htaken⟩ := holds_of_run hs₁ hj₁ hacts
  refine ⟨⟨_, hj, course_of_sound (hs₁.run hacts) hj rfl (htaken htaken₁)⟩, ?_, ?_⟩
  · rw [run?]
    have hdiagnosis : h₀.act? (.call service (.build .diagnostics) r terms) =
        some (h₁.diagnosis h₀.jobs.length) := by
      refine (call?_diagnosis_self h₀ service r terms).trans ?_
      exact congrArg (Option.map _) hcall
    rw [hdiagnosis, Option.bind_some, run?_diagnosis hs₁ hj₁ rfl, hacts, Option.map_some]
  · intro t b result hanswer
    rw [answer?_diagnosis hj, hanswer]
    rfl

/-- A compiler that finds an error in everything, at no place, and makes an assembly all the same. -/
def strict : Compiler where
  compile _ := .instant ⟨[⟨none, 0, 1, .error, "CS5001", "no Main"⟩], some [0x4d, 0x5a]⟩
  run _ := ⟨none, .error ""⟩
  completions := none
  signatureHelp := none

/-- A service and a package that can be built at once. -/
def strictSetting : List HubAct :=
  [.site (.provide fun _ _ => ⟨some 0, fun t => (.built "/p.dll", t)⟩),
    .site (.found "p" "/" 0 .standard), .list 0, .employ ⟨.csharp, strict, .ofPermits 1⟩]

/-- The job has the package built, and goes on when it is. -/
def strictCourse : List HubAct :=
  .move 0 :: List.replicate 11 (.site (.move 0)) ++ [.move 0, .move 0, .move 0]

theorem reporting_strictCourse :
    ∃ h₀ h, (Hub.start 0 .empty).run? strictSetting = some h₀ ∧
      h₀.run? (.call 0 (.build .compile) ⟨.new "p", ⟨"", none⟩, "r", none⟩ ⟨none, false, none⟩ ::
        strictCourse) = some h ∧
      (∃ b, h.answer? 0 = some (0, b, .ok (.compile
        ⟨false, [⟨0, 1, "no Main", .error, "CS5001", none⟩], none, "r"⟩))) ∧
      Reporting h₀ 0 ⟨.new "p", ⟨"", none⟩, "r", none⟩ ⟨none, false, none⟩ strictCourse h :=
  ⟨_, _, rfl, rfl, ⟨_, rfl⟩, reporting 0 .empty strictSetting _ rfl 0 _ _ strictCourse _ rfl⟩

/-- A client calls for a compile of two files of one name, one of them with a region. -/
def namesakesRun : List HubAct :=
  let files : List SourceFile := [⟨"a.cs", "#region r\nbody\n#endregion\n"⟩, ⟨"./a.cs", ""⟩]
  let request : Request := ⟨⟨files, [], [], "p", .csharp, false⟩, ⟨"a.cs", some "r"⟩, "r", none⟩
  strictSetting ++ [.call 0 (.build .compile) request ⟨none, false, none⟩, .move 0]

/-- The job is at work no more, and has no answer. -/
theorem broken_namesakesRun :
    ((Hub.start 0 .empty).run? namesakesRun).map (fun h => (h.isOpen 0, (h.answer? 0).isSome)) =
      some (false, false) := by
  decide +kernel

end Playground.Hub
