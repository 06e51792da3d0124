import Playground.Proofs.Hub.Overrun
import Playground.Proofs.Hub.Reporting
import Playground.Proofs.Hub.Turn
/-!
# The stages of a request

A request goes through its stages in one order: its workspace is inlined, its package made ready,
the compiler asked, the diagnostics mapped back; a program has a slot before all this and runs after
it.  Where the work on a request is, what its log says and what the compiler has been asked go
together at every moment, so that no stage is ever entered before those in front of it, whatever
fails, and whatever everybody else does meanwhile.
-/

namespace Playground

/-- All checkpoints of an operation, in the order of its stages. -/
def Operation.checkpoints : Operation → List String
  | build .run => ["server.run_slot", "server.inline", "server.package_ready", "server.compile",
      "diagnostics.map", "server.run", "server.ran"]
  | build _ => ["server.inline", "server.package_ready", "server.compile", "diagnostics.map"]
  | ask query => ["server.inline", "server.package_ready", Hub.queryCheckpoint query]

/-- The budget of a job that is at work or has its answer. -/
def JobStage.budget? : JobStage → Option Budget
  | active _ a _ => some a.budget
  | answered _ b _ => some b
  | _ => none

/-- Whether a compiler is asked to compile. -/
def CompilerCall.isCompile : CompilerCall → Bool
  | compile _ => true
  | _ => false

namespace Hub

open Budget (InOrder)

variable {h h' h₀ h₁ : Hub} {m : HubAct} {acts : List HubAct} {i j : JobId} {op : Operation}
  {r : Request} {job : Job} {k service : ServiceId} {s : Service} {b : Budget}
  {a : Budget.Allowance} {work : Work} {p : Prepared} {names noted : List String}
  {calls new : List CompilerCall} {progress : Progress} {site : Site} {stage : JobStage}
  {terms : Budget.Terms} {compiler : Compiler} {t : Instant}

/-! ## 1. Where the work is -/

/-- The compiler answers the compile of the inlined workspace of a request with `c.output`. -/
structure Yields (compiler : Compiler) (r : Request) (p : Prepared) (c : Compiled) : Prop where
  inlined : inline r.workspace r.activeBufferId = .ok p.inlined
  output : (compiler.compile (Prepared.compileInput p)).result = .ok c.output
  faithful : c.Faithful

/-- The work is here when the log has these names and the compiler has got these calls. -/
inductive Stands (compiler : Compiler) (op : Operation) (r : Request) :
    Work → List String → List CompilerCall → Prop where
  | queued (hop : op = .build .run) : Stands compiler op r .queued [] []
  | preparing : Stands compiler op r .preparing op.lead []
  | awaiting (inlined : Workspace) (id : PackageId) (n : BuildId)
      (hinlined : inline r.workspace r.activeBufferId = .ok inlined) :
      Stands compiler op r (.awaiting inlined id n) (op.lead ++ ["server.inline"]) []
  | prepared (p : Prepared) (hinlined : inline r.workspace r.activeBufferId = .ok p.inlined) :
      Stands compiler op r (.prepared p) (op.lead ++ ["server.inline"]) []
  | compiling (goal : Goal) (p : Prepared) (since : Instant) (hop : op = .build goal)
      (hinlined : inline r.workspace r.activeBufferId = .ok p.inlined) :
      Stands compiler op r
        (.compiling goal p (compiler.compile (Prepared.compileInput p)) since)
        (op.lead ++ ["server.inline", "server.package_ready"])
        [.compile (Prepared.compileInput p)]
  | running (c : Compiled) (p : Prepared) (input : RunInput) (since : Instant)
      (hop : op = .build .run) (hyields : Yields compiler r p c)
      (hassembly : c.assembly? = some input.assembly) :
      Stands compiler op r (.running c (compiler.run input) since)
        (op.lead ++ ["server.inline", "server.package_ready", "server.compile", "diagnostics.map"])
        [.compile (Prepared.compileInput p), .run input]
  | completing (reaction : Reaction (List CompletionItem)) (since : Instant)
      (calls : List CompilerCall) (hop : op = .ask .completions) (hcalls : AsksOnce calls) :
      Stands compiler op r (.completing reaction since)
        (op.lead ++ ["server.inline", "server.package_ready"]) calls
  | helping (reaction : Reaction SignatureHelp) (since : Instant)
      (calls : List CompilerCall) (hop : op = .ask .signatureHelp) (hcalls : AsksOnce calls) :
      Stands compiler op r (.helping reaction since)
        (op.lead ++ ["server.inline", "server.package_ready"]) calls

/-- What the compiler has got from a job whose log has these names. -/
inductive Heard (compiler : Compiler) (op : Operation) (r : Request) (names : List String) :
    List CompilerCall → Prop where
  | nothing : Heard compiler op r names []
  | compile (p : Prepared)
      (hready : op.lead ++ ["server.inline", "server.package_ready"] <+: names) :
      Heard compiler op r names [.compile (Prepared.compileInput p)]
  | run (c : Compiled) (p : Prepared) (input : RunInput)
      (hready : op.lead ++ ["server.inline", "server.package_ready"] <+: names)
      (hyields : Yields compiler r p c) (hassembly : c.assembly? = some input.assembly) :
      Heard compiler op r names [.compile (Prepared.compileInput p), .run input]
  | cursor (calls : List CompilerCall)
      (hready : op.lead ++ ["server.inline", "server.package_ready"] <+: names)
      (hcalls : AsksOnce calls) :
      Heard compiler op r names calls

/-- What a job tells its client at a time, when its log is that of `b` and the compiler has got these
calls. -/
inductive Told (compiler : Compiler) (op : Operation) (r : Request) (t : Instant) (b : Budget)
    (calls : List CompilerCall) : Reply → Prop where
  | failure (e : ServiceError) (hlog : InOrder op.checkpoints b.names)
      (hheard : Heard compiler op r b.names calls) :
      Told compiler op r t b calls (op.failure r.requestId e)
  | answer (reply : Reply) (hop : op ≠ .build .run) (hlog : b.names = op.checkpoints)
      (hheard : Heard compiler op r b.names calls) : Told compiler op r t b calls reply
  | unrun (c : Compiled) (p : Prepared) (hop : op = .build .run)
      (hlog : b.names =
        op.lead ++ ["server.inline", "server.package_ready", "server.compile", "diagnostics.map"])
      (hcalls : calls = [.compile (Prepared.compileInput p)]) (hyields : Yields compiler r p c)
      (hassembly : c.assembly? = none) :
      Told compiler op r t b calls (.run (c.failedRun r.requestId))
  | ran (c : Compiled) (p : Prepared) (input : RunInput) (ran : RunOutput)
      (hop : op = .build .run) (hlog : b.names = op.checkpoints)
      (hcalls : calls = [.compile (Prepared.compileInput p), .run input])
      (hyields : Yields compiler r p c) (hassembly : c.assembly? = some input.assembly)
      (hran : (compiler.run input).result = .ok ran) (hin : b.isExceeded t = false) :
      Told compiler op r t b calls (.run (c.ranResult ran r.requestId))

namespace Stands

theorem asking {query : Query} (hop : op = .ask query) (hwork : work.query? = some query)
    (hcalls : AsksOnce calls) :
    Stands compiler op r work (op.lead ++ ["server.inline", "server.package_ready"]) calls := by
  cases work with
  | completing reaction since =>
    obtain rfl := Option.some.inj hwork
    exact .completing reaction since calls hop hcalls
  | helping reaction since =>
    obtain rfl := Option.some.inj hwork
    exact .helping reaction since calls hop hcalls
  | _ => cases hwork

/-- The operation is the query whose answer the work waits for. -/
theorem of_query? {query : Query} (hstands : Stands compiler op r work names calls)
    (hwork : work.query? = some query) :
    op = .ask query ∧ names = op.lead ++ ["server.inline", "server.package_ready"] := by
  cases hstands with
  | completing reaction since calls hop => exact ⟨Option.some.inj hwork ▸ hop, rfl⟩
  | helping reaction since calls hop => exact ⟨Option.some.inj hwork ▸ hop, rfl⟩
  | _ => cases hwork

/-- The checkpoints ahead of the work continue its log. -/
theorem stretch_prefix (hstands : Stands compiler op r work names calls) :
    names ++ work.stretch op <+: op.checkpoints := by
  cases hstands with
  | queued hop => subst hop; exact ⟨_, rfl⟩
  | compiling goal p since hop => subst hop; cases goal <;> exact ⟨_, rfl⟩
  | running c p input since hop => subst hop; exact ⟨_, rfl⟩
  | completing reaction since calls hop => subst hop; exact ⟨_, rfl⟩
  | helping reaction since calls hop => subst hop; exact ⟨_, rfl⟩
  | _ =>
    cases op with
    | build goal => cases goal <;> exact ⟨_, rfl⟩
    | ask query => exact ⟨_, rfl⟩

theorem inOrder (hstands : Stands compiler op r work names calls) :
    InOrder op.checkpoints names :=
  .going names ((List.prefix_append _ _).trans hstands.stretch_prefix)

/-- A stretch that is left half way leaves the log in order. -/
theorem inOrder_append (hstands : Stands compiler op r work names calls)
    (hnoted : InOrder (work.stretch op) noted) : InOrder op.checkpoints (names ++ noted) :=
  (hnoted.append names).mono hstands.stretch_prefix

theorem heard (hstands : Stands compiler op r work names calls) :
    Heard compiler op r names calls := by
  have hready : op.lead ++ ["server.inline", "server.package_ready"] <+:
      op.lead ++ ["server.inline", "server.package_ready", "server.compile", "diagnostics.map"] :=
    (List.prefix_append_right_inj _).mpr ⟨_, rfl⟩
  cases hstands with
  | compiling goal p since hop hinlined => exact .compile p (List.prefix_refl _)
  | running c p input since hop hyields hassembly => exact .run c p input hready hyields hassembly
  | completing reaction since calls hop hcalls => exact .cursor calls (List.prefix_refl _) hcalls
  | helping reaction since calls hop hcalls => exact .cursor calls (List.prefix_refl _) hcalls
  | _ => exact .nothing

end Stands

theorem Heard.mono (hheard : Heard compiler op r names calls) (hnames : names <+: noted) :
    Heard compiler op r noted calls := by
  cases hheard with
  | nothing => exact .nothing
  | compile p hready => exact .compile p (hready.trans hnames)
  | run c p input hready hyields hassembly =>
    exact .run c p input (hready.trans hnames) hyields hassembly
  | cursor calls hready hcalls => exact .cursor calls (hready.trans hnames) hcalls

/-! ## 2. Turns -/

/-- What a turn leads to, when the compiler has got these calls by its end. -/
inductive After (compiler : Compiler) (op : Operation) (r : Request) (t : Instant)
    (calls : List CompilerCall) : Progress → Prop where
  | go (b : Budget) (work : Work) (hstands : Stands compiler op r work b.names calls) :
      After compiler op r t calls (.go b work)
  | done (b : Budget) (reply : Reply) (htold : Told compiler op r t b calls reply) :
      After compiler op r t calls (.done b reply)
  | failed (b : Budget) (e : ServiceError) (hlog : InOrder op.checkpoints b.names)
      (hheard : Heard compiler op r b.names calls) : After compiler op r t calls (.failed b e)
  | broken (hcalls : calls = []) : After compiler op r t calls .broken

/-- The work goes on, and has logged what lies between. -/
theorem After.go_note (hnames : b.names = names)
    (hstands : Stands compiler op r work (names ++ noted) calls) :
    After compiler op r t calls (.go (b.note t noted) work) := by
  refine .go _ _ ?_
  rw [Budget.names_note, hnames]
  exact hstands

namespace Stands

/-- The work fails somewhere in the stretch ahead of it. -/
theorem failed (hstands : Stands compiler op r work names calls) (hnames : b.names = names)
    (hnoted : InOrder (work.stretch op) noted) (e : ServiceError) :
    After compiler op r t calls (.failed (b.note t noted) e) := by
  refine .failed _ _ ?_ ?_ <;> rw [Budget.names_note, hnames]
  · exact hstands.inOrder_append hnoted
  · exact hstands.heard.mono (List.prefix_append names noted)

/-- The workspace has been inlined, and the package has been asked for. -/
theorem fetched {inlined : Workspace} (hnames : b.names = op.lead)
    (hinlined : inline r.workspace r.activeBufferId = .ok inlined)
    (hprogress : Fetched inlined (b.note t ["server.inline"]) progress) :
    After compiler op r t [] progress := by
  cases hprogress with
  | ready p hp => exact .go_note hnames (.prepared p (hp ▸ hinlined))
  | pending id n => exact .go_note hnames (.awaiting inlined id n hinlined)
  | failed e => exact preparing.failed hnames (.going _ (List.prefix_refl _)) (.package e)
  | broken => exact .broken rfl

/-- A client is told about a compile, where nothing is to be run. -/
theorem told {goal : Goal} {reaction : Reaction CompileOutput} {since : Instant}
    (hstands : Stands compiler op r (.compiling goal p reaction since) names calls)
    (hnames : b.names = names) (hgoal : goal ≠ .run) (reply : Reply) :
    After compiler op r t calls (.done (b.note t ["server.compile", "diagnostics.map"]) reply) := by
  have hheard := hstands.heard.mono (List.prefix_append names ["server.compile", "diagnostics.map"])
  cases hstands with
  | compiling _ _ _ hop =>
    refine .done _ _ (.answer reply ?_ ?_ ?_)
    · rw [hop]
      exact fun heq => hgoal (Operation.build.inj heq)
    · rw [Budget.names_note, hnames, hop]
      cases goal with
      | run => exact absurd rfl hgoal
      | _ => rfl
    · rw [Budget.names_note, hnames]
      exact hheard

/-- A client is told what the compiler knows at the cursor. -/
theorem answered {query : Query} (hstands : Stands compiler op r work names calls)
    (hnames : b.names = names) (hwork : work.query? = some query) (reply : Reply) :
    After compiler op r t calls (.done (b.note t [queryCheckpoint query]) reply) := by
  obtain ⟨hop, hstart⟩ := hstands.of_query? hwork
  refine .done _ _ (.answer reply ?_ ?_ ?_)
  · rw [hop]
    nofun
  · rw [Budget.names_note, hnames, hstart, hop]
    rfl
  · rw [Budget.names_note, hnames]
    exact hstands.heard.mono (List.prefix_append names [queryCheckpoint query])

/-- A turn takes the work from where it stands to where it stands next, or to its end. -/
theorem turn (hstands : Stands s.compiler op r work names calls) (hnames : b.names = names)
    (hturn : h.Turn i op r s b work site noted new progress) :
    After s.compiler op r h.now (calls ++ new) progress := by
  cases hturn with
  | slot hheld =>
    cases hstands with
    | queued hop =>
      refine .go_note hnames ?_
      rw [hop]
      exact .preparing
  | demand inlined id package progress hlasts hinlined hfind hpackage hprogress =>
    cases hstands with
    | preparing => exact fetched hnames hinlined hprogress
  | stuck =>
    cases hstands with
    | preparing => exact .broken rfl
  | awaited inlined id n p hp =>
    cases hstands with
    | awaiting _ _ _ hinlined =>
      refine .go _ _ ?_
      rw [hnames]
      exact .prepared p (hp ▸ hinlined)
  | lost inlined id n =>
    cases hstands with
    | awaiting => exact .broken rfl
  | compile goal p hop =>
    cases hstands with
    | prepared _ hinlined =>
      refine .go_note hnames ?_
      rw [List.append_assoc]
      exact .compiling goal p h.now hop hinlined
  | ask query p new work hop hnew hwork =>
    cases hstands with
    | prepared _ hinlined =>
      refine .go_note hnames ?_
      rw [List.append_assoc]
      exact .asking hop hwork hnew
  | told goal p reaction since reply hgoal =>
    rw [List.append_nil]
    exact hstands.told hnames hgoal reply
  | unrun c p reaction since hresult hfaithful hassembly =>
    cases hstands with
    | compiling _ _ _ hop hinlined =>
      refine .done _ _ (.unrun c p hop ?_ rfl ⟨hinlined, hresult, hfaithful⟩ hassembly)
      rw [Budget.names_note, hnames, List.append_assoc]
      rfl
  | run c p reaction since input hresult hfaithful hassembly =>
    cases hstands with
    | compiling _ _ _ hop hinlined =>
      refine .go_note hnames ?_
      rw [List.append_assoc]
      exact .running c p input h.now hop ⟨hinlined, hresult, hfaithful⟩ hassembly
  | ran c reaction since ran hdue hlasts =>
    cases hstands with
    | running _ p input _ hop hyields hassembly =>
      refine .done _ _ (.ran c p input ran hop ?_ rfl hyields hassembly (result_of_due? hdue) ?_)
      · rw [Budget.names_note, hnames, hop]
        rfl
      · -- a log that has grown has the same budget left
        rw [(Budget.Alike.note b h.now _).isExceeded h.now]
        exact hlasts
  | answer query work reply hwork =>
    rw [List.append_nil]
    exact hstands.answered hnames hwork reply
  | failed work noted e hnoted =>
    rw [List.append_nil]
    exact hstands.failed hnames hnoted e

end Stands

/-! ## 3. A job in a run -/

/-- What is so of job `j`, which service `k` works on, when it has asked this. -/
inductive Traced (compiler : Compiler) (op : Operation) (r : Request) (k : ServiceId) (j : JobId)
    (asked : List Consultation) : JobStage → Prop where
  | active (a : Budget.Allowance) (work : Work) (calls : List CompilerCall)
      (hasked : asked = calls.map (⟨k, j, ·⟩))
      (hstands : Stands compiler op r work a.budget.names calls) :
      Traced compiler op r k j asked (.active k a work)
  | answered (t : Instant) (b : Budget) (reply : Reply) (calls : List CompilerCall)
      (hasked : asked = calls.map (⟨k, j, ·⟩)) (htold : Told compiler op r t b calls reply) :
      Traced compiler op r k j asked (.answered t b (.ok reply))
  | broken (hasked : asked = []) : Traced compiler op r k j asked .broken

/-- Service `k` works on job `j`, or has done so. -/
structure Follows (h : Hub) (k : ServiceId) (compiler : Compiler) (j : JobId) (op : Operation)
    (r : Request) : Prop where
  employs : ∃ s, h.services[k]? = some s ∧ s.compiler = compiler
  job : ∃ job, h.jobs[j]? = some job ∧ job.operation = op ∧ job.request = r ∧
    Traced compiler op r k j (h.asked j) job.stage

/-- The job is where the turn leads. -/
theorem traced_settle (k : ServiceId) (a : Budget.Allowance) (hj : h.jobs[j]? = some job)
    (calls new : List CompilerCall) (hasked : h.asked j = calls.map (⟨k, j, ·⟩))
    (hnow : site.now = h.now)
    (hafter : After compiler job.operation job.request h.now (calls ++ new) progress) :
    ∃ stage, ((h.asking k j site new).settle j job k a progress).jobs[j]? =
        some { job with stage } ∧
      Traced compiler job.operation job.request k j
        (((h.asking k j site new).settle j job k a progress).asked j) stage := by
  have hconsultations : ((h.asking k j site new).settle j job k a progress).consultations =
      h.consultations ++ new.map (⟨k, j, ·⟩) := by
    cases progress <;> rfl
  have hasked' := asked_append hconsultations j
  rw [if_pos rfl, hasked, ← List.map_append] at hasked'
  have htime : (h.asking k j site new).now = h.now := hnow
  cases hafter with
  | go b work hstands => exact ⟨_, jobs_place_self (by exact hj) _, .active _ work _ hasked' hstands⟩
  | done b reply htold => exact ⟨_, jobs_place_self (by exact hj) _, .answered _ b reply _ hasked' (htime ▸ htold)⟩
  | failed b e hlog hheard =>
    exact ⟨_, jobs_place_self (by exact hj) _, .answered _ b _ _ hasked' (.failure e hlog hheard)⟩
  | broken hcalls =>
    rw [hcalls] at hasked'
    exact ⟨_, jobs_place_self (by exact hj) _, .broken hasked'⟩

theorem traced_startJob (compiler : Compiler) (k : ServiceId) (hj : h.jobs[j]? = some job) (hasked : h.asked j = [])
    (hnames : a.budget.names = []) :
    ∃ stage, (h.startJob j job k a).jobs[j]? = some { job with stage } ∧
      Traced compiler job.operation job.request k j ((h.startJob j job k a).asked j) stage := by
  have hstarts := h.startJob_starts j job k a
  generalize h.startJob j job k a = h' at hstarts ⊢
  cases hstarts with
  | refuse e =>
    have hsettle := traced_settle k a hj [] [] hasked (Eq.refl h.site.now)
      (.failed a.budget (.budget e) (hnames ▸ .going [] List.nil_prefix)
        (Heard.nothing : Heard compiler _ _ _ _))
    rwa [asking_nil] at hsettle
  | queue hop =>
    exact ⟨_, jobs_place_self (by exact hj) _, .active a .queued [] hasked (hnames ▸ .queued hop)⟩
  | prepare hop =>
    have hlead : job.operation.lead = [] := by
      unfold Operation.lead
      split
      · exact absurd ‹_› hop
      · rfl
    refine ⟨_, jobs_place_self (by exact hj) _, .active a .preparing [] hasked ?_⟩
    rw [hnames, ← hlead]
    exact .preparing

namespace Follows

theorem act (hfollows : h.Follows k compiler j op r) (hact : h.act? m = some h') :
    h'.Follows k compiler j op r := by
  obtain ⟨⟨s, hs, hcompiler⟩, job, hj, hop, hr, htraced⟩ := hfollows
  obtain ⟨s', hs', hcompiler'⟩ := (compilers_of_act hact).1 hs
  refine ⟨⟨s', hs', hcompiler'.trans hcompiler⟩, ?_⟩
  cases meets_of_act hj hact with
  | apart _ hj' hasked => exact ⟨job, hj', hop, hr, hasked ▸ htraced⟩
  | moves hmove =>
    generalize hstage : job.stage = stage at htraced
    cases htraced with
    | active a work calls hasked hstands =>
      obtain ⟨s₁, site, noted, new, progress, hs₁, hturn, rfl⟩ := moveJob?_turn hstage hmove
      obtain rfl := Option.some.inj (hs₁.symm.trans hs)
      subst hcompiler hop hr
      obtain ⟨stage, hj', htraced'⟩ :=
        traced_settle k a hj calls new hasked hturn.now (hstands.turn rfl hturn)
      exact ⟨_, hj', rfl, rfl, htraced'⟩
    | answered t b reply => exact absurd hmove (not_moveJob?_of_answered hstage)
    | broken => exact absurd hmove (not_moveJob?_of_broken hstage)
  | cancelled service a work hstage hplace =>
    subst hplace
    refine ⟨_, jobs_place_self hj _, hop, hr, ?_⟩
    rw [hstage] at htraced
    cases htraced with
    | active _ _ calls hasked hstands => exact .active _ work calls hasked hstands

theorem run (hfollows : h.Follows k compiler j op r) (hrun : h.run? acts = some h') :
    h'.Follows k compiler j op r :=
  run?_preserves (P := fun h => h.Follows k compiler j op r) (fun hact hP => hP.act hact) hrun
    hfollows

end Follows

/-- Only jobs on the list have asked something. -/
def Known (h : Hub) : Prop := ∀ c ∈ h.consultations, c.job < h.jobs.length

theorem Known.act (hknown : h.Known) (hact : h.act? m = some h') : h'.Known := by
  have hmoved : ∀ {h₀ : Hub} {i : JobId}, h₀.Known → i < h₀.jobs.length → Moves h₀ i h' →
      h'.Known := by
    intro h₀ i hknown hi hmoves c hc
    obtain ⟨stage, hjobs⟩ := hmoves.jobs
    obtain ⟨service, calls, hconsultations⟩ := hmoves.consultations
    rw [hjobs, place, List.length_modify]
    rw [hconsultations] at hc
    rcases List.mem_append.mp hc with hc | hc
    · exact hknown c hc
    · obtain ⟨call, -, rfl⟩ := List.mem_map.mp hc
      exact hi
  have henroll : ∀ job : Job, (h.enroll [job]).1.Known := by
    intro job c hc
    have hlt := hknown c hc
    rw [enroll, List.length_append]
    exact Nat.lt_of_lt_of_le hlt (Nat.le_add_right _ _)
  cases act?_turn hact with
  | move i job hi hmove =>
    exact hmoved hknown (List.getElem?_eq_some_iff.mp hi).1 (moves_moveJob? hmove)
  | cancel =>
    intro c hc
    rw [place, List.length_modify]
    exact hknown c hc
  | come => exact henroll _
  | call service op r terms hcall =>
    refine hmoved (henroll _) ?_ (moves_engage? hcall)
    rw [enroll, List.length_append, List.length_singleton]
    exact Nat.lt_succ_self _
  | _ => exact hknown

theorem known_of_run {epoch : Nat} {tree : FileTree}
    (hrun : (Hub.start epoch tree).run? acts = some h) : h.Known :=
  run?_preserves (P := Known) (fun hact hknown => hknown.act hact) hrun fun _ hc => nomatch hc

/-- A new job is on the list, and has asked nothing. -/
theorem asked_enroll (hknown : h.Known) (job : Job) :
    (h.enroll [job]).1.asked h.jobs.length = [] := by
  refine List.filter_eq_nil_iff.mpr fun c hc => ?_
  have hlt := hknown c hc
  rw [beq_iff_eq]
  exact Nat.ne_of_lt hlt

/-- A service that is called follows its job from then on. -/
theorem follows_of_engage? (hknown : h₀.Known) (hs : h₀.services[k]? = some s)
    (hnames : a.budget.entries = []) (hcall : h₀.engage? k op r terms a = some h₁) :
    h₁.Follows k s.compiler h₀.jobs.length op r := by
  have hmoves := moves_engage? hcall
  obtain ⟨_, hs', hcompiler⟩ := hmoves.compilers hs
  refine ⟨⟨_, hs', hcompiler⟩, ?_⟩
  obtain ⟨_, -, rfl⟩ := Option.map_eq_some_iff.mp hcall
  have hnames : a.budget.names = [] := by rw [Budget.names, hnames, List.map_nil]
  have hj : (h₀.enroll [⟨op, r, h₀.now, terms, .coming⟩]).1.jobs[h₀.jobs.length]? =
      some ⟨op, r, h₀.now, terms, .coming⟩ := List.getElem?_concat_length
  obtain ⟨stage, hj, htraced⟩ := traced_startJob s.compiler k hj (asked_enroll hknown _) hnames
  exact ⟨_, hj, rfl, rfl, htraced⟩

/-! ## 4. Builds that a job schedules -/

/-- The build that a demand schedules is one of the package that is demanded. -/
theorem package_of_demand {site : Site} {id : PackageId} {package : Package} {n : BuildId}
    {build : Build} (hn : site.build? n = none)
    (hbuild : (site.demand id package).1.build? n = some build) : build.package = id := by
  have hform := site.demandForm id package
  generalize site.demand id package = d at hbuild hform ⊢
  cases hform with
  | scheduled start hdue hclock =>
    rw [Site.build?, Site.look_concat Party.build? rfl, Function.update_apply] at hbuild
    split at hbuild
    · rw [← Option.some.inj hbuild]
    · cases hn.symm.trans hbuild
  | _ => cases hn.symm.trans hbuild

theorem site_startJob (h : Hub) (i : JobId) (job : Job) (service : ServiceId)
    (a : Budget.Allowance) : (h.startJob i job service a).site = h.site := by
  have hstarts := h.startJob_starts i job service a
  generalize h.startJob i job service a = h' at hstarts ⊢
  cases hstarts <;> rfl

theorem site_settle (h : Hub) (i : JobId) (job : Job) (service : ServiceId)
    (a : Budget.Allowance) (progress : Progress) :
    (h.settle i job service a progress).site = h.site := by
  cases progress <;> rfl

/-- A job that has a build scheduled has inlined its workspace and found its package. -/
theorem schedules_of_move {n : BuildId} {build : Build} (hj : h.jobs[j]? = some job)
    (hstage : job.stage = .active k a work) (hact : h.act? (.move j) = some h')
    (hn : h.site.build? n = none) (hbuild : h'.site.build? n = some build) :
    (∃ inlined, inline job.request.workspace job.request.activeBufferId = .ok inlined) ∧
      h.registry.find? job.request.workspace.workspaceType = some build.package ∧
      a.budget.isExceeded h.now = false := by
  obtain ⟨job', hj', hmove⟩ := Option.bind_eq_some_iff.mp hact
  obtain rfl := Option.some.inj (hj'.symm.trans hj)
  obtain ⟨s, site, noted, new, progress, -, hturn, rfl⟩ := moveJob?_turn hstage hmove
  rw [site_settle] at hbuild
  change site.build? n = some build at hbuild
  cases hturn with
  | demand inlined id package progress hlasts hinlined hfind hpackage hprogress =>
    rw [package_of_demand hn hbuild]
    exact ⟨⟨inlined, hinlined⟩, hfind, hlasts⟩
  | _ =>
    rw [hn] at hbuild
    cases hbuild

/-! ## 5. Budgets that have run out before the call -/

/-- The stages of a job whose budget has run out before it began. -/
inductive Refused (h : Hub) (k : ServiceId) (op : Operation) (r : Request) : JobStage → Prop where
  | pending (a : Budget.Allowance) (hexceeded : a.budget.isExceeded h.now = true) :
      Refused h k op r (.active k a .preparing)
  | answered (t : Instant) (b : Budget) (e : Budget.Exceeded) :
      Refused h k op r (.answered t b (.ok (op.failure r.requestId (.budget e))))

/-- Job `j` is refused, and has asked nothing. -/
def Refuses (h : Hub) (k : ServiceId) (j : JobId) (op : Operation) (r : Request) : Prop :=
  ∃ job, h.jobs[j]? = some job ∧ job.operation = op ∧ job.request = r ∧
    h.Refused k op r job.stage ∧ h.asked j = []

/-- The first check of a job that is refused ends it. -/
theorem moveJob?_refused (hs : h.services[k]? = some s)
    (hstage : job.stage = .active k a .preparing) (hexceeded : a.budget.isExceeded h.now = true) :
    ∃ b e, h.moveJob? j job = some (h.settle j job k a (.failed b (.budget e))) := by
  rw [moveJob?_active hstage, hs, Option.bind_some]
  show ∃ b e, some ((h.prepare a.budget job.request).1.settle j job k a
    (h.prepare a.budget job.request).2) = _
  unfold prepare
  rcases checked_cases h a.budget "server.inline" _ with ⟨hlasts, -⟩ | ⟨-, e, hout⟩
  · rw [hexceeded] at hlasts
    cases hlasts
  · rw [hout]
    exact ⟨_, e, rfl⟩

theorem Refuses.act (hrefuses : h.Refuses k j op r) (hact : h.act? m = some h') :
    h'.Refuses k j op r := by
  obtain ⟨job, hj, hop, hr, hrefused, hasked⟩ := hrefuses
  have hnow := (compilers_of_act hact).2
  generalize hstage : job.stage = stage at hrefused
  cases meets_of_act hj hact with
  | apart _ hj' hasked' =>
    refine ⟨job, hj', hop, hr, ?_, hasked'.trans hasked⟩
    rw [hstage]
    cases hrefused with
    | pending a hexceeded => exact .pending a (Budget.isExceeded_mono hexceeded hnow)
    | answered t b e => exact .answered t b e
  | moves hmove =>
    cases hrefused with
    | pending a hexceeded =>
      obtain ⟨s, -, -, -, -, hs, -, -⟩ := moveJob?_turn hstage hmove
      obtain ⟨b, e, hrefusal⟩ := moveJob?_refused (j := j) hs hstage hexceeded
      obtain rfl := Option.some.inj (hrefusal.symm.trans hmove)
      subst hop hr
      exact ⟨_, jobs_place_self (by exact hj) _, rfl, rfl, .answered _ b e, hasked⟩
    | answered t b e => exact absurd hmove (not_moveJob?_of_answered hstage)
  | cancelled service a work hstage' hplace =>
    subst hplace
    refine ⟨_, jobs_place_self hj _, hop, hr, ?_, hasked⟩
    obtain rfl := hstage.symm.trans hstage'
    cases hrefused with
    | pending _ hexceeded => exact .pending _ rfl

theorem refuses_of_engage? (hknown : h₀.Known) (hexceeded : a.budget.isExceeded h₀.now = true)
    (hcall : h₀.engage? k op r terms a = some h₁) : h₁.Refuses k h₀.jobs.length op r := by
  obtain ⟨s, -, rfl⟩ := Option.map_eq_some_iff.mp hcall
  have hj : (h₀.enroll [⟨op, r, h₀.now, terms, .coming⟩]).1.jobs[h₀.jobs.length]? =
      some ⟨op, r, h₀.now, terms, .coming⟩ := List.getElem?_concat_length
  have hasked := asked_enroll hknown ⟨op, r, h₀.now, terms, .coming⟩
  have hstarts := startJob_starts (h₀.enroll [⟨op, r, h₀.now, terms, .coming⟩]).1 h₀.jobs.length
    ⟨op, r, h₀.now, terms, .coming⟩ k a
  generalize (h₀.enroll [⟨op, r, h₀.now, terms, .coming⟩]).1.startJob h₀.jobs.length
    ⟨op, r, h₀.now, terms, .coming⟩ k a = h' at hstarts ⊢
  cases hstarts with
  | refuse e => exact ⟨_, jobs_place_self (by exact hj) _, rfl, rfl, .answered _ _ _, hasked⟩
  | queue _ hin => cases hexceeded.symm.trans hin
  | prepare =>
    exact ⟨_, jobs_place_self (by exact hj) _, rfl, rfl, .pending a hexceeded, hasked⟩

/-! ## 6. The stages in every run -/

/-- The budget of job `j`, if it is at work or has its answer. -/
def budget? (h : Hub) (j : JobId) : Option Budget := h.jobs[j]?.bind (·.stage.budget?)

/-- Job `j` was answered that its budget had run out. -/
def Overran (h : Hub) (j : JobId) (op : Operation) (r : Request) : Prop :=
  ∃ t b e reply, h.answer? j = some (t, b, .ok reply) ∧
    reply = op.failure r.requestId (.budget e) ∧ reply.messages.map (·.id) = ["BudgetExceeded"]

theorem answer?_of_stage {answer : Except ServiceError Reply} (hj : h.jobs[j]? = some job)
    (hstage : job.stage = .answered t b answer) : h.answer? j = some (t, b, answer) := by
  obtain ⟨op, r, start, terms, stage⟩ := job
  obtain rfl : stage = .answered t b answer := hstage
  rw [answer?, hj]

theorem overran_of_stage {e : Budget.Exceeded} (hj : h.jobs[j]? = some job)
    (hstage : job.stage = .answered t b (.ok (op.failure r.requestId (.budget e)))) :
    h.Overran j op r := by
  refine ⟨t, b, e, _, answer?_of_stage hj hstage, rfl, ?_⟩
  rw [Operation.messages_failure]
  rfl

/-- What there is of the stages of a request at a moment of a run in which service `k` was called on
hub `h₀` with allowance `a`, and had its job on the list in `h₁`. -/
structure Pipeline (h₀ h₁ h : Hub) (k : ServiceId) (op : Operation) (r : Request)
    (a : Budget.Allowance) : Prop where
  log : ∀ b, h.budget? h₀.jobs.length = some b → InOrder op.checkpoints b.names
  /-- The compiler of the service is asked after the package is ready, and once for a compile. -/
  ready : ∀ c ∈ h.asked h₀.jobs.length, c.service = k ∧ ∃ b, h.budget? h₀.jobs.length = some b ∧
    op.lead ++ ["server.inline", "server.package_ready"] <+: b.names
  compiles : ((h.asked h₀.jobs.length).filter (·.call.isCompile)).length ≤ 1
  called : h₁.site = h₀.site
  /-- Whatever build the job has scheduled next is one of its package, whose name stands in the
  registry; its workspace has been inlined then. -/
  schedules : ∀ h' n build, h.act? (.move h₀.jobs.length) = some h' → h.site.build? n = none →
    h'.site.build? n = some build →
    (∃ inlined, inline r.workspace r.activeBufferId = .ok inlined) ∧
      h.registry.find? r.workspace.workspaceType = some build.package
  /-- If the budget has run out at the call, this is the answer, at once or with the next move; no
  compiler is asked, and no build is scheduled. -/
  refused : a.budget.isExceeded h₀.now = true →
    h.asked h₀.jobs.length = [] ∧
      (∀ h', h.act? (.move h₀.jobs.length) = some h' → h'.site = h.site) ∧
      (h.Overran h₀.jobs.length op r ∨ ∃ h', h.act? (.move h₀.jobs.length) = some h' ∧
        h'.Overran h₀.jobs.length op r)

theorem Told.inOrder {reply : Reply} (htold : Told compiler op r t b calls reply) :
    InOrder op.checkpoints b.names := by
  cases htold with
  | failure e hlog hheard => exact hlog
  | answer reply hop hlog hheard => exact .going _ (hlog ▸ List.prefix_refl _)
  | unrun c p hop hlog =>
    subst hop
    exact .going _ (hlog ▸ ⟨["server.run", "server.ran"], rfl⟩)
  | ran c p input ran hop hlog => exact .going _ (hlog ▸ List.prefix_refl _)

theorem Told.heard {reply : Reply} (htold : Told compiler op r t b calls reply) :
    Heard compiler op r b.names calls := by
  cases htold with
  | failure e hlog hheard => exact hheard
  | answer reply hop hlog hheard => exact hheard
  | unrun c p hop hlog hcalls =>
    subst hcalls
    exact .compile p (hlog ▸ (List.prefix_append_right_inj _).mpr ⟨_, rfl⟩)
  | ran c p input ran hop hlog hcalls hyields hassembly =>
    subst hop hcalls
    exact .run c p input (hlog ▸ ⟨_, rfl⟩) hyields hassembly

theorem Heard.compiles (hheard : Heard compiler op r names calls) :
    (calls.filter (·.isCompile)).length ≤ 1 := by
  cases hheard with
  | cursor calls hready hcalls => exact (List.length_filter_le _ _).trans hcalls.1
  | _ => simp [CompilerCall.isCompile]

theorem Heard.ready (hheard : Heard compiler op r names calls) (hcalls : calls ≠ []) :
    op.lead ++ ["server.inline", "server.package_ready"] <+: names := by
  cases hheard with
  | nothing => exact absurd rfl hcalls
  | compile p hready => exact hready
  | run c p input hready => exact hready
  | cursor calls hready => exact hready

namespace Traced

variable {asked : List Consultation}

theorem log (htraced : Traced compiler op r k j asked stage) (hb : stage.budget? = some b) :
    InOrder op.checkpoints b.names := by
  cases htraced with
  | active a work calls hasked hstands => exact Option.some.inj hb ▸ hstands.inOrder
  | answered t b reply calls hasked htold => exact Option.some.inj hb ▸ htold.inOrder
  | broken => cases hb

/-- What a job has asked is what its compiler has heard from it. -/
theorem heard (htraced : Traced compiler op r k j asked stage) :
    asked = [] ∨ ∃ b calls, stage.budget? = some b ∧ asked = calls.map (⟨k, j, ·⟩) ∧
      Heard compiler op r b.names calls := by
  cases htraced with
  | active a work calls hasked hstands => exact .inr ⟨_, calls, rfl, hasked, hstands.heard⟩
  | answered t b reply calls hasked htold => exact .inr ⟨_, calls, rfl, hasked, htold.heard⟩
  | broken hasked => exact .inl hasked

theorem ready (htraced : Traced compiler op r k j asked stage) {c : Consultation}
    (hc : c ∈ asked) : c.service = k ∧ ∃ b, stage.budget? = some b ∧
      op.lead ++ ["server.inline", "server.package_ready"] <+: b.names := by
  rcases htraced.heard with hnone | ⟨b, calls, hb, hasked, hheard⟩
  · rw [hnone] at hc
    cases hc
  · rw [hasked] at hc
    obtain ⟨call, hcall, rfl⟩ := List.mem_map.mp hc
    exact ⟨rfl, b, hb, hheard.ready (List.ne_nil_of_mem hcall)⟩

theorem compiles (htraced : Traced compiler op r k j asked stage) :
    (asked.filter (·.call.isCompile)).length ≤ 1 := by
  rcases htraced.heard with hnone | ⟨b, calls, -, hasked, hheard⟩
  · rw [hnone]
    exact Nat.zero_le 1
  · rw [hasked, List.filter_map, List.length_map]
    exact hheard.compiles

end Traced

theorem Refuses.course (hrefuses : h.Refuses k j op r) (hs : h.services[k]? = some s) :
    (∀ h', h.act? (.move j) = some h' → h'.site = h.site) ∧
      (h.Overran j op r ∨ ∃ h', h.act? (.move j) = some h' ∧ h'.Overran j op r) := by
  obtain ⟨job, hj, hop, hr, hrefused, -⟩ := hrefuses
  have hact : h.act? (.move j) = h.moveJob? j job := by rw [act?, hj, Option.bind_some]
  generalize hstage : job.stage = stage at hrefused
  rw [hact]
  cases hrefused with
  | pending a hexceeded =>
    obtain ⟨b, e, hmove⟩ := moveJob?_refused (j := j) hs hstage hexceeded
    subst hop hr
    refine ⟨fun h' hmoved => ?_, .inr ⟨_, hmove, ?_⟩⟩
    · rw [← Option.some.inj (hmove.symm.trans hmoved), site_settle]
    · exact overran_of_stage (jobs_place_self (by exact hj) _) rfl
  | answered t b e =>
    refine ⟨fun h' hmoved => ?_, .inl (overran_of_stage hj hstage)⟩
    exact absurd hmoved (not_moveJob?_of_answered hstage)

/-- In every run the stages of a request come in one order. -/
theorem stages_in_order (epoch : Nat) (tree : FileTree) (before : List HubAct) (h₀ : Hub)
    (hbefore : (Hub.start epoch tree).run? before = some h₀) (k : ServiceId) (op : Operation)
    (r : Request) (terms : Budget.Terms) (a : Budget.Allowance) (hlog : a.budget.entries = [])
    (h₁ : Hub) (hcall : h₀.engage? k op r terms a = some h₁) (acts : List HubAct) (h : Hub)
    (hrun : h₁.run? acts = some h) : Pipeline h₀ h₁ h k op r a := by
  have hknown : h₀.Known := known_of_run hbefore
  obtain ⟨s, hs, -⟩ := Option.map_eq_some_iff.mp hcall
  have hfollows := (follows_of_engage? hknown hs hlog hcall).run hrun
  obtain ⟨⟨s', hs', -⟩, job, hj, hop, hr, htraced⟩ := hfollows
  have hbudget : h.budget? h₀.jobs.length = job.stage.budget? := by
    rw [budget?, hj, Option.bind_some]
  refine ⟨fun b hb => htraced.log (hbudget ▸ hb), fun c hc => ?_, htraced.compiles, ?_, ?_, ?_⟩
  · rw [hbudget]
    exact htraced.ready hc
  · obtain ⟨_, -, rfl⟩ := Option.map_eq_some_iff.mp hcall
    exact site_startJob _ _ _ _ _
  · intro h' n build hact hn hbuild
    generalize hstage : job.stage = stage at htraced
    cases htraced with
    | active a' work calls hasked hstands =>
      obtain ⟨hinlined, hfind, -⟩ := schedules_of_move hj hstage hact hn hbuild
      exact hr ▸ ⟨hinlined, hfind⟩
    | answered t b reply =>
      rw [act?, hj, Option.bind_some, moveJob?, hstage] at hact
      cases hact
    | broken =>
      rw [act?, hj, Option.bind_some, moveJob?, hstage] at hact
      cases hact
  · intro hexceeded
    have hrefuses : h.Refuses k h₀.jobs.length op r :=
      run?_preserves (P := fun h => h.Refuses k h₀.jobs.length op r)
        (fun hact hP => hP.act hact) hrun (refuses_of_engage? hknown hexceeded hcall)
    obtain ⟨-, -, -, -, -, hasked⟩ := id hrefuses
    exact ⟨hasked, hrefuses.course hs'⟩

/-- A client calls for a run of a program, and the job goes on until the compiler is at work. -/
theorem stages_in_order_strictCourse :
    ∃ h₀ h₁ h, (Hub.start 0 .empty).run? strictSetting = some h₀ ∧
      h₀.engage? 0 (.build .run) ⟨.new "p", ⟨"", none⟩, "r", none⟩ ⟨none, false, none⟩
        ⟨.unbounded 0, none⟩ = some h₁ ∧
      h₁.run? (.move 0 :: strictCourse) = some h ∧
      (h.budget? 0).map (·.names) = some ["server.run_slot", "server.inline",
        "server.package_ready", "server.compile", "diagnostics.map"] ∧
      Pipeline h₀ h₁ h 0 (.build .run) ⟨.new "p", ⟨"", none⟩, "r", none⟩ ⟨.unbounded 0, none⟩ :=
  ⟨_, _, _, rfl, rfl, rfl, rfl,
    stages_in_order 0 .empty strictSetting _ rfl 0 _ _ ⟨none, false, none⟩ _ rfl _ rfl
      (.move 0 :: strictCourse) _ rfl⟩

end Hub

end Playground
