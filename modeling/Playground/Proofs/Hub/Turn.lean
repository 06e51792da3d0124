import Playground.Proofs.Hub.Run
import Playground.Proofs.Overrun
import Playground.Proofs.Site.Time
/-!
# The turns of a job

Everything that the work on a request can do next is one of a few turns.  A turn leaves checkpoints
in the log of the job, puts questions to the compiler of its service, and demands a package of the
site at most; nothing else on the hub changes, and the other jobs do not notice.
-/

namespace Playground

/-- What a run of a program logs before the stages that all operations share. -/
def Operation.lead : Operation → List String
  | build .run => ["server.run_slot"]
  | _ => []

/-- The checkpoint at which an operation turns to the compiler. -/
def Operation.asking : Operation → String
  | build _ => "server.compile"
  | ask query => Hub.queryCheckpoint query

/-- What the compiler is asked about a place in a file, if this is what the call asks. -/
def CompilerCall.cursor? : CompilerCall → Option CursorInput
  | completions input => some input
  | signatureHelp input => some input
  | _ => none

namespace Work

/-- The query whose answer the work waits for. -/
def query? : Work → Option Query
  | completing .. => some .completions
  | helping .. => some .signatureHelp
  | _ => none

/-- The checkpoints of the next turn, if it goes well. -/
def stretch (op : Operation) : Work → List String
  | queued => ["server.run_slot"]
  | preparing => ["server.inline"]
  | awaiting .. => []
  | prepared _ => ["server.package_ready", op.asking]
  | compiling .run .. => ["server.compile", "diagnostics.map", "server.run"]
  | compiling .. => ["server.compile", "diagnostics.map"]
  | running .. => ["server.run", "server.ran"]
  | completing .. => ["server.completions"]
  | helping .. => ["server.signature_help"]

end Work

namespace Hub

open Budget (InOrder)

variable {h h' h₁ : Hub} {a : HubAct} {i j : JobId} {op : Operation} {r : Request} {job job' : Job}
  {service : ServiceId} {s : Service} {b : Budget} {allowance : Budget.Allowance} {work : Work}
  {p : Prepared} {out : Hub × Progress} {noted : List String} {calls : List CompilerCall}
  {checkpoint : String} {terms : Budget.Terms} {progress : Progress} {site : Site}

/-! ## 1. Turns -/

/-- The compiler is asked at most once, about a place in a file. -/
def AsksOnce (calls : List CompilerCall) : Prop :=
  calls.length ≤ 1 ∧ ∀ c ∈ calls, c.cursor?.isSome = true

/-- What the demand for a package leads to. -/
inductive Fetched (inlined : Workspace) (b : Budget) : Progress → Prop where
  | ready (p : Prepared) (hp : p.inlined = inlined) : Fetched inlined b (.go b (.prepared p))
  | pending (id : PackageId) (n : BuildId) : Fetched inlined b (.go b (.awaiting inlined id n))
  | failed (e : PackageError) : Fetched inlined b (.failed b (.package e))
  | broken : Fetched inlined b .broken

/-- What the work on request `r` with budget `b` can do next: how it leaves the site, which
checkpoints it logs, what it asks the compiler, and what it leads to. -/
inductive Turn (h : Hub) (i : JobId) (op : Operation) (r : Request) (s : Service) (b : Budget) :
    Work → Site → List String → List CompilerCall → Progress → Prop where
  | slot (hheld : s.slots.isHeldBy i = true) :
      Turn h i op r s b .queued h.site ["server.run_slot"] []
        (.go (b.note h.now ["server.run_slot"]) .preparing)
  | demand (inlined : Workspace) (id : PackageId) (package : Package) (progress : Progress)
      (hin : b.isExceeded h.now = false)
      (hinlined : inline r.workspace r.activeBufferId = .ok inlined)
      (hfind : h.registry.find? r.workspace.workspaceType = some id)
      (hpackage : h.site.package? id = some package)
      (hprogress : Fetched inlined (b.note h.now ["server.inline"]) progress) :
      Turn h i op r s b .preparing (h.site.demand id package).1 ["server.inline"] [] progress
  | stuck : Turn h i op r s b .preparing h.site ["server.inline"] [] .broken
  | awaited (inlined : Workspace) (id : PackageId) (n : BuildId) (p : Prepared)
      (hp : p.inlined = inlined) :
      Turn h i op r s b (.awaiting inlined id n) h.site [] [] (.go b (.prepared p))
  | lost (inlined : Workspace) (id : PackageId) (n : BuildId) :
      Turn h i op r s b (.awaiting inlined id n) h.site [] [] .broken
  | compile (goal : Goal) (p : Prepared) (hop : op = .build goal) :
      Turn h i op r s b (.prepared p) h.site ["server.package_ready"]
        [.compile (Prepared.compileInput p)]
        (.go (b.note h.now ["server.package_ready"])
          (.compiling goal p (s.compiler.compile (Prepared.compileInput p)) h.now))
  | ask (query : Query) (p : Prepared) (asked : List CompilerCall) (work : Work)
      (hop : op = .ask query) (hasked : AsksOnce asked) (hwork : work.query? = some query) :
      Turn h i op r s b (.prepared p) h.site ["server.package_ready"] asked
        (.go (b.note h.now ["server.package_ready"]) work)
  | told (goal : Goal) (p : Prepared) (reaction : Reaction CompileOutput) (since : Instant)
      (reply : Reply) (hgoal : goal ≠ .run) :
      Turn h i op r s b (.compiling goal p reaction since) h.site
        ["server.compile", "diagnostics.map"] []
        (.done (b.note h.now ["server.compile", "diagnostics.map"]) reply)
  | unrun (c : Compiled) (p : Prepared) (reaction : Reaction CompileOutput) (since : Instant)
      (hresult : reaction.result = .ok c.output) (hfaithful : c.Faithful)
      (hassembly : c.assembly? = none) :
      Turn h i op r s b (.compiling .run p reaction since) h.site
        ["server.compile", "diagnostics.map"] []
        (.done (b.note h.now ["server.compile", "diagnostics.map"])
          (.run (c.failedRun r.requestId)))
  | run (c : Compiled) (p : Prepared) (reaction : Reaction CompileOutput) (since : Instant)
      (input : RunInput) (hresult : reaction.result = .ok c.output) (hfaithful : c.Faithful)
      (hassembly : c.assembly? = some input.assembly) :
      Turn h i op r s b (.compiling .run p reaction since) h.site
        ["server.compile", "diagnostics.map"] [.run input]
        (.go (b.note h.now ["server.compile", "diagnostics.map"])
          (.running c (s.compiler.run input) h.now))
  | ran (c : Compiled) (reaction : Reaction RunOutput) (since : Instant) (ran : RunOutput)
      (hdue : reaction.due? since h.now = some (.ok ran)) (hin : b.isExceeded h.now = false) :
      Turn h i op r s b (.running c reaction since) h.site ["server.run", "server.ran"] []
        (.done (b.note h.now ["server.run", "server.ran"]) (.run (c.ranResult ran r.requestId)))
  | answer (query : Query) (work : Work) (reply : Reply) (hwork : work.query? = some query) :
      Turn h i op r s b work h.site [queryCheckpoint query] []
        (.done (b.note h.now [queryCheckpoint query]) reply)
  | failed (work : Work) (noted : List String) (e : ServiceError)
      (hnoted : InOrder (work.stretch op) noted) :
      Turn h i op r s b work h.site noted [] (.failed (b.note h.now noted) e)

/-- The hub with another site, and with what job `i` has asked the compiler of a service. -/
def asking (h : Hub) (service : ServiceId) (i : JobId) (site : Site) (asked : List CompilerCall) :
    Hub :=
  { h with site, consultations := h.consultations ++ asked.map (⟨service, i, ·⟩) }

theorem asking_nil (h : Hub) (service : ServiceId) (i : JobId) (site : Site) :
    h.asking service i site [] = { h with site } := by
  rw [asking, List.map_nil, List.append_nil]

/-- The outcome is that of a turn. -/
def Takes (h : Hub) (service : ServiceId) (i : JobId) (op : Operation) (r : Request) (s : Service)
    (b : Budget) (work : Work) (out : Hub × Progress) : Prop :=
  ∃ site noted asked, out.1 = h.asking service i site asked ∧
    h.Turn i op r s b work site noted asked out.2

theorem Takes.quiet
    (hturn : h.Turn i op r s b work site noted [] progress) :
    h.Takes service i op r s b work ({ h with site }, progress) :=
  ⟨site, noted, [], (asking_nil h service i site).symm, hturn⟩

theorem Takes.still (hturn : h.Turn i op r s b work h.site noted [] progress) :
    h.Takes service i op r s b work (h, progress) :=
  .quiet hturn

theorem Takes.failed (noted : List String) {e : ServiceError}
    (hnoted : InOrder (work.stretch op) noted) :
    h.Takes service i op r s b work (h, .failed (b.note h.now noted) e) :=
  .still (.failed work noted e hnoted)

/-! ## 2. The stages of the work -/

theorem takes_askForPackage {inlined : Workspace} {id : PackageId} {package : Package}
    (hin : b.isExceeded h.now = false)
    (hinlined : inline r.workspace r.activeBufferId = .ok inlined)
    (hfind : h.registry.find? r.workspace.workspaceType = some id)
    (hp : h.site.package? id = some package) :
    h.Takes service i op r s b .preparing
      (h.askForPackage (b.note h.now ["server.inline"]) inlined id package) := by
  have hdemand : ∀ progress, Fetched inlined (b.note h.now ["server.inline"]) progress →
      h.Takes service i op r s b .preparing
        ({ h with site := (h.site.demand id package).1 }, progress) :=
    fun progress hprogress =>
      .quiet (.demand inlined id package progress hin hinlined hfind hp hprogress)
  unfold askForPackage
  split
  · exact .failed _ (.going _ (List.prefix_refl _))
  · dsimp only
    generalize h.site.demand id package = d at hdemand ⊢
    obtain ⟨site, demand⟩ := d
    cases demand with
    | settled outcome =>
      cases outcome with
      | ok artifact => exact hdemand _ (.ready _ rfl)
      | error e => exact hdemand _ (.failed e)
    | joined n => exact hdemand _ (.pending id n)
    | scheduled n start restore => exact hdemand _ (.pending id n)
    | offTheClock => exact hdemand _ .broken

theorem takes_prepare : h.Takes service i op r s b .preparing (h.prepare b r) := by
  have hfailed : ∀ e, h.Takes service i op r s b .preparing
      (h, .failed (b.note h.now ["server.inline"]) e) :=
    fun _ => .failed _ (.going _ (List.prefix_refl _))
  unfold prepare
  rcases checked_cases h b "server.inline" _ with ⟨hin, hout⟩ | ⟨-, e, hout⟩
  · rw [hout]
    cases hinlined : inline r.workspace r.activeBufferId with
    | error e =>
      cases e with
      | misfit name => exact .still .stuck
      | _ => exact hfailed _
    | ok inlined =>
      unfold Registry.find
      cases hfind : h.registry.find? r.workspace.workspaceType with
      | none => exact hfailed _
      | some id =>
        dsimp only
        cases hp : h.site.package? id with
        | none => exact .still .stuck
        | some package => exact takes_askForPackage hin hinlined hfind hp
  · rw [hout]
    exact hfailed _

theorem takes_startCompile {goal : Goal} (hop : op = .build goal) :
    h.Takes service i op r s b (.prepared p)
      (h.startCompile service s i (b.note h.now ["server.package_ready"]) goal p) := by
  subst hop
  unfold startCompile
  rcases starting_cases h (b.note h.now ["server.package_ready"]) "server.compile" _ with
    hout | ⟨-, e, hout⟩
  · rw [hout]
    exact ⟨h.site, _, _, rfl, .compile goal p rfl⟩
  · rw [hout]
    exact .failed ["server.package_ready", "server.compile" ++ ":exceeded"]
      (.ended ["server.package_ready"] "server.compile" (List.prefix_refl _))

/-- A compiler without completions, or without signature help, is asked nothing. -/
theorem takes_startQuery {query : Query} {input : CursorInput} (hop : op = .ask query) :
    h.Takes service i op r s b (.prepared p)
      (h.startQuery service s i (b.note h.now ["server.package_ready"]) query input) := by
  have hnone : AsksOnce [] := by simp [AsksOnce]
  have hone : ∀ c : CompilerCall, c.cursor?.isSome = true → AsksOnce [c] := by simp [AsksOnce]
  subst hop
  unfold startQuery
  rcases starting_cases h (b.note h.now ["server.package_ready"]) (queryCheckpoint query) _
    with hout | ⟨-, e, hout⟩
  · rw [hout]
    cases query with
    | completions =>
      dsimp only
      cases s.compiler.completions with
      | some ask => exact ⟨h.site, _, [_], rfl, .ask .completions p _ _ rfl (hone _ rfl) rfl⟩
      | none => exact .still (.ask .completions p _ _ rfl hnone rfl)
    | signatureHelp =>
      dsimp only
      cases s.compiler.signatureHelp with
      | some ask => exact ⟨h.site, _, [_], rfl, .ask .signatureHelp p _ _ rfl (hone _ rfl) rfl⟩
      | none => exact .still (.ask .signatureHelp p _ _ rfl hnone rfl)
  · rw [hout]
    exact .failed ["server.package_ready", queryCheckpoint query ++ ":exceeded"]
      (.ended ["server.package_ready"] (queryCheckpoint query) (List.prefix_refl _))

theorem takes_afterPrepared :
    h.Takes service i job.operation job.request s b (.prepared p)
      (h.afterPrepared service s i job b p) := by
  have hfailed : ∀ e, h.Takes service i job.operation job.request s b (.prepared p)
      (h, .failed (b.note h.now ["server.package_ready"]) e) :=
    fun _ => .failed _ (.going _ (List.prefix_append ["server.package_ready"] _))
  unfold afterPrepared
  rcases checked_cases h b "server.package_ready" _ with ⟨-, hout⟩ | ⟨-, e, hout⟩
  · rw [hout]
    cases hop : job.operation with
    | build goal => exact takes_startCompile rfl
    | ask query =>
      rw [hop] at hfailed
      dsimp only
      cases cursorInput? job.request p with
      | none => exact hfailed _
      | some input => exact takes_startQuery rfl
  · rw [hout]
    exact hfailed _

theorem mapDiagnostics_logs (inlined : Workspace) (active : BufferId) (ds : List RawDiagnostic)
    (b : Budget) (now : Instant) :
    (mapDiagnostics inlined active ds b now).1 = b.note now ["diagnostics.map"] := by
  unfold mapDiagnostics Budget.recordAndCheck
  dsimp only
  cases (b.record now "diagnostics.map").ensureWithin now "diagnostics.map" <;> rfl

theorem takes_startRun {c : Compiled} {reaction : Reaction CompileOutput} {since : Instant}
    (hresult : reaction.result = .ok c.output) (hfaithful : c.Faithful) :
    h.Takes service i op r s b (.compiling .run p reaction since)
      (h.startRun service s i r (b.note h.now ["server.compile", "diagnostics.map"]) p c) := by
  unfold startRun
  cases hassembly : c.assembly? with
  | none => exact .still (.unrun c p reaction since hresult hfaithful hassembly)
  | some assembly =>
    dsimp only
    rcases starting_cases h (b.note h.now ["server.compile", "diagnostics.map"]) "server.run" _
      with hout | ⟨-, e, hout⟩
    · rw [hout]
      exact ⟨h.site, _, _, rfl, .run c p reaction since _ hresult hfaithful hassembly⟩
    · rw [hout]
      exact .failed ["server.compile", "diagnostics.map", "server.run" ++ ":exceeded"]
        (.ended ["server.compile", "diagnostics.map"] "server.run" (List.prefix_refl _))

theorem takes_afterCompile {goal : Goal} {reaction : Reaction CompileOutput} {since : Instant}
    {output : CompileOutput} (hresult : reaction.result = .ok output) :
    h.Takes service i op r s b (.compiling goal p reaction since)
      (h.afterCompile service s i r (b.note h.now ["server.compile"]) goal p output) := by
  have hlog := mapDiagnostics_logs p.inlined r.activeBufferId output.diagnostics
    (b.note h.now ["server.compile"]) h.now
  have hmapped : ∀ mapped, (mapDiagnostics p.inlined r.activeBufferId output.diagnostics
      (b.note h.now ["server.compile"]) h.now).2 = .ok mapped →
      Compiled.Faithful ⟨output, mapped⟩ :=
    fun mapped hmap => Compiled.faithful_of_map hmap
  have hstretch : ["server.compile", "diagnostics.map"] <+:
      (Work.compiling goal p reaction since).stretch op := by
    cases goal with
    | run => exact List.prefix_append ["server.compile", "diagnostics.map"] _
    | _ => exact List.prefix_refl _
  unfold afterCompile
  generalize mapDiagnostics p.inlined r.activeBufferId output.diagnostics
    (b.note h.now ["server.compile"]) h.now = mapping at hlog hmapped ⊢
  obtain ⟨b', result⟩ := mapping
  obtain rfl : b' = b.note h.now ["server.compile", "diagnostics.map"] := hlog
  cases result with
  | error e => exact .failed _ (.going _ hstretch)
  | ok mapped =>
    cases goal with
    | compile => exact .still (.told .compile p reaction since _ (by simp))
    | diagnostics => exact .still (.told .diagnostics p reaction since _ (by simp))
    | run => exact takes_startRun hresult (hmapped mapped rfl)

theorem takes_query {α : Type} {query : Query} {reaction : Reaction α} {since : Instant}
    {reply : α → Reply} (hwork : work.query? = some query)
    (hstretch : work.stretch op = [queryCheckpoint query])
    (hout : h.awaitReaction b (queryCheckpoint query) reaction since
      (fun b x => (h, .done b (reply x))) = some out) :
    h.Takes service i op r s b work out := by
  rcases awaitReaction_cases hout with ⟨x, -, rfl⟩ | ⟨reason, -, rfl⟩ | ⟨-, e, rfl⟩
  · exact .still (.answer query work (reply x) hwork)
  · exact .failed _ (.going _ (hstretch ▸ List.prefix_refl _))
  · exact .failed _ (.ended [] _ (hstretch ▸ List.prefix_refl _))

/-- Work that goes on takes a turn. -/
theorem takes_proceed? (hout : h.proceed? i job service s b work = some out) :
    h.Takes service i job.operation job.request s b work out := by
  unfold proceed? at hout
  cases work with
  | queued =>
    dsimp only at hout
    split at hout
    · cases hout
    · rename_i hwon
      have hheld := Budget.of_poll_won hwon
      rw [← Option.some.inj hout]
      -- the race for a slot is won only by one who holds it
      refine .still (.slot ?_)
      by_contra hfree
      rw [if_neg hfree] at hheld
      cases hheld
    · rw [← Option.some.inj hout]
      exact .failed [] (.going _ List.nil_prefix)
  | preparing =>
    rw [← Option.some.inj hout]
    exact takes_prepare
  | awaiting inlined id n =>
    have hfailed : ∀ e, h.Takes service i job.operation job.request s b (.awaiting inlined id n)
        (h, .failed b e) :=
      fun _ => .failed [] (.going _ List.nil_prefix)
    dsimp only at hout
    split at hout
    · cases hout
    · rw [← Option.some.inj hout]
      exact .still (.awaited inlined id n _ rfl)
    · rw [← Option.some.inj hout]
      exact .still (.lost inlined id n)
    · rw [← Option.some.inj hout]
      exact hfailed _
    · rw [← Option.some.inj hout]
      exact hfailed _
  | prepared p =>
    rw [← Option.some.inj hout]
    exact takes_afterPrepared
  | compiling goal p reaction since =>
    have hcompile : ["server.compile"] <+:
        (Work.compiling goal p reaction since).stretch job.operation := by
      cases goal <;> exact List.prefix_append ["server.compile"] _
    rcases awaitReaction_cases hout with ⟨output, hdue, rfl⟩ | ⟨reason, -, rfl⟩ | ⟨-, e, rfl⟩
    · exact takes_afterCompile (result_of_due? hdue)
    · exact .failed _ (.going _ hcompile)
    · exact .failed _ (.ended [] _ hcompile)
  | running c reaction since =>
    rcases awaitReaction_cases hout with ⟨ran, hdue, rfl⟩ | ⟨reason, -, rfl⟩ | ⟨-, e, rfl⟩
    · rcases checked_cases h (b.note h.now ["server.run"]) "server.ran" _ with
        ⟨hin, hout⟩ | ⟨-, e, hout⟩
      · rw [hout]
        refine .still (.ran c reaction since ran hdue ?_)
        exact ((Budget.Alike.note b h.now ["server.run"]).isExceeded h.now).symm.trans hin
      · rw [hout]
        exact .failed ["server.run", "server.ran"] (.going _ (List.prefix_refl _))
    · exact .failed _ (.going _ (List.prefix_append ["server.run"] _))
    · exact .failed _ (.ended [] _ (List.prefix_append ["server.run"] _))
  | completing reaction since => exact takes_query rfl rfl hout
  | helping reaction since => exact takes_query rfl rfl hout

/-! ## 3. Acts, as one job meets them -/

/-- What job `j` has asked compilers, oldest first. -/
def asked (h : Hub) (j : JobId) : List Consultation :=
  h.consultations.filter (·.job == j)

/-- A client calls a service with a budget of its own making. -/
def engage? (h : Hub) (service : ServiceId) (op : Operation) (r : Request) (terms : Budget.Terms)
    (a : Budget.Allowance) : Option Hub :=
  h.services[service]?.map fun _ =>
    (h.enroll [⟨op, r, h.now, terms, .coming⟩]).1.startJob h.jobs.length
      ⟨op, r, h.now, terms, .coming⟩ service a

/-- The services of a hub have a compiler that they keep. -/
def KeepsCompilers (h h' : Hub) : Prop :=
  ∀ {k : ServiceId} {s : Service}, h.services[k]? = some s →
    ∃ s', h'.services[k]? = some s' ∧ s'.compiler = s.compiler

/-- What a move of job `i` does to a hub, as far as the other jobs notice. -/
structure Moves (h : Hub) (i : JobId) (h' : Hub) : Prop where
  jobs : ∃ stage, h'.jobs = (h.place i stage).jobs
  consultations : ∃ (service : ServiceId) (calls : List CompilerCall),
    h'.consultations = h.consultations ++ calls.map (⟨service, i, ·⟩)
  compilers : KeepsCompilers h h'
  now : h'.now = h.now

theorem Turn.now (hturn : h.Turn i op r s b work site noted calls progress) :
    site.now = h.now := by
  cases hturn with
  | demand inlined id package progress => exact Site.now_demand h.site id package
  | _ => rfl

/-- To put a job where its progress takes it is a move of that job. -/
theorem moves_settle (i : JobId) (job : Job) (service : ServiceId) (calls : List CompilerCall)
    (allowance : Budget.Allowance) (progress : Progress) (hnow : site.now = h.now) :
    Moves h i ((h.asking service i site calls).settle i job service allowance progress) := by
  have hleave : KeepsCompilers h
      ((h.asking service i site calls).updateSlots service (·.leave i)) :=
    fun hs => updateSlots_services _ service (·.leave i) hs
  cases progress with
  | go budget work => exact ⟨⟨_, rfl⟩, ⟨service, calls, rfl⟩, fun hs => ⟨_, hs, rfl⟩, hnow⟩
  | done budget reply => exact ⟨⟨_, rfl⟩, ⟨service, calls, rfl⟩, hleave, hnow⟩
  | failed budget e => exact ⟨⟨_, rfl⟩, ⟨service, calls, rfl⟩, hleave, hnow⟩
  | broken => exact ⟨⟨_, rfl⟩, ⟨service, calls, rfl⟩, hleave, hnow⟩

theorem moves_startJob : Moves h i (h.startJob i job service allowance) := by
  have hstarts := h.startJob_starts i job service allowance
  generalize h.startJob i job service allowance = h' at hstarts ⊢
  cases hstarts with
  | refuse e =>
    have hmoves := moves_settle i job service [] allowance (.failed allowance.budget (.budget e))
      (Eq.refl h.site.now)
    rwa [asking_nil] at hmoves
  | queue =>
    exact ⟨⟨_, rfl⟩, ⟨service, [], (List.append_nil _).symm⟩,
      fun hs => updateSlots_services h service (·.enter i) hs, rfl⟩
  | prepare =>
    exact ⟨⟨_, rfl⟩, ⟨service, [], (List.append_nil _).symm⟩, fun hs => ⟨_, hs, rfl⟩, rfl⟩

/-- A job at work that moves takes a turn, and is put where it leads. -/
theorem moveJob?_turn (hstage : job.stage = .active service allowance work)
    (hmove : h.moveJob? i job = some h') :
    ∃ s site noted calls progress, h.services[service]? = some s ∧
      h.Turn i job.operation job.request s allowance.budget work site noted calls progress ∧
      h' = (h.asking service i site calls).settle i job service allowance progress := by
  rw [moveJob?_active hstage] at hmove
  obtain ⟨s, hs, hmove⟩ := Option.bind_eq_some_iff.mp hmove
  obtain ⟨⟨h₁, progress⟩, hproceed, rfl⟩ := Option.map_eq_some_iff.mp hmove
  obtain ⟨site, noted, calls, hout, hturn⟩ := takes_proceed? hproceed
  obtain rfl : h₁ = h.asking service i site calls := hout
  exact ⟨s, site, noted, calls, progress, hs, hturn, rfl⟩

/-- A call is a move of a job that has just been put on the list. -/
theorem moves_engage? (hcall : h.engage? service op r terms allowance = some h') :
    Moves (h.enroll [⟨op, r, h.now, terms, .coming⟩]).1 h.jobs.length h' := by
  obtain ⟨s, -, rfl⟩ := Option.map_eq_some_iff.mp hcall
  exact moves_startJob

theorem moves_moveJob? (hmove : h.moveJob? i job = some h') : Moves h i h' := by
  cases moveJob?_jobTurn hmove with
  | start => exact moves_startJob
  | turnAway =>
    exact ⟨⟨_, rfl⟩, ⟨0, [], (List.append_nil _).symm⟩, fun hs => ⟨_, hs, rfl⟩, rfl⟩
  | work service s allowance work h₁ progress hstage hs hproceed =>
    obtain ⟨site, noted, calls, rfl, hturn⟩ := takes_proceed? hproceed
    exact moves_settle i job service calls allowance progress hturn.now

theorem asked_append (hconsultations : h'.consultations = h.consultations ++
    calls.map (⟨service, i, ·⟩)) (j : JobId) :
    h'.asked j = h.asked j ++ if i = j then calls.map (⟨service, i, ·⟩) else [] := by
  unfold asked
  rw [hconsultations, List.filter_append]
  congr 1
  split
  · rename_i hij
    simp [hij]
  · rename_i hij
    simp [hij]

theorem Moves.jobs_of_ne (hmoves : Moves h i h') (hij : i ≠ j) : h'.jobs[j]? = h.jobs[j]? := by
  obtain ⟨stage, hjobs⟩ := hmoves.jobs
  rw [hjobs, jobs_place]
  simp only [if_neg hij, Option.map_id']

theorem Moves.asked_of_ne (hmoves : Moves h i h') (hij : i ≠ j) : h'.asked j = h.asked j := by
  obtain ⟨service, calls, hconsultations⟩ := hmoves.consultations
  rw [asked_append hconsultations, if_neg hij, List.append_nil]

/-- A job that is put at a stage is there. -/
theorem jobs_place_self (hj : h.jobs[j]? = some job) (stage : JobStage) :
    (h.place j stage).jobs[j]? = some { job with stage } := by
  rw [jobs_place, hj, Option.map_some, if_pos rfl]

/-- How job `j` meets an act. -/
inductive Meets (h : Hub) (j : JobId) (job : Job) (h' : Hub) : HubAct → Prop where
  | apart (a : HubAct) (hj : h'.jobs[j]? = some job) (hasked : h'.asked j = h.asked j) :
      Meets h j job h' a
  | moves (hmove : h.moveJob? j job = some h') : Meets h j job h' (.move j)
  | cancelled (service : ServiceId) (a : Budget.Allowance) (work : Work)
      (hstage : job.stage = .active service a work)
      (hplace : h' = h.place j (.active service { a with budget := a.budget.cancel } work)) :
      Meets h j job h' (.cancel j)

theorem meets_of_act (hj : h.jobs[j]? = some job) (hact : h.act? a = some h') :
    h.Meets j job h' a := by
  cases act?_turn hact with
  | move i job' hi hmove =>
    by_cases hij : i = j
    · subst hij
      obtain rfl := Option.some.inj (hi.symm.trans hj)
      exact .moves hmove
    · have hmoves := moves_moveJob? hmove
      exact .apart _ ((hmoves.jobs_of_ne hij).trans hj) (hmoves.asked_of_ne hij)
  | cancel i job' service allowance work hi hstage =>
    by_cases hij : i = j
    · subst hij
      obtain rfl := Option.some.inj (hi.symm.trans hj)
      exact .cancelled service allowance work hstage rfl
    · refine .apart _ ?_ rfl
      rw [jobs_place, hj, Option.map_some, if_neg hij]
  | come => exact .apart _ (jobs_enroll hj _) rfl
  | call service op r terms hcall =>
    have hmoves := moves_engage? hcall
    have hne : h.jobs.length ≠ j := fun hlength => by
      have hlt := (List.getElem?_eq_some_iff.mp hj).1
      omega
    exact .apart _ ((hmoves.jobs_of_ne hne).trans (jobs_enroll hj _)) (hmoves.asked_of_ne hne)
  | _ => exact .apart _ hj rfl

/-- Services keep their compilers, and the clock never goes back. -/
theorem compilers_of_act (hact : h.act? a = some h') : KeepsCompilers h h' ∧ h.now ≤ h'.now := by
  cases act?_turn hact with
  | move i job hi hmove =>
    have hmoves := moves_moveJob? hmove
    exact ⟨hmoves.compilers, Nat.le_of_eq hmoves.now.symm⟩
  | call service op r terms hcall =>
    have hmoves := moves_engage? hcall
    exact ⟨hmoves.compilers, Nat.le_of_eq hmoves.now.symm⟩
  | employ s =>
    refine ⟨fun {k s'} hs => ⟨s', ?_, rfl⟩, Nat.le_refl _⟩
    show (h.services ++ [s])[k]? = some s'
    rw [List.getElem?_append_left (List.getElem?_eq_some_iff.mp hs).1, hs]
  | site sa hsite => exact ⟨fun hs => ⟨_, hs, rfl⟩, Site.now_le_of_act hsite⟩
  | _ => exact ⟨fun hs => ⟨_, hs, rfl⟩, Nat.le_refl _⟩

end Hub

end Playground
