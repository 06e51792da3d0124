import Mathlib.Data.List.Induction
import Playground.Proofs.Hub.Run
import Playground.Proofs.Site.Rebuilding
/-!
# An overrun is always the caller's own

Budgets run out in many places: in queues, at lock files, while a builder works, in the races of
callers and of requests.  What a caller or a client is told of as an overrun is always one of the
budget that it has granted itself.  A build that overruns its time has failed, and stays so for
everybody until its package is invalidated.
-/

namespace Playground

/-- The diagnostics that a reply carries. -/
def Reply.messages : Reply → List Diagnostic
  | compile r => r.diagnostics
  | run r => r.diagnostics
  | diagnostics r => r.diagnostics
  | completions r => r.diagnostics
  | signatureHelp r => r.diagnostics

theorem Operation.messages_failure (op : Operation) (requestId : String) (e : ServiceError) :
    (op.failure requestId e).messages = [e.toDiagnostic] := by
  cases op with
  | build goal => cases goal <;> rfl
  | ask query => cases query <;> rfl

namespace Hub

open Site (NoOverrun)

variable {start h h' : Hub} {acts : List HubAct} {a : HubAct} {i : PartyId} {j : JobId} {job : Job}
  {t : Instant} {b : Budget} {c : Call} {e : Budget.Exceeded} {id : PackageId} {n : BuildId}

/-! ## 1. Callers at the site -/

theorem granted_of_run {epoch : Nat} {tree : FileTree}
    (hrun : (Hub.start epoch tree).run? acts = some h) : h.site.Granted := by
  have hboth : Sound h ∧ h.site.Granted := by
    refine run?_preserves (P := fun h => Sound h ∧ h.site.Granted) (fun {h a h'} hact hP => ?_) hrun
      ⟨.start epoch tree, fun i c a hi => by cases hi⟩
    obtain ⟨hs, hgranted⟩ := hP
    refine ⟨hs.act hact, ?_⟩
    rcases site_of_act hs hact with ⟨sa, -, hsite⟩ | hsite | ⟨id, p, -, hsite⟩
    · exact hgranted.act hs.site hsite
    · rw [hsite]
      exact hgranted
    · unfold Site.Granted
      rw [hsite, Site.call?_demand]
      exact hgranted
  exact hboth.2

/-- Call `i` was answered with an overrun at time `t`, when it moved; it had a budget granted on its
own terms, which had run out. -/
def OwnOverrun (start : Hub) (acts : List HubAct) (i : PartyId) (c : Call) (t : Instant)
    (e : Budget.Exceeded) : Prop :=
  ∃ before rest h₁ c₁ b, acts = before ++ .site (.move i) :: rest ∧ start.run? before = some h₁ ∧
    t = h₁.now ∧ h₁.site.call? i = some c₁ ∧ c₁.budget? t = some b ∧ c.terms.Granted b ∧
    b.Overran t e

theorem ownOverrun_of_run {epoch : Nat} {tree : FileTree}
    (hrun : (Hub.start epoch tree).run? acts = some h) (hi : h.site.call? i = some c)
    (hstage : c.stage = .answered t (.error (.budget e))) :
    OwnOverrun (.start epoch tree) acts i c t e := by
  -- on the acts from their end: either the last one has brought the answer, or it was there before
  induction acts using List.reverseRecOn generalizing h with
  | nil =>
    rw [← Option.some.inj hrun] at hi
    cases hi
  | append_singleton acts a ih =>
    rw [run?_concat] at hrun
    obtain ⟨h₁, hfirst, hact⟩ := Option.bind_eq_some_iff.mp hrun
    have hs := sound_of_run hfirst
    have hold : h₁.site.call? i = some c →
        OwnOverrun (.start epoch tree) (acts ++ [a]) i c t e := by
      intro hi
      obtain ⟨before, rest, h₀, c₁, b, rfl, hbefore⟩ := ih hfirst hi
      exact ⟨before, rest ++ [a], h₀, c₁, b, by simp, hbefore⟩
    rcases site_of_act hs hact with ⟨sa, rfl, hsite⟩ | hsite | ⟨id, p, -, hsite⟩
    · rcases Site.overran_of_answer hs.site hsite hi hstage with hi | ⟨rfl, ht, c₁, b, hi₁, hown⟩
      · exact hold hi
      · obtain ⟨hterms, hb, hover⟩ := hown
        refine ⟨acts, [], h₁, c₁, b, rfl, hfirst, ht, hi₁, hb, ?_, hover⟩
        rw [hterms]
        exact (granted_of_run hfirst).budget? hi₁ hb
    · exact hold (hsite ▸ hi)
    · rw [hsite, Site.call?_demand] at hi
      exact hold hi

/-! ## 2. Requests -/

/-- The id of a diagnostic comes from the compiler, which was asked on behalf of the request. -/
def FromCompiler (h : Hub) (j : JobId) (r : Request) (d : Diagnostic) : Prop :=
  ∃ c p, h.Compiles j r c p ∧ ∃ raw ∈ c.output.diagnostics, d.id = raw.id

theorem Earned.fromCompiler {op : Operation} {r : Request} {reply : Reply} {d : Diagnostic}
    (hearned : h.Earned j op r reply) (hd : d ∈ reply.messages) (hid : d.id = "BudgetExceeded") :
    h.FromCompiler j r d := by
  have hreported : ∀ {c p}, h.Compiles j r c p → d ∈ c.reported → h.FromCompiler j r d := by
    intro c p hc hd
    rcases hc.faithful.mem_reported hd with rfl | hraw
    · -- the service's own diagnostic has another id
      exact absurd hid (by decide)
    · exact ⟨c, p, hc, hraw⟩
  have hshown : ∀ {c p}, h.Compiles j r c p → d ∈ c.mapped.inActiveBuffer →
      h.FromCompiler j r d := fun hc hd => hreported hc (List.mem_append_left _ hd)
  cases hearned with
  | compile c p _ hc => exact hreported hc hd
  | diagnostics c p _ hc => exact hreported hc hd
  | failedRun c p _ hc => exact hshown hc hd
  | ran c p ran _ hc => exact hshown hc hd
  | completions => cases hd
  | signatureHelp => cases hd

/-! ## 3. Builds -/

/-- Job `j` can move, and is answered with the failure of a package then. -/
def Turns (h : Hub) (j : JobId) (job : Job) (e : PackageError) : Prop :=
  ∃ h' b, h.act? (.move j) = some h' ∧ h'.jobs[j]? = some { job with
    stage := .answered h.now b (.ok (job.operation.failure job.request.requestId (.package e))) }

/-- Everybody who asks for the package, or waits for its build, is told of the failure. -/
structure Reports (h : Hub) (id : PackageId) (n : BuildId) (e : PackageError) : Prop where
  phase : h.site.phase? id = some (.faulted e)
  calls : ∀ i c a, h.site.call? i = some c → c.package = id → c.stage = .asking a →
    ∃ h', h.act? (.site (.move i)) = some h' ∧
      h'.site.call? i = some { c with stage := .answered h.now (.error e) }
  jobs : ∀ j job service a inlined, h.jobs[j]? = some job →
    job.stage = .active service a .preparing → a.budget.isExceeded h.now = false →
    inline job.request.workspace job.request.activeBufferId = .ok inlined →
    h.registry.find? job.request.workspace.workspaceType = some id → h.Turns j job e
  waiting : ∀ j job service a inlined, h.jobs[j]? = some job →
    job.stage = .active service a (.awaiting inlined id n) → a.budget.cancelled = false →
    (∃ o, h.site.outcome? n = some o) → h.Turns j job e

theorem Turns.of_proceed? {service : ServiceId} {allowance : Budget.Allowance} {work : Work}
    {error : PackageError} (site : Site) (b : Budget) (hs : Sound h) (hi : h.jobs[j]? = some job)
    (hstage : job.stage = .active service allowance work) (hnow : site.now = h.now)
    (hproceed : ∀ s, h.proceed? j job service s allowance.budget work =
      some ({ h with site }, .failed b (.package error))) : h.Turns j job error := by
  have hvalid := hs.jobs j job hi
  rw [hstage] at hvalid
  cases hvalid with
  | active _ _ _ hservice _ _ =>
    obtain ⟨s, hservice⟩ := hservice
    have hmove : h.moveJob? j job = some (({ h with site } : Hub).settle j job service allowance
        (.failed b (.package error))) := by
      rw [moveJob?_active hstage, hservice, Option.bind_some, hproceed]
      rfl
    have hact : h.act? (.move j) = h.moveJob? j job := by rw [act?, hi, Option.bind_some]
    have hsame : ({ h with site } : Hub).now = h.now := hnow
    have hjobs : (({ h with site } : Hub).updateSlots service (·.leave j)).jobs[j]? = some job := hi
    refine ⟨_, b, hact.trans hmove, ?_⟩
    rw [settle, jobs_place, hjobs, Option.map_some, if_pos rfl, hsame]

theorem reports_of_settled {error : PackageError} (hs : Sound h)
    (ho : h.site.published? n = some (.error error)) (hstands : h.site.Stands id n) :
    h.Reports id n error := by
  obtain ⟨p, hp, hphase, hclean⟩ := hstands.settled hs.site ho
  have hfaulted : p.lifecycle.phase = .faulted error := by
    cases hp : p.lifecycle.phase with
    | faulted e =>
      rw [hp] at hphase
      rw [Except.error.inj (Option.some.inj hphase)]
    | _ => rw [hp] at hphase; cases hphase
  refine ⟨?_, ?_, ?_, ?_⟩
  · rw [Site.phase?, Site.lives_getElem?, hp]
    exact congrArg some hfaulted
  · rintro i c a hi rfl hc
    obtain ⟨site, hact, hi'⟩ := Site.act?_asking_settled hi hc hp hphase hclean
    refine ⟨{ h with site }, ?_, hi'⟩
    rw [act?, hact]
    rfl
  · intro j job service a inlined hj hstage hbudget hinlined hfind
    -- the check before the demand finds time left, as nothing but the log has changed
    have hrecord : ∀ name, (a.budget.record h.now name).isExceeded h.now = false := fun name =>
      ((Budget.Alike.record a.budget h.now name).isExceeded h.now).trans hbudget
    have hdemand : h.site.demand id p =
        (h.site.withLife id p.lifecycle, .settled (.error error)) := by
      rw [Site.demand, Lifecycle.demand_of_settled hphase hclean]
      rfl
    refine Turns.of_proceed? (h.site.withLife id p.lifecycle)
      (a.budget.record h.now "server.inline") hs hj hstage rfl fun s => ?_
    rw [proceed?, prepare]
    unfold checked Budget.recordAndCheck
    dsimp only
    rw [Budget.ensureWithin_of_not_isExceeded (hrecord _)]
    dsimp only
    rw [hinlined, Registry.find, hfind]
    dsimp only
    rw [hp]
    dsimp only
    rw [askForPackage, Budget.ensureWithin_of_not_isExceeded (hrecord _)]
    dsimp only
    rw [hdemand]
  · rintro j job service a inlined hj hstage hcancelled ⟨o, hout⟩
    -- what comes of the build is what it has settled its package with
    obtain rfl : o = .error error := by
      have hpublished := Site.published?_of_outcome? hout
      rw [ho] at hpublished
      exact (Option.some.inj hpublished).symm
    refine Turns.of_proceed? h.site a.budget hs hj hstage rfl fun s => ?_
    rw [proceed?, hout, Budget.poll_some_of_not_cancelled hcancelled]

theorem timed_of_run {epoch : Nat} {tree : FileTree}
    (hrun : (Hub.start epoch tree).run? acts = some h) : h.site.Timed := by
  have hboth : Sound h ∧ h.site.Timed := by
    refine run?_preserves (P := fun h => Sound h ∧ h.site.Timed) (fun {h a h'} hact hP => ?_) hrun
      ⟨.start epoch tree, fun n b budget hb => by cases hb⟩
    obtain ⟨event, hpassage, -⟩ := passage_of_act hP.1 hact
    exact ⟨hP.1.act hact, hP.2.passage hpassage⟩
  exact hboth.2

/-! ## 4. Overruns in a run -/

/-- Whose overruns a run from `start` to `h` tells of. -/
structure OwnOverruns (start : Hub) (acts : List HubAct) (h : Hub) : Prop where
  /-- No package is settled with an overrun. -/
  cached : ∀ id error, h.site.phase? id = some (.faulted error) → ∀ e, error ≠ .budget e
  /-- A caller who is answered with an overrun has overrun a budget of its own. -/
  calls : ∀ i c t e, h.site.call? i = some c → c.stage = .answered t (.error (.budget e)) →
    OwnOverrun start acts i c t e
  /-- A reply carries the diagnostic of an overrun only if the request's own budget had run out when
  it was given.  Diagnostics of the compiler may have any id. -/
  requests : ∀ j job t b reply, h.jobs[j]? = some job → job.stage = .answered t b (.ok reply) →
    job.terms.Granted b ∧ ∀ d ∈ reply.messages, d.id = "BudgetExceeded" →
      b.isExceeded t = true ∨ h.FromCompiler j job.request d
  /-- A build that waits for a lock or for its builder when its time is up overruns it; the time is
  what the options of its package allow. -/
  waits : ∀ n b p budget, h.site.build? n = some b → h.site.package? b.package = some p →
    h.site.Waits n p b.stage budget → budget.deadline.any (Clock.hasFired h.now) = true →
    (∃ since, budget = .withTimeout since p.options.buildTimeout) ∧
      ∃ e, h.site.overrun? n b p = some e ∧ budget.Overran h.now e
  /-- A build that has overrun its time is from then on reported as one that has failed, unless an
  invalidation of its package has been accepted since before it was scheduled. -/
  timedOut : ∀ before between after h₁ h₂ n b p e,
    acts = before ++ (between ++ .site (.move n) :: after) → start.run? before = some h₁ →
    h₁.site.build? n = none → h₁.Spares b.package (between ++ .site (.move n) :: after) →
    h₁.run? between = some h₂ → h₂.site.build? n = some b →
    h₂.site.package? b.package = some p → h₂.site.overrun? n b p = some e →
    h.Reports b.package n (.buildFailed p.name e.timedOut)
  /-- What is reported then has the id of a failed build. -/
  id : ∀ op requestId name reason, ∀ d ∈
    (Operation.failure requestId (.package (.buildFailed name reason)) op).messages,
    d.id = "PackageBuildFailed"

theorem requests_of_sound {reply : Reply} (hs : Sound h) (hj : h.jobs[j]? = some job)
    (hstage : job.stage = .answered t b (.ok reply)) :
    job.terms.Granted b ∧ ∀ d ∈ reply.messages, d.id = "BudgetExceeded" →
      b.isExceeded t = true ∨ h.FromCompiler j job.request d := by
  have hvalid := hs.jobs j job hj
  rw [hstage] at hvalid
  cases hvalid with
  | answered _ _ _ hgranted hanswer =>
    refine ⟨hgranted, fun d hd hid => ?_⟩
    cases hanswer with
    | failure e he =>
      rw [Operation.messages_failure, List.mem_singleton] at hd
      rw [hd] at hid
      cases he with
      | overrun _ hexceeded => exact .inl hexceeded
      | caused hnone =>
        rw [ServiceError.id_eq_budgetExceeded.mp hid] at hnone
        cases hnone
    | earned _ hreply => exact .inr (hreply.fromCompiler hd hid)

theorem reports_of_overrun {between after : List HubAct} {h₁ h₂ : Hub} {build : Build}
    {p : Package} (hs : Sound h₁) (hrun : h₁.run? (between ++ .site (.move n) :: after) = some h)
    (hnone : h₁.site.build? n = none)
    (hspared : h₁.Spares build.package (between ++ .site (.move n) :: after))
    (hbetween : h₁.run? between = some h₂) (hb : h₂.site.build? n = some build)
    (hp : h₂.site.package? build.package = some p)
    (he : h₂.site.overrun? n build p = some e) :
    h.Reports build.package n (.buildFailed p.name e.timedOut) := by
  -- the build stands to the end, since nobody has invalidated its package
  have hstands := stands_of_run hs hrun hspared fun b hb => by rw [hnone] at hb; cases hb
  have hend := hs.run hrun
  have hs₂ := hs.run hbetween
  rw [run?_append, hbetween, Option.bind_some] at hrun
  obtain ⟨h₃, hact, hafter⟩ := Option.bind_eq_some_iff.mp hrun
  have hlasts := outlasts_of_run (hs₂.act hact) hafter
  obtain ⟨site, hsite, rfl⟩ := Option.map_eq_some_iff.mp hact
  -- its move settles the package with a failed build, and that stays so
  obtain ⟨site', hsite', hpublished⟩ := Site.published?_of_overrun hb hp he
  obtain rfl := Option.some.inj (hsite'.symm.trans hsite)
  obtain ⟨b', hb', hid⟩ := (Site.Passage.act hsite').outlasts.builds hb
  obtain ⟨b'', hb'', hid'⟩ := hlasts.builds hb'
  exact reports_of_settled hend (hlasts.published hpublished)
    (hstands b'' hb'' (hid'.trans hid))

/-- In every run that begins on a hub on which nobody has done anything, an overrun is always the
caller's own. -/
theorem own_overruns (epoch : Nat) (tree : FileTree) (acts : List HubAct) (h : Hub)
    (hrun : (Hub.start epoch tree).run? acts = some h) :
    OwnOverruns (.start epoch tree) acts h := by
  have hs : Sound h := sound_of_run hrun
  refine
    { cached := ?_
      calls := fun i c t e => ownOverrun_of_run hrun
      requests := fun j job t b reply => requests_of_sound hs
      waits := ?_
      timedOut := ?_
      id := ?_ }
  · rintro id error hphase e rfl
    exact hs.site.phases id _ _ hphase rfl e rfl
  · intro n b p budget hb hp hwaits hfired
    obtain ⟨p', since, hp', hbudget⟩ := timed_of_run hrun n b budget hb hwaits.budget?
    obtain rfl := Option.some.inj (hp'.symm.trans hp)
    exact ⟨⟨since, hbudget⟩, Site.overrun?_of_waits hwaits hfired⟩
  · rintro before between after h₁ h₂ n b p e rfl hbefore hnone hspared hbetween hb hp he
    rw [run?_append, hbefore, Option.bind_some] at hrun
    exact reports_of_overrun (sound_of_run hbefore) hrun hnone hspared hbetween hb hp he
  · intro op requestId name reason d hd
    rw [Operation.messages_failure, List.mem_singleton] at hd
    rw [hd]
    rfl

/-- A compiler that never answers. -/
def silent : Compiler where
  compile _ := ⟨none, .error ""⟩
  run _ := ⟨none, .error ""⟩
  completions := none
  signatureHelp := none

/-- The build of a package gets one second, which is over before the build has its lock.  A second
client asks for the package then. -/
def timedOutRun : List HubAct :=
  let request : Request := ⟨.new "p", ⟨"", none⟩, "r", none⟩
  let terms : Budget.Terms := ⟨none, false, none⟩
  [.site (.provide fun _ _ => ⟨none, fun t => (.broken, t)⟩),
    .site (.found "p" "p" 0 ⟨.never, Clock.second⟩), .list 0,
    .employ ⟨.csharp, silent, .ofPermits 1⟩, .call 0 (.build .compile) request terms, .move 0,
    .site (.move 0), .site (.wait Clock.second), .site (.move 0),
    .call 0 (.build .compile) request terms, .move 1]

theorem own_overruns_timedOutRun :
    ∃ h, (Hub.start 0 .empty).run? timedOutRun = some h ∧
      h.site.phase? 0 = some (.faulted (.buildFailed "p" "timed out at lock.acquire after 1s")) ∧
      OwnOverruns (.start 0 .empty) timedOutRun h :=
  ⟨_, rfl, rfl, own_overruns 0 .empty timedOutRun _ rfl⟩

end Hub

end Playground
