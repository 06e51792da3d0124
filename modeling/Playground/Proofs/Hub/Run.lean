import Playground.Proofs.Hub.Step
import Playground.Proofs.Site.Serving
/-!
# Runs of a hub

Jobs, callers, builds and everybody else at the site move one step at a time and in any order.  What
a job relies on outlasts every step, so in every run each answer is one that the job has earned, or
tells of a failure; and only a job whose own budget has run out fails with an overrun.
-/

namespace Playground

/-- What can happen on a hub. -/
inductive HubAct where
  /-- A job goes on. -/
  | move (i : JobId)
  /-- A client cancels the budget of its request. -/
  | cancel (i : JobId)
  | come (operation : Operation) (request : Request) (start : Instant) (terms : Budget.Terms)
  /-- A client calls a service itself, whatever the language of its request. -/
  | call (service : ServiceId) (operation : Operation) (request : Request) (terms : Budget.Terms)
  | employ (s : Service)
  /-- A package is registered under its name. -/
  | list (id : PackageId)
  | site (a : Act)

/-- How many moves of its own are left to a job at most. -/
@[simp] def JobStage.left : JobStage → Nat
  | coming => 7
  | active _ _ work => work.left + 1
  | _ => 0

/-- Whether a service has taken the job up, and has not turned it away. -/
def JobStage.isTaken : JobStage → Bool
  | coming => false
  | answered _ _ (.error _) => false
  | _ => true

namespace Hub

variable {h h' h'' h₁ : Hub} {a : HubAct} {i : JobId} {op : Operation} {r : Request}
  {terms : Budget.Terms} {job : Job} {stage : JobStage} {service : ServiceId} {s : Service}
  {b : Budget} {allowance : Budget.Allowance} {work : Work} {k : Nat}

/-! ## 1. Acts -/

/-- Cancels the budget of a job at work. -/
def cancelJob? (h : Hub) (i : JobId) : Option Hub :=
  h.jobs[i]?.bind fun job =>
    match job.stage with
    | .active service a work =>
        some (h.place i (.active service { a with budget := a.budget.cancel } work))
    | _ => none

/-- Adds a job and starts the work on it. -/
def call? (h : Hub) (service : ServiceId) (operation : Operation) (request : Request)
    (terms : Budget.Terms) : Option Hub :=
  h.services[service]?.map fun _ =>
    let job : Job := ⟨operation, request, h.now, terms, .coming⟩
    (h.enroll [job]).1.startJob h.jobs.length job service (terms.grant h.now)

/-- The hub after an act, if the act is possible. -/
def act? (h : Hub) : HubAct → Option Hub
  | .move i => h.jobs[i]?.bind (h.moveJob? i)
  | .cancel i => h.cancelJob? i
  | .come operation request start terms =>
      some (h.enroll [⟨operation, request, start, terms, .coming⟩]).1
  | .call service operation request terms => h.call? service operation request terms
  | .employ s => some (h.register s).1
  | .list id =>
      (h.site.package? id).map fun p =>
        { h with registry := (h.registry.register p.name id).1 }
  | .site a => (h.site.act? a).map fun site => { h with site }

/-- The hub after some acts, if they are possible one after the other. -/
def run? (h : Hub) : List HubAct → Option Hub
  | [] => some h
  | a :: acts => (h.act? a).bind (·.run? acts)

/-- A hub on which nobody has done anything. -/
def start (epoch : Nat) (tree : FileTree) : Hub :=
  .empty ⟨.empty epoch tree, .empty⟩

/-- What an act does to a hub. -/
inductive HubTurn (h : Hub) : HubAct → Hub → Prop where
  | move {h' : Hub} (i : JobId) (job : Job) (hi : h.jobs[i]? = some job)
      (hmove : h.moveJob? i job = some h') : HubTurn h (.move i) h'
  | cancel (i : JobId) (job : Job) (service : ServiceId) (a : Budget.Allowance) (work : Work)
      (hi : h.jobs[i]? = some job) (hstage : job.stage = .active service a work) :
      HubTurn h (.cancel i) (h.place i (.active service { a with budget := a.budget.cancel } work))
  | come (op : Operation) (r : Request) (start : Instant) (terms : Budget.Terms) :
      HubTurn h (.come op r start terms) (h.enroll [⟨op, r, start, terms, .coming⟩]).1
  | call {h' : Hub} (service : ServiceId) (op : Operation) (r : Request) (terms : Budget.Terms)
      (hcall : h.call? service op r terms = some h') : HubTurn h (.call service op r terms) h'
  | employ (s : Service) : HubTurn h (.employ s) (h.register s).1
  | list (id : PackageId) (p : Package) (hp : h.site.package? id = some p) :
      HubTurn h (.list id) { h with registry := (h.registry.register p.name id).1 }
  | site {site : Site} (sa : Act) (hsite : h.site.act? sa = some site) :
      HubTurn h (.site sa) { h with site }

theorem act?_turn (hact : h.act? a = some h') : h.HubTurn a h' := by
  cases a with
  | move i =>
    obtain ⟨job, hi, hmove⟩ := Option.bind_eq_some_iff.mp hact
    exact .move i job hi hmove
  | cancel i =>
    obtain ⟨job, hi, hcancel⟩ := Option.bind_eq_some_iff.mp hact
    split at hcancel
    · rename_i service allowance work hstage
      rw [← Option.some.inj hcancel]
      exact .cancel i job service allowance work hi hstage
    · cases hcancel
  | come op r start terms =>
    rw [← Option.some.inj hact]
    exact .come op r start terms
  | call service op r terms => exact .call service op r terms hact
  | employ s =>
    rw [← Option.some.inj hact]
    exact .employ s
  | list id =>
    obtain ⟨p, hp, rfl⟩ := Option.map_eq_some_iff.mp hact
    exact .list id p hp
  | site sa =>
    obtain ⟨site, hsite, rfl⟩ := Option.map_eq_some_iff.mp hact
    exact .site sa hsite

theorem run?_append (h : Hub) (before after : List HubAct) :
    h.run? (before ++ after) = (h.run? before).bind (·.run? after) := by
  induction before generalizing h with
  | nil => rfl
  | cons a before ih =>
    rw [List.cons_append, run?, run?, Option.bind_assoc]
    exact congrArg _ (funext ih)

theorem run?_concat (h : Hub) (acts : List HubAct) (a : HubAct) :
    h.run? (acts ++ [a]) = (h.run? acts).bind (·.act? a) := by
  rw [run?_append]
  refine congrArg _ (funext fun h₁ => ?_)
  exact Option.bind_fun_some (h₁.act? a)

/-- What every act preserves, every run preserves. -/
theorem run?_preserves {P : Hub → Prop} (hact : ∀ {h a h'}, h.act? a = some h' → P h → P h')
    {acts : List HubAct} (hrun : h.run? acts = some h') (hP : P h) : P h' := by
  induction acts generalizing h with
  | nil => exact Option.some.inj hrun ▸ hP
  | cons a acts ih =>
    obtain ⟨h₁, hfirst, hrest⟩ := Option.bind_eq_some_iff.mp hrun
    exact ih hrest (hact hfirst hP)

/-! ## 2. What outlasts acts -/

/-- What the first of two hubs has, the second has as well. -/
structure Extends (h h' : Hub) : Prop where
  site : h.site.Outlasts h'.site
  services : ∀ {k : ServiceId} {s : Service}, h.services[k]? = some s →
    ∃ s', h'.services[k]? = some s' ∧ s'.compiler = s.compiler
  consultations : ∀ {c}, c ∈ h.consultations → c ∈ h'.consultations

theorem Extends.of_site {site : Site} (hsite : h.site.Outlasts site) :
    Extends h { h with site } :=
  ⟨hsite, fun hs => ⟨_, hs, rfl⟩, id⟩

theorem Extends.place (h : Hub) (i : JobId) (stage : JobStage) : Extends h (h.place i stage) :=
  ⟨.refl _, fun hs => ⟨_, hs, rfl⟩, id⟩

theorem Advances.extends (hadvances : Advances h h') : Extends h h' where
  site := by
    rcases hadvances.site with hsite | ⟨id, p, hp, hsite⟩
    · rw [hsite]
      exact .refl _
    · rw [hsite]
      exact (Site.Passage.of_demand hp).outlasts
  services := hadvances.services
  consultations hc := hadvances.consultations.subset hc

theorem updateSlots_services (h : Hub) (service : ServiceId) (change : Slots → Slots)
    (hs : h.services[k]? = some s) :
    ∃ s', (h.updateSlots service change).services[k]? = some s' ∧ s'.compiler = s.compiler := by
  rw [updateSlots, List.getElem?_modify, hs]
  refine ⟨_, rfl, ?_⟩
  split <;> rfl

theorem Advances.updateSlots (hadvances : Advances h h') (service : ServiceId)
    (change : Slots → Slots) : Advances h (h'.updateSlots service change) where
  site := hadvances.site
  registry := hadvances.registry
  services hs := by
    obtain ⟨s', hs', hcompiler⟩ := hadvances.services hs
    obtain ⟨s'', hs'', hcompiler'⟩ := updateSlots_services h' service change hs'
    exact ⟨s'', hs'', hcompiler'.trans hcompiler⟩
  routes := hadvances.routes
  jobs := hadvances.jobs
  consultations := hadvances.consultations

theorem Asked.extend {p : Prepared} {reaction : Reaction CompileOutput}
    (hasked : h.Asked i p reaction) (hext : Extends h h') : h'.Asked i p reaction := by
  obtain ⟨service, s, hs, hconsulted, hreaction⟩ := hasked
  obtain ⟨s', hs', hcompiler⟩ := hext.services hs
  exact ⟨service, s', hs', hext.consultations hconsulted, hcompiler ▸ hreaction⟩

theorem Compiles.extend {c : Compiled} {p : Prepared} (hc : h.Compiles i r c p)
    (hext : Extends h h') : h'.Compiles i r c p where
  inlined := hc.inlined
  asked := hc.asked.imp fun _ hasked => ⟨hasked.1.extend hext, hasked.2⟩
  mapped := hc.mapped

theorem Relies.extend (hrelies : h.Relies i op r work) (hext : Extends h h') :
    h'.Relies i op r work := by
  cases hrelies with
  | queued hop => exact .queued hop
  | preparing => exact .preparing
  | awaiting inlined id n hinlined hp hn =>
    obtain ⟨p, hp⟩ := hp
    obtain ⟨build, hn, hid⟩ := hn
    obtain ⟨build', hn', hid'⟩ := hext.site.builds hn
    exact .awaiting inlined id n hinlined (hext.site.packages hp) ⟨build', hn', hid'.trans hid⟩
  | prepared p hinlined => exact .prepared p hinlined
  | compiling goal p reaction since hop hinlined hasked =>
    exact .compiling goal p reaction since hop hinlined (hasked.extend hext)
  | running c reaction since p hop hc => exact .running c reaction since p hop (hc.extend hext)
  | completing reaction since hop => exact .completing reaction since hop
  | helping reaction since hop => exact .helping reaction since hop

theorem Earned.extend {reply : Reply} (hearned : h.Earned i op r reply) (hext : Extends h h') :
    h'.Earned i op r reply := by
  cases hearned with
  | compile c p hop hc => exact .compile c p hop (hc.extend hext)
  | diagnostics c p hop hc => exact .diagnostics c p hop (hc.extend hext)
  | failedRun c p hop hc => exact .failedRun c p hop (hc.extend hext)
  | ran c p ran hop hc => exact .ran c p ran hop (hc.extend hext)
  | completions items hop => exact .completions items hop
  | signatureHelp help hop => exact .signatureHelp help hop

theorem Caused.extend {e : ServiceError} (hcaused : h.Caused i op r e) (hext : Extends h h') :
    h'.Caused i op r e := by
  cases hcaused with
  | inlining e he => exact .inlining e he
  | lookup => exact .lookup
  | package n e hn => exact .package n e (hext.site.published hn)
  | compiler p reaction reason hasked hresult =>
    exact .compiler p reaction reason (hasked.extend hext) hresult
  | mapping p reaction output b now e hasked hresult he =>
    exact .mapping p reaction output b now e (hasked.extend hext) hresult he
  | running reason hop => exact .running reason hop
  | place query hop => exact .place query hop
  | asking query reason hop => exact .asking query reason hop

theorem Fails.extend {e : ServiceError} {t : Instant} (hfails : h.Fails i op r b t e)
    (hext : Extends h h') : h'.Fails i op r b t e := by
  cases hfails with
  | overrun hover hexceeded => exact .overrun hover hexceeded
  | caused hover hcause => exact .caused hover (hcause.extend hext)

theorem Breaks.extend (hbreaks : h.Breaks r) (hext : Extends h h') : h'.Breaks r :=
  hbreaks.imp_right fun hoff => hoff.imp fun _ hoff => hext.site.offClock hoff

/-! ## 3. The invariant -/

/-- What a job is answered at a time, with its budget then. -/
inductive Deserves (h : Hub) (i : JobId) (op : Operation) (r : Request) (t : Instant) (b : Budget) :
    Except ServiceError Reply → Prop where
  | unsupported : Deserves h i op r t b (.error (.unsupportedLanguage r.workspace.language))
  | failure (e : ServiceError) (he : h.Fails i op r b t e) :
      Deserves h i op r t b (.ok (op.failure r.requestId e))
  | earned (reply : Reply) (hreply : h.Earned i op r reply) : Deserves h i op r t b (.ok reply)

/-- What holds of a job at some stage. -/
inductive Valid (h : Hub) (i : JobId) (op : Operation) (r : Request) (terms : Budget.Terms) :
    JobStage → Prop where
  | coming : Valid h i op r terms .coming
  | active (service : ServiceId) (a : Budget.Allowance) (work : Work)
      (hservice : ∃ s, h.services[service]? = some s) (hgranted : terms.Granted a.budget)
      (hwork : h.Relies i op r work) : Valid h i op r terms (.active service a work)
  | answered (t : Instant) (b : Budget) (answer : Except ServiceError Reply)
      (hgranted : terms.Granted b) (hanswer : h.Deserves i op r t b answer) :
      Valid h i op r terms (.answered t b answer)
  | broken (hbreaks : h.Breaks r) : Valid h i op r terms .broken

theorem Valid.extend (hvalid : h.Valid i op r terms stage) (hext : Extends h h') :
    h'.Valid i op r terms stage := by
  cases hvalid with
  | coming => exact .coming
  | active service a work hservice hgranted hwork =>
    obtain ⟨s, hs⟩ := hservice
    exact .active service a work ((hext.services hs).imp fun _ hs => hs.1) hgranted
      (hwork.extend hext)
  | answered t b answer hgranted hanswer =>
    refine .answered t b answer hgranted ?_
    cases hanswer with
    | unsupported => exact .unsupported
    | failure e he => exact .failure e (he.extend hext)
    | earned reply hreply => exact .earned reply (hreply.extend hext)
  | broken hbreaks => exact .broken (hbreaks.extend hext)

/-- What holds in every state of a run. -/
structure Sound (h : Hub) : Prop where
  site : h.site.Sound
  registry : ∀ entry ∈ h.registry.entries, ∃ p, h.site.package? entry.2 = some p
  routes : ∀ route ∈ h.routes, ∃ s, h.services[route.2]? = some s
  jobs : ∀ i job, h.jobs[i]? = some job → h.Valid i job.operation job.request job.terms job.stage

namespace Sound

theorem start (epoch : Nat) (tree : FileTree) : Sound (.start epoch tree) where
  site := .empty epoch tree
  registry _ hentry := absurd hentry List.not_mem_nil
  routes _ hroute := absurd hroute List.not_mem_nil
  jobs i job hi := by cases hi

theorem find (hs : Sound h) {name : String} {id : PackageId}
    (hfind : h.registry.find? name = some id) : ∃ p, h.site.package? id = some p := by
  obtain ⟨entry, hentry, rfl⟩ := Option.map_eq_some_iff.mp hfind
  exact hs.registry entry (List.mem_of_find?_eq_some hentry)

theorem route (hs : Sound h) {language : Language} (hroute : h.route? language = some service) :
    ∃ s, h.services[service]? = some s := by
  obtain ⟨route, hfind, rfl⟩ := Option.map_eq_some_iff.mp hroute
  exact hs.routes route (List.mem_of_find?_eq_some hfind)

end Sound

/-! ## 4. Moves of jobs -/

theorem moveJob?_coming (hstage : job.stage = .coming) :
    h.moveJob? i job =
      if Clock.hasFired h.now job.start then
        match h.route? job.request.workspace.language with
        | some service => some (h.startJob i job service (job.terms.grant h.now))
        | none => some (h.place i (.answered h.now (job.terms.grant h.now).budget
            (.error (.unsupportedLanguage job.request.workspace.language))))
      else none := by
  rw [moveJob?, hstage]
  dsimp only
  cases Clock.hasFired h.now job.start <;> rfl

theorem moveJob?_active (hstage : job.stage = .active service allowance work) :
    h.moveJob? i job = (h.services[service]?).bind fun s =>
      (h.proceed? i job service s allowance.budget work).map fun out =>
        out.1.settle i job service allowance out.2 := by
  rw [moveJob?, hstage]
  dsimp only [bind, pure]
  simp only [Option.map_eq_bind]
  rfl

/-- How the work on a request starts.  A job that runs a program gets in line for a slot. -/
inductive Starts (h : Hub) (i : JobId) (job : Job) (service : ServiceId) (a : Budget.Allowance) :
    Hub → Prop where
  | refuse (e : Budget.Exceeded) (hop : job.operation = .build .run)
      (hexceeded : a.budget.isExceeded h.now = true) :
      Starts h i job service a (h.settle i job service a (.failed a.budget (.budget e)))
  | queue (hop : job.operation = .build .run) (hin : a.budget.isExceeded h.now = false) :
      Starts h i job service a
        ((h.updateSlots service (·.enter i)).place i (.active service a .queued))
  | prepare (hop : job.operation ≠ .build .run) :
      Starts h i job service a (h.place i (.active service a .preparing))

theorem startJob_starts (h : Hub) (i : JobId) (job : Job) (service : ServiceId)
    (a : Budget.Allowance) : h.Starts i job service a (h.startJob i job service a) := by
  unfold startJob
  split
  · rename_i hop
    cases hin : a.budget.isExceeded h.now with
    | false =>
      rw [Budget.ensureWithin_of_not_isExceeded hin]
      exact .queue hop hin
    | true =>
      rw [Budget.ensureWithin_of_isExceeded hin]
      exact .refuse _ hop hin
  · exact .prepare ‹_›

/-- What becomes of a job that moves: it starts when it comes, if anybody speaks its language, and
then its work goes on. -/
inductive JobTurn (h : Hub) (i : JobId) (job : Job) : Hub → Prop where
  | start (service : ServiceId) (hstage : job.stage = .coming)
      (hroute : h.route? job.request.workspace.language = some service) :
      JobTurn h i job (h.startJob i job service (job.terms.grant h.now))
  | turnAway (hstage : job.stage = .coming)
      (hroute : h.route? job.request.workspace.language = none) :
      JobTurn h i job (h.place i (.answered h.now (job.terms.grant h.now).budget
        (.error (.unsupportedLanguage job.request.workspace.language))))
  | work (service : ServiceId) (s : Service) (a : Budget.Allowance) (work : Work) (h₁ : Hub)
      (progress : Progress) (hstage : job.stage = .active service a work)
      (hs : h.services[service]? = some s)
      (hproceed : h.proceed? i job service s a.budget work = some (h₁, progress)) :
      JobTurn h i job (h₁.settle i job service a progress)

theorem moveJob?_jobTurn (hmove : h.moveJob? i job = some h') : h.JobTurn i job h' := by
  cases hstage : job.stage with
  | coming =>
    rw [moveJob?_coming hstage] at hmove
    split at hmove
    · split at hmove
      · rw [← Option.some.inj hmove]
        exact .start _ hstage ‹_›
      · rw [← Option.some.inj hmove]
        exact .turnAway hstage ‹_›
    · cases hmove
  | active service allowance work =>
    rw [moveJob?_active hstage] at hmove
    obtain ⟨s, hs, hmove⟩ := Option.bind_eq_some_iff.mp hmove
    obtain ⟨⟨h₁, progress⟩, hproceed, rfl⟩ := Option.map_eq_some_iff.mp hmove
    exact .work service s allowance work h₁ progress hstage hs hproceed
  | answered t b answer =>
    rw [moveJob?, hstage] at hmove
    cases hmove
  | broken =>
    rw [moveJob?, hstage] at hmove
    cases hmove

theorem not_moveJob?_of_answered {t : Instant} {answer : Except ServiceError Reply}
    (hstage : job.stage = .answered t b answer) : h.moveJob? i job ≠ some h' := by
  rw [moveJob?, hstage]
  nofun

theorem not_moveJob?_of_broken (hstage : job.stage = .broken) : h.moveJob? i job ≠ some h' := by
  rw [moveJob?, hstage]
  nofun

/-- A move takes job `i` to a stage, and changes nothing else but what its work changes. -/
structure JobMove (h : Hub) (i : JobId) (job : Job) (h' : Hub) (stage : JobStage) : Prop where
  advances : ∃ h₁, Advances h h₁ ∧ h' = h₁.place i stage
  valid : h'.Valid i job.operation job.request job.terms stage
  left : stage.left < job.stage.left

theorem JobMove.of_settle {progress : Progress} (hadvances : Advances h h₁)
    (hstage : job.stage.left = k + 1) (hservice : ∃ s, h.services[service]? = some s)
    (hgranted : job.terms.Granted allowance.budget)
    (hleads : h₁.Leads i job.operation job.request allowance.budget k progress) :
    ∃ stage, stage.isTaken = true ∧
      JobMove h i job (h₁.settle i job service allowance progress) stage := by
  obtain ⟨s, hs⟩ := hservice
  have hover : 0 < job.stage.left := hstage ▸ Nat.succ_pos k
  -- a job that is over gives up its slot first
  have hleave := hadvances.updateSlots service (·.leave i)
  have hext : ∀ stage, Extends h₁ ((h₁.updateSlots service (·.leave i)).place i stage) := fun _ =>
    ⟨.refl _, fun hs => updateSlots_services h₁ service (·.leave i) hs, id⟩
  cases hleads with
  | go budget work hb hwork hleft =>
    obtain ⟨s', hs', -⟩ := hadvances.services hs
    refine ⟨_, rfl, ⟨h₁, hadvances, rfl⟩, ?_, hstage ▸ Nat.succ_lt_succ hleft⟩
    exact .active service _ work ⟨s', hs'⟩ (hgranted.alike hb) (hwork.extend (.place _ _ _))
  | done budget reply hb hreply =>
    refine ⟨_, rfl, ⟨_, hleave, rfl⟩, ?_, hover⟩
    exact .answered _ budget _ (hgranted.alike hb) (.earned reply (hreply.extend (hext _)))
  | failed budget e hb he =>
    refine ⟨_, rfl, ⟨_, hleave, rfl⟩, ?_, hover⟩
    exact .answered _ budget _ (hgranted.alike hb)
      (.failure e ((he.alike hb.symm).extend (hext _)))
  | broken hbreaks =>
    exact ⟨_, rfl, ⟨_, hleave, rfl⟩, .broken (hbreaks.extend (hext _)), hover⟩

theorem JobMove.of_startJob (hstage : job.stage = .coming)
    (hservice : ∃ s, h.services[service]? = some s)
    (hgranted : job.terms.Granted allowance.budget) :
    ∃ stage, stage.isTaken = true ∧
      JobMove h i job (h.startJob i job service allowance) stage := by
  have hleft : job.stage.left = 6 + 1 := by rw [hstage]; rfl
  obtain ⟨s, hs⟩ := hservice
  have hstarts := h.startJob_starts i job service allowance
  generalize h.startJob i job service allowance = h' at hstarts ⊢
  cases hstarts with
  | refuse e hop hexceeded =>
    exact JobMove.of_settle (.refl h) hleft ⟨s, hs⟩ hgranted
      (.failed _ _ (.refl _) (.overrun rfl hexceeded))
  | queue hop _ =>
    obtain ⟨s', hs', -⟩ := updateSlots_services h service (·.enter i) hs
    refine ⟨_, rfl, ⟨_, (Advances.refl h).updateSlots service (·.enter i), rfl⟩, ?_, ?_⟩
    · exact .active service allowance .queued ⟨s', hs'⟩ hgranted (.queued hop)
    · rw [hleft]
      simp
  | prepare =>
    refine ⟨_, rfl, ⟨h, .refl h, rfl⟩, .active service _ _ ⟨s, hs⟩ hgranted .preparing, ?_⟩
    rw [hleft]
    simp

/-- A client that calls a service has its job started. -/
theorem call?_move (hcall : h.call? service op r terms = some h') :
    ∃ stage, stage.isTaken = true ∧ JobMove (h.enroll [⟨op, r, h.now, terms, .coming⟩]).1
      h.jobs.length ⟨op, r, h.now, terms, .coming⟩ h' stage := by
  obtain ⟨s, hservice, rfl⟩ := Option.map_eq_some_iff.mp hcall
  exact JobMove.of_startJob rfl ⟨s, hservice⟩ (.grant terms h.now)

/-- Only a job that comes in a language that nobody speaks is turned away. -/
theorem moveJob?_move (hs : Sound h) (hi : h.jobs[i]? = some job)
    (hmove : h.moveJob? i job = some h') :
    ∃ stage, (stage.isTaken = true ∨
        job.stage = .coming ∧ h.route? job.request.workspace.language = none) ∧
      JobMove h i job h' stage := by
  have hvalid := hs.jobs i job hi
  cases moveJob?_jobTurn hmove with
  | start service hstage hroute =>
    obtain ⟨stage, htaken, hmoved⟩ :=
      JobMove.of_startJob hstage (hs.route hroute) (.grant job.terms h.now)
    exact ⟨stage, .inl htaken, hmoved⟩
  | turnAway hstage hroute =>
    refine ⟨_, .inr ⟨hstage, hroute⟩, ⟨h, .refl h, rfl⟩, ?_, ?_⟩
    · exact .answered _ _ _ (.grant job.terms h.now) .unsupported
    · rw [hstage]
      simp
  | work service s allowance work h₁ progress hstage hservice hproceed =>
    rw [hstage] at hvalid
    cases hvalid with
    | active _ _ _ hknown hgranted hwork =>
      obtain ⟨hadvances, hleads⟩ :=
        proceeds_proceed? hs.site (fun name id => hs.find) hservice hwork hproceed
      obtain ⟨stage, htaken, hmoved⟩ :=
        JobMove.of_settle hadvances (by rw [hstage]; rfl) hknown hgranted hleads
      exact ⟨stage, .inl htaken, hmoved⟩

/-! ## 5. Acts preserve the invariant -/

theorem jobs_place (h : Hub) (i : JobId) (stage : JobStage) (k : JobId) :
    (h.place i stage).jobs[k]? =
      (h.jobs[k]?).map fun job => if i = k then { job with stage } else job := by
  rw [place, List.getElem?_modify]
  cases h.jobs[k]? with
  | none => rfl
  | some job =>
    show some _ = some _
    split <;> rfl

namespace Sound

/-- A job comes to another stage, and what it relies on there is there. -/
theorem of_place (hs : Sound h) (hadvances : Advances h h₁) (hi : h.jobs[i]? = some job)
    (hvalid : (h₁.place i stage).Valid i job.operation job.request job.terms stage) :
    Sound (h₁.place i stage) := by
  have hext : Extends h (h₁.place i stage) :=
    ⟨hadvances.extends.site, hadvances.extends.services, hadvances.extends.consultations⟩
  refine ⟨?_, fun entry hentry => ?_, fun route hroute => ?_, fun k job' hk => ?_⟩
  · rcases hadvances.site with hsite | ⟨id, p, hp, hsite⟩
    · exact hsite ▸ hs.site
    · exact hsite ▸ hs.site.of_builds (Site.Passage.of_demand hp).builds
  · obtain ⟨p, hp⟩ := hs.registry entry (hadvances.registry ▸ hentry)
    exact hext.site.packages hp
  · obtain ⟨s, hs⟩ := hs.routes route (hadvances.routes ▸ hroute)
    exact (hext.services hs).imp fun _ hs => hs.1
  · rw [jobs_place, hadvances.jobs] at hk
    obtain ⟨job₀, hjob₀, rfl⟩ := Option.map_eq_some_iff.mp hk
    split
    · rename_i heq
      subst heq
      obtain rfl := Option.some.inj (hi.symm.trans hjob₀)
      exact hvalid
    · exact (hs.jobs k job₀ hjob₀).extend hext

/-- What happens around the jobs leaves them valid. -/
theorem of_extends (hs : Sound h) (hext : Extends h h') (hsite : h'.site.Sound)
    (hregistry : ∀ entry ∈ h'.registry.entries, ∃ p, h'.site.package? entry.2 = some p)
    (hroutes : ∀ route ∈ h'.routes, ∃ s, h'.services[route.2]? = some s)
    (hjobs : h'.jobs = h.jobs) : Sound h' :=
  ⟨hsite, hregistry, hroutes, fun i job hi => (hs.jobs i job (hjobs ▸ hi)).extend hext⟩

theorem enroll (hs : Sound h) (op : Operation) (r : Request) (start : Instant)
    (terms : Budget.Terms) : Sound (h.enroll [⟨op, r, start, terms, .coming⟩]).1 := by
  have hext : Extends h (h.enroll [⟨op, r, start, terms, .coming⟩]).1 :=
    ⟨.refl _, fun hs => ⟨_, hs, rfl⟩, id⟩
  refine ⟨hs.site, hs.registry, hs.routes, fun i job hi => ?_⟩
  rw [Hub.enroll, Site.getElem?_concat] at hi
  split at hi
  · rw [← Option.some.inj hi]
    exact .coming
  · exact (hs.jobs i job hi).extend hext

theorem register (hs : Sound h) (s : Service) : Sound (h.register s).1 := by
  have hservices : ∀ {k : ServiceId} {s' : Service}, h.services[k]? = some s' →
      (h.services ++ [s])[k]? = some s' := by
    intro k s' hk
    rw [List.getElem?_append_left (List.getElem?_eq_some_iff.mp hk).1, hk]
  have hext : Extends h (h.register s).1 :=
    ⟨.refl _, fun hk => ⟨_, hservices hk, rfl⟩, fun hc => hc⟩
  refine hs.of_extends hext hs.site hs.registry ?_ rfl
  intro route hroute
  rcases List.mem_append.mp hroute with hroute | hroute
  · obtain ⟨s', hs'⟩ := hs.routes route (List.mem_of_mem_filter hroute)
    exact ⟨s', hservices hs'⟩
  · rw [List.mem_singleton.mp hroute]
    exact ⟨s, List.getElem?_concat_length⟩

theorem act (hs : Sound h) (hact : h.act? a = some h') : Sound h' := by
  cases act?_turn hact with
  | move i job hi hmove =>
    obtain ⟨stage, -, ⟨⟨h₁, hadvances, rfl⟩, hvalid, -⟩⟩ := moveJob?_move hs hi hmove
    exact hs.of_place hadvances hi hvalid
  | cancel i job service allowance work hi hstage =>
    have hvalid := hs.jobs i job hi
    rw [hstage] at hvalid
    cases hvalid with
    | active _ _ _ hservice hgranted hwork =>
      exact hs.of_place (.refl h) hi
        (.active service _ work hservice hgranted.cancel (hwork.extend (.place h i _)))
  | come op r start terms => exact hs.enroll op r start terms
  | call service op r terms hcall =>
    obtain ⟨stage, -, ⟨⟨h₁, hadvances, rfl⟩, hvalid, -⟩⟩ := call?_move hcall
    exact (hs.enroll op r h.now terms).of_place hadvances List.getElem?_concat_length hvalid
  | employ s => exact hs.register s
  | list id p hp =>
    -- a listing replaces what was listed under the same name
    refine hs.of_extends ⟨.refl _, fun hk => ⟨_, hk, rfl⟩, fun hc => hc⟩ hs.site ?_ hs.routes rfl
    intro entry hentry
    rcases List.mem_append.mp hentry with hentry | hentry
    · exact hs.registry entry (List.mem_of_mem_filter hentry)
    · rw [List.mem_singleton.mp hentry]
      exact ⟨p, hp⟩
  | site a hsite =>
    have houtlasts := (Site.Passage.act hsite).outlasts
    refine hs.of_extends (.of_site houtlasts) (hs.site.act hsite) ?_ hs.routes rfl
    intro entry hentry
    obtain ⟨p, hp⟩ := hs.registry entry hentry
    exact houtlasts.packages hp

end Sound

theorem Sound.run {acts : List HubAct} (hs : Sound h) (hrun : h.run? acts = some h') : Sound h' :=
  run?_preserves (P := Sound) (fun hact hs => hs.act hact) hrun hs

/-- The invariant holds in every run that begins on a hub on which nobody has done anything. -/
theorem sound_of_run {epoch : Nat} {tree : FileTree} {acts : List HubAct}
    (hrun : (Hub.start epoch tree).run? acts = some h) : Sound h :=
  (Sound.start epoch tree).run hrun

/-! ## 6. What acts do to a job -/

/-- Job `j` is on record with a request, and may have been brought to another stage. -/
def Holds (h : Hub) (j : JobId) (job : Job) : Prop :=
  ∃ stage, h.jobs[j]? = some { job with stage } ∧
    (job.stage.isTaken = true → stage.isTaken = true)

theorem Holds.of_getElem? (hj : h.jobs[i]? = some job) : h.Holds i job := ⟨job.stage, hj, id⟩

theorem Holds.place (hj : h.jobs[k]? = some job)
    (hstage : i = k → job.stage.isTaken = true → stage.isTaken = true) :
    (h.place i stage).Holds k job := by
  unfold Holds
  rw [jobs_place, hj, Option.map_some]
  split
  · rename_i hik
    exact ⟨stage, rfl, hstage hik⟩
  · exact ⟨job.stage, rfl, id⟩

theorem jobs_enroll (hj : h.jobs[k]? = some job) (jobs : List Job) :
    (h.enroll jobs).1.jobs[k]? = some job := by
  rw [enroll, List.getElem?_append_left (List.getElem?_eq_some_iff.mp hj).1, hj]

/-- No act takes a job off the record, or changes what it is about. -/
theorem holds_of_act (hs : Sound h) (hj : h.jobs[k]? = some job) (hact : h.act? a = some h') :
    h'.Holds k job := by
  cases act?_turn hact with
  | move i job' hi hmove =>
    obtain ⟨stage, htaken, ⟨⟨h₁, hadvances, rfl⟩, -, -⟩⟩ := moveJob?_move hs hi hmove
    refine .place (hadvances.jobs ▸ hj) fun hik htaken' => ?_
    subst hik
    obtain rfl := Option.some.inj (hi.symm.trans hj)
    refine htaken.resolve_right fun ⟨hcoming, _⟩ => ?_
    rw [hcoming] at htaken'
    cases htaken'
  | cancel => exact .place hj fun _ _ => rfl
  | come => exact .of_getElem? (jobs_enroll hj _)
  | call service op r terms hcall =>
    obtain ⟨stage, -, ⟨⟨h₁, hadvances, rfl⟩, -, -⟩⟩ := call?_move hcall
    refine .place (hadvances.jobs ▸ jobs_enroll hj _) fun hik => ?_
    exact absurd (List.getElem?_eq_some_iff.mp hj).1 (hik ▸ Nat.lt_irrefl _)
  | _ => exact .of_getElem? hj

theorem holds_of_run {acts : List HubAct} (hs : Sound h) (hj : h.jobs[k]? = some job)
    (hrun : h.run? acts = some h') : h'.Holds k job := by
  have hboth : Sound h' ∧ h'.Holds k job := by
    refine run?_preserves (P := fun h => Sound h ∧ h.Holds k job) (fun {h a h'} hact hP => ?_) hrun
      ⟨hs, .of_getElem? hj⟩
    obtain ⟨hs, stage, hj, htaken⟩ := hP
    obtain ⟨stage', hj', htaken'⟩ := holds_of_act hs hj hact
    exact ⟨hs.act hact, stage', hj', fun h => htaken' (htaken h)⟩
  exact hboth.2

/-! ## 7. What acts do to the site -/

/-- A hub does to its site what happens there, or has one of its jobs demand a package. -/
theorem site_of_act (hs : Sound h) (hact : h.act? a = some h') :
    (∃ sa, a = .site sa ∧ h.site.act? sa = some h'.site) ∨ h'.site = h.site ∨
      ∃ id p, h.site.package? id = some p ∧ h'.site = (h.site.demand id p).1 := by
  cases act?_turn hact with
  | site sa hsite => exact .inl ⟨sa, rfl, hsite⟩
  | move i job hi hmove =>
    obtain ⟨stage, -, ⟨⟨h₁, hadvances, rfl⟩, -, -⟩⟩ := moveJob?_move hs hi hmove
    exact .inr hadvances.site
  | call service op r terms hcall =>
    obtain ⟨stage, -, ⟨⟨h₁, hadvances, rfl⟩, -, -⟩⟩ := call?_move hcall
    exact .inr hadvances.site
  | _ => exact .inr (.inl rfl)

/-- An act by which an invalidation of the package is accepted. -/
def Invalidates (h : Hub) (a : HubAct) (id : PackageId) : Prop :=
  ∃ sa, a = .site sa ∧ h.site.event? sa = some (.invalidated id)

/-- An act is a passage of the site, and accepts an invalidation only if it asks for one. -/
theorem passage_of_act (hs : Sound h) (hact : h.act? a = some h') :
    ∃ event, h.site.Passage event h'.site ∧
      ∀ id, event = some (.invalidated id) → h.Invalidates a id := by
  rcases site_of_act hs hact with ⟨sa, rfl, hsite⟩ | hsite | ⟨id, p, hp, hsite⟩
  · exact ⟨h.site.event? sa, .act hsite, fun id hevent => ⟨sa, rfl, hevent⟩⟩
  · rw [hsite]
    refine ⟨none, .refl _, fun id hevent => ?_⟩
    cases hevent
  · rw [hsite]
    refine ⟨_, .of_demand hp, fun id' hevent => ?_⟩
    exact absurd hevent (Demand.event?_ne_invalidated _ id id')

theorem outlasts_of_run {acts : List HubAct} (hs : Sound h) (hrun : h.run? acts = some h') :
    h.site.Outlasts h'.site := by
  have hboth : Sound h' ∧ h.site.Outlasts h'.site := by
    refine run?_preserves (P := fun h₁ => Sound h₁ ∧ h.site.Outlasts h₁.site)
      (fun {h₁ a h₂} hact hP => ?_) hrun ⟨hs, .refl _⟩
    obtain ⟨event, hpassage, -⟩ := passage_of_act hP.1 hact
    exact ⟨hP.1.act hact, hP.2.trans hpassage.outlasts⟩
  exact hboth.2

/-- No invalidation of the package is accepted in the course of the acts. -/
def Spares (h : Hub) (id : PackageId) : List HubAct → Prop
  | [] => True
  | a :: acts => ¬ h.Invalidates a id ∧ ∀ h', h.act? a = some h' → h'.Spares id acts

/-- A build stands as long as no invalidation of its package is accepted after it was scheduled. -/
theorem stands_of_run {acts : List HubAct} {id : PackageId} {n : BuildId} (hs : Sound h)
    (hrun : h.run? acts = some h') (hspared : h.Spares id acts)
    (hstands : ∀ build, h.site.build? n = some build → build.package = id → h.site.Stands id n) :
    ∀ build, h'.site.build? n = some build → build.package = id → h'.site.Stands id n := by
  -- on the acts, each of which either lets the build stand or schedules it
  induction acts generalizing h with
  | nil => exact Option.some.inj hrun ▸ hstands
  | cons a acts ih =>
    obtain ⟨h₁, hact, hrest⟩ := Option.bind_eq_some_iff.mp hrun
    obtain ⟨event, hpassage, hevent⟩ := passage_of_act hs hact
    refine ih (hs.act hact) hrest (hspared.2 h₁ hact) fun build hb hid => ?_
    cases hold : h.site.build? n with
    | none => exact hid ▸ hpassage.stands hold hb
    | some build₀ =>
      obtain ⟨build', hb', hid'⟩ := hpassage.builds.build? hold
      obtain rfl := Option.some.inj (hb'.symm.trans hb)
      refine (hstands build₀ hold (hid'.symm.trans hid)).passage hs.site hpassage fun h => ?_
      exact hspared.1 (hevent id h)

/-! ## 8. Serving requests is a run

The machine of a hub has its jobs move first, then lets cancellations happen, and then has the site
move.  All that it does is a run of acts, so what holds of every run holds of every hub that has
served requests. -/

variable {h₀ : Hub} {job : Job}

theorem act?_of_revoke? (hi : h.jobs[i]? = some job) (hrevoke : h.revoke? i job = some h') :
    h.act? (.cancel i) = some h' := by
  unfold revoke? at hrevoke
  split at hrevoke
  · rename_i service allowance work hstage
    obtain ⟨allowance', hrevoke, rfl⟩ := Option.map_eq_some_iff.mp hrevoke
    unfold Budget.Allowance.revoke? at hrevoke
    split at hrevoke
    · rw [act?, cancelJob?, hi, Option.bind_some, hstage, ← Option.some.inj hrevoke]
    · cases hrevoke
  · cases hrevoke

/-- The machine moves a job, cancels the budget of one, or moves a party at the site. -/
theorem exists_act_of_step? (hstep : h.step? = some h') : ∃ a, h.act? a = some h' := by
  have hmem : ∀ {x : Job × JobId}, x ∈ h.jobs.zipIdx → h.jobs[x.2]? = some x.1 :=
    fun hx => List.mk_mem_zipIdx_iff_getElem?.mp hx
  unfold step? at hstep
  simp only [Option.orElse_eq_orElse, Option.orElse_eq_or, Option.or_eq_some_iff] at hstep
  rcases hstep with hmove | ⟨-, hrevoke | ⟨-, hsite⟩⟩
  · obtain ⟨⟨job, i⟩, hx, hmove⟩ := List.exists_of_findSome?_eq_some hmove
    refine ⟨.move i, ?_⟩
    rw [act?, hmem hx]
    exact hmove
  · obtain ⟨⟨job, i⟩, hx, hrevoke⟩ := List.exists_of_findSome?_eq_some hrevoke
    exact ⟨_, act?_of_revoke? (hmem hx) hrevoke⟩
  · obtain ⟨site, hstep, rfl⟩ := Option.map_eq_some_iff.mp hsite
    obtain ⟨a, ha⟩ := Site.exists_act_of_step? hstep
    exact ⟨.site a, by rw [act?, ha, Option.map_some]⟩

theorem exists_run?_of_advance? {wakes : Hub → List Instant}
    (hadvance : ({ machine with wakes } : Clock.Machine Hub).advance? h = some h')
    (hrun : ∃ acts, h₀.run? acts = some h) : ∃ acts, h₀.run? acts = some h' := by
  obtain ⟨acts, hrun⟩ := hrun
  obtain ⟨a, ha⟩ : ∃ a, h.act? a = some h' := by
    rcases Clock.Machine.advance?_cases hadvance with hstep | ⟨t, hlater, rfl⟩
    · exact exists_act_of_step? hstep
    · have hlater : h.site.now < t := hlater
      refine ⟨.site (.wait (t - h.site.now)), ?_⟩
      rw [act?, Site.act?, Nat.add_sub_cancel' (Nat.le_of_lt hlater)]
      rfl
  exact ⟨acts ++ [a], by rw [run?_concat, hrun, Option.bind_some, ha]⟩

theorem run?_enroll (h : Hub) {jobs : List Job} (hcoming : ∀ job ∈ jobs, job.stage = .coming) :
    h.run? (jobs.map fun job => .come job.operation job.request job.start job.terms) =
      some (h.enroll jobs).1 := by
  induction jobs generalizing h with
  | nil =>
    have hjobs : h.jobs ++ [] = h.jobs := List.append_nil _
    exact congrArg (fun jobs => some { h with jobs }) hjobs.symm
  | cons job jobs ih =>
    have hjob : (⟨job.operation, job.request, job.start, job.terms, .coming⟩ : Job) = job := by
      rw [← hcoming job List.mem_cons_self]
    rw [List.map_cons, run?, act?, hjob, Option.bind_some,
      ih _ fun job' hjob' => hcoming job' (List.mem_cons_of_mem job hjob'), enroll, enroll,
      List.append_assoc]
    rfl

/-- Serving requests is a run of acts. -/
theorem exists_run?_serve (h : Hub) {jobs : List Job}
    (hcoming : ∀ job ∈ jobs, job.stage = .coming) :
    ∃ acts, h.run? acts = some (h.serve jobs).1 :=
  Clock.Machine.runUntil_preserves exists_run?_of_advance? _ _ ⟨_, run?_enroll h hcoming⟩

/-- Letting time pass is a run of acts. -/
theorem exists_run?_pass (h : Hub) (d : Duration) : ∃ acts, h.run? acts = some (h.pass d) :=
  Clock.Machine.runUntil_preserves exists_run?_of_advance? _ _ ⟨[], rfl⟩

end Hub

end Playground
