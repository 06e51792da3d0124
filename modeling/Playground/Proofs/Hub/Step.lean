import Playground.Hub.Machine
import Playground.Proofs.Fitting
import Playground.Proofs.Reported
import Playground.Proofs.Site.Overrun
/-!
# What a step of a job leads to

A job relies on what the steps before it have found: a workspace that is inlined, a build that it
waits for, an answer of the compiler.  Each step of its work is read here as one that keeps to this,
leaves a reply that is made of it, or fails for a reason: the job's own budget has run out, or else
its workspace, its package or the compiler is at fault.
-/

namespace Playground

theorem ServiceError.id_eq_budgetExceeded {e : ServiceError} :
    e.id = "BudgetExceeded" ↔ e.isOverrun = true := by
  cases e with
  | workspace e => cases e <;> simp [id, isOverrun]
  | package e => cases e <;> simp [id, isOverrun]
  | _ => simp [id, isOverrun]

/-- How many steps are left at most. -/
@[simp] def Work.left : Work → Nat
  | queued => 5
  | preparing => 4
  | awaiting .. => 3
  | prepared _ => 2
  | compiling .. => 1
  | _ => 0

namespace Hub

open Site (NoOverrun)

variable {h h' : Hub} {i : JobId} {op : Operation} {r : Request} {job : Job}
  {service : ServiceId} {s : Service} {b b' : Budget} {work : Work} {p : Prepared} {k : Nat}

/-! ## 1. What a job relies on -/

/-- Job `i` has asked the compiler of a service to compile this, which reacts so. -/
def Asked (h : Hub) (i : JobId) (p : Prepared) (reaction : Reaction CompileOutput) : Prop :=
  ∃ (service : ServiceId) (s : Service), h.services[service]? = some s ∧
    ⟨service, i, .compile (Prepared.compileInput p)⟩ ∈ h.consultations ∧
    reaction = s.compiler.compile (Prepared.compileInput p)

/-- The compile is one of the inlined workspace that job `i` has asked for, and its diagnostics are
those of the compiler, mapped back to the active buffer of the request. -/
structure Compiles (h : Hub) (i : JobId) (r : Request) (c : Compiled) (p : Prepared) : Prop where
  inlined : inline r.workspace r.activeBufferId = .ok p.inlined
  asked : ∃ reaction, h.Asked i p reaction ∧ reaction.result = .ok c.output
  mapped : ∃ b now,
    (mapDiagnostics p.inlined r.activeBufferId c.output.diagnostics b now).2 = .ok c.mapped

theorem Compiles.faithful {c : Compiled} (hc : h.Compiles i r c p) : c.Faithful := by
  obtain ⟨b, now, hmapped⟩ := hc.mapped
  exact Compiled.faithful_of_map hmapped

/-- What a job relies on at some work. -/
inductive Relies (h : Hub) (i : JobId) (op : Operation) (r : Request) : Work → Prop where
  | queued (hop : op = .build .run) : Relies h i op r .queued
  | preparing : Relies h i op r .preparing
  | awaiting (inlined : Workspace) (id : PackageId) (n : BuildId)
      (hinlined : inline r.workspace r.activeBufferId = .ok inlined)
      (hp : ∃ p, h.site.package? id = some p)
      (hn : ∃ b, h.site.build? n = some b ∧ b.package = id) :
      Relies h i op r (.awaiting inlined id n)
  | prepared (p : Prepared)
      (hinlined : inline r.workspace r.activeBufferId = .ok p.inlined) :
      Relies h i op r (.prepared p)
  | compiling (goal : Goal) (p : Prepared) (reaction : Reaction CompileOutput) (since : Instant)
      (hop : op = .build goal)
      (hinlined : inline r.workspace r.activeBufferId = .ok p.inlined)
      (hasked : h.Asked i p reaction) : Relies h i op r (.compiling goal p reaction since)
  | running (c : Compiled) (reaction : Reaction RunOutput) (since : Instant) (p : Prepared)
      (hop : op = .build .run) (hc : h.Compiles i r c p) :
      Relies h i op r (.running c reaction since)
  | completing (reaction : Reaction (List CompletionItem)) (since : Instant)
      (hop : op = .ask .completions) : Relies h i op r (.completing reaction since)
  | helping (reaction : Reaction SignatureHelp) (since : Instant)
      (hop : op = .ask .signatureHelp) : Relies h i op r (.helping reaction since)

/-- What a reply of a job is made of, unless it tells of a failure. -/
inductive Earned (h : Hub) (i : JobId) (op : Operation) (r : Request) : Reply → Prop where
  | compile (c : Compiled) (p : Prepared) (hop : op = .build .compile)
      (hc : h.Compiles i r c p) :
      Earned h i op r (.compile (c.compileResult r.requestId))
  | diagnostics (c : Compiled) (p : Prepared) (hop : op = .build .diagnostics)
      (hc : h.Compiles i r c p) :
      Earned h i op r (.diagnostics (c.diagnosticResult r.requestId))
  | failedRun (c : Compiled) (p : Prepared) (hop : op = .build .run)
      (hc : h.Compiles i r c p) :
      Earned h i op r (.run (c.failedRun r.requestId))
  | ran (c : Compiled) (p : Prepared) (ran : RunOutput) (hop : op = .build .run)
      (hc : h.Compiles i r c p) :
      Earned h i op r (.run (c.ranResult ran r.requestId))
  | completions (items : List CompletionItem) (hop : op = .ask .completions) :
      Earned h i op r (.completions ⟨items, [], r.requestId⟩)
  | signatureHelp (help : SignatureHelp) (hop : op = .ask .signatureHelp) :
      Earned h i op r (.signatureHelp ⟨help.signatures, help.activeSignature, help.activeParameter,
        [], r.requestId⟩)

/-- What makes a request fail, overruns apart: its workspace, its package, or the compiler. -/
inductive Caused (h : Hub) (i : JobId) (op : Operation) (r : Request) : ServiceError → Prop where
  | inlining (e : WorkspaceError) (he : inline r.workspace r.activeBufferId = .error e) :
      Caused h i op r (.workspace e)
  | lookup : Caused h i op r (.package (.notFound r.workspace.workspaceType))
  | package (n : BuildId) (e : PackageError) (hn : h.site.published? n = some (.error e)) :
      Caused h i op r (.package e)
  | compiler (p : Prepared) (reaction : Reaction CompileOutput) (reason : String)
      (hasked : h.Asked i p reaction) (hresult : reaction.result = .error reason) :
      Caused h i op r (.compiler reason)
  | mapping (p : Prepared) (reaction : Reaction CompileOutput) (output : CompileOutput)
      (b : Budget) (now : Instant) (e : WorkspaceError) (hasked : h.Asked i p reaction)
      (hresult : reaction.result = .ok output)
      (he : (mapDiagnostics p.inlined r.activeBufferId output.diagnostics b now).2 = .error e) :
      Caused h i op r (.workspace e)
  | running (reason : String) (hop : op = .build .run) : Caused h i op r (.compiler reason)
  | place (query : Query) (hop : op = .ask query) :
      Caused h i op r (.workspace (.unknownBuffer r.activeBufferId))
  | asking (query : Query) (reason : String) (hop : op = .ask query) :
      Caused h i op r (.compiler reason)

/-- Why a request with budget `b` fails at a time. -/
inductive Fails (h : Hub) (i : JobId) (op : Operation) (r : Request) (b : Budget) (t : Instant)
    (e : ServiceError) : Prop where
  | overrun (hover : e.isOverrun = true) (hexceeded : b.isExceeded t = true)
  | caused (hover : e.isOverrun = false) (hcause : h.Caused i op r e)

theorem Fails.alike {e : ServiceError} {t : Instant} (hb : b.Alike b')
    (h' : h.Fails i op r b' t e) : h.Fails i op r b t e := by
  cases h' with
  | overrun hover hexceeded => exact .overrun hover ((hb.isExceeded t).symm.trans hexceeded)
  | caused hover hcause => exact .caused hover hcause

/-- No build comes to an overrun, so a package whose build has failed is a cause of its own. -/
theorem Fails.of_published {n : BuildId} {e : PackageError} {t : Instant} (hs : h.site.Sound)
    (hn : h.site.published? n = some (.error e)) : h.Fails i op r b t (.package e) := by
  cases e with
  | budget e => exact absurd rfl (hs.outcomes n _ hn e)
  | _ => exact .caused rfl (.package n _ hn)

/-- Why a job breaks off: an edit does not fit, or the clock is too short for a build. -/
def Breaks (h : Hub) (r : Request) : Prop :=
  (∃ name, inline r.workspace r.activeBufferId = .error (.misfit name)) ∨
    ∃ id, h.site.OffClock id

/-- What the work on a request with budget `b` leads to, in fewer than `k` more steps. -/
inductive Leads (h : Hub) (i : JobId) (op : Operation) (r : Request) (b : Budget) (k : Nat) :
    Progress → Prop where
  | go (b' : Budget) (work : Work) (hb : b.Alike b') (hwork : h.Relies i op r work)
      (hleft : work.left < k) : Leads h i op r b k (.go b' work)
  | done (b' : Budget) (reply : Reply) (hb : b.Alike b') (hreply : h.Earned i op r reply) :
      Leads h i op r b k (.done b' reply)
  | failed (b' : Budget) (e : ServiceError) (hb : b.Alike b')
      (he : h.Fails i op r b h.now e) : Leads h i op r b k (.failed b' e)
  | broken (hbreaks : h.Breaks r) : Leads h i op r b k .broken

/-- What the work on a request changes of the hub, its job apart: it demands a package, and takes
down what compilers are asked. -/
structure Advances (h h' : Hub) : Prop where
  site : h'.site = h.site ∨
    ∃ id p, h.site.package? id = some p ∧ h'.site = (h.site.demand id p).1
  registry : h'.registry = h.registry
  services : ∀ {k : ServiceId} {s : Service}, h.services[k]? = some s →
    ∃ s', h'.services[k]? = some s' ∧ s'.compiler = s.compiler
  routes : h'.routes = h.routes
  jobs : h'.jobs = h.jobs
  consultations : h.consultations <+: h'.consultations

theorem Advances.refl (h : Hub) : Advances h h :=
  ⟨.inl rfl, rfl, fun h => ⟨_, h, rfl⟩, rfl, rfl, List.prefix_refl _⟩

theorem Advances.consult (h : Hub) (service : ServiceId) (i : JobId) (call : CompilerCall) :
    Advances h (h.consult service i call) :=
  ⟨.inl rfl, rfl, fun h => ⟨_, h, rfl⟩, rfl, rfl, List.prefix_append _ _⟩

/-- A step of the work on a request. -/
def Proceeds (h : Hub) (i : JobId) (op : Operation) (r : Request) (b : Budget) (k : Nat)
    (out : Hub × Progress) : Prop :=
  Advances h out.1 ∧ Leads out.1 i op r b k out.2

/-! ## 2. Checks and races -/

theorem Leads.alike {progress : Progress} (hb : b.Alike b') (h' : Leads h i op r b' k progress) :
    Leads h i op r b k progress := by
  cases h' with
  | go b'' work hb' hwork hleft => exact .go b'' work (hb.trans hb') hwork hleft
  | done b'' reply hb' hreply => exact .done b'' reply (hb.trans hb') hreply
  | failed b'' e hb' he => exact .failed b'' e (hb.trans hb') (he.alike hb)
  | broken hbreaks => exact .broken hbreaks

/-- A step that changes nothing and fails. -/
theorem Proceeds.failed {e : ServiceError} (hb : b.Alike b') (he : h.Fails i op r b h.now e) :
    Proceeds h i op r b k (h, .failed b' e) :=
  ⟨.refl h, .failed b' e hb he⟩

theorem checked_cases (h : Hub) (b : Budget) (checkpoint : String)
    (next : Budget → Hub × Progress) :
    (b.isExceeded h.now = false ∧
      h.checked (b.recordAndCheck h.now checkpoint) next = next (b.note h.now [checkpoint])) ∨
    (b.isExceeded h.now = true ∧ ∃ e, h.checked (b.recordAndCheck h.now checkpoint) next =
      (h, .failed (b.note h.now [checkpoint]) (.budget e))) := by
  have hb : (b.record h.now checkpoint).isExceeded h.now = b.isExceeded h.now :=
    (Budget.Alike.record b h.now checkpoint).isExceeded h.now
  unfold checked Budget.recordAndCheck
  dsimp only
  cases hin : b.isExceeded h.now with
  | false =>
    rw [hin] at hb
    rw [Budget.ensureWithin_of_not_isExceeded hb]
    exact .inl ⟨rfl, rfl⟩
  | true =>
    rw [hin] at hb
    rw [Budget.ensureWithin_of_isExceeded hb]
    exact .inr ⟨rfl, _, rfl⟩

theorem starting_cases (h : Hub) (b : Budget) (checkpoint : String) (next : Hub × Progress) :
    h.starting b checkpoint next = next ∨
    (b.isExceeded h.now = true ∧ ∃ e, h.starting b checkpoint next =
      (h, .failed (b.note h.now [checkpoint ++ ":exceeded"]) (.budget e))) := by
  unfold starting
  cases hcheck : b.ensureWithin h.now checkpoint with
  | ok _ => exact .inl rfl
  | error e => exact .inr ⟨(Budget.overran_of_ensureWithin hcheck).isExceeded, e, rfl⟩

theorem result_of_due? {α : Type} {reaction : Reaction α} {since now : Instant}
    {result : Except String α} (hdue : reaction.due? since now = some result) :
    reaction.result = result := by
  unfold Reaction.due? at hdue
  split at hdue
  · exact Option.some.inj hdue
  · cases hdue

theorem awaitReaction_cases {α : Type} {checkpoint : String} {reaction : Reaction α}
    {since : Instant} {next : Budget → α → Hub × Progress} {out : Hub × Progress}
    (hout : h.awaitReaction b checkpoint reaction since next = some out) :
    (∃ x, reaction.due? since h.now = some (.ok x) ∧ out = next (b.note h.now [checkpoint]) x) ∨
    (∃ reason, reaction.due? since h.now = some (.error reason) ∧
      out = (h, .failed (b.note h.now [checkpoint]) (.compiler reason))) ∨
    (b.isExceeded h.now = true ∧
      ∃ e, out = (h, .failed (b.note h.now [checkpoint ++ ":exceeded"]) (.budget e))) := by
  obtain ⟨⟨b', outcome⟩, hsettle, hout⟩ := Option.map_eq_some_iff.mp hout
  subst hout
  unfold Budget.settle? at hsettle
  split at hsettle
  · cases hsettle
  · rename_i result hwon
    obtain ⟨rfl, rfl⟩ := Prod.mk.inj (Option.some.inj hsettle)
    have hdue := Budget.of_poll_won hwon
    cases result with
    | ok x => exact .inl ⟨x, hdue, rfl⟩
    | error reason => exact .inr (.inl ⟨reason, hdue, rfl⟩)
  · rename_i e hlost
    obtain ⟨rfl, rfl⟩ := Prod.mk.inj (Option.some.inj hsettle)
    exact .inr (.inr ⟨(Budget.overran_of_poll hlost).isExceeded, e, rfl⟩)

theorem Proceeds.alike {out : Hub × Progress} (hb : b.Alike b')
    (hout : Proceeds h i op r b' k out) : Proceeds h i op r b k out :=
  ⟨hout.1, hout.2.alike hb⟩

theorem proceeds_checked {checkpoint : String} {next : Budget → Hub × Progress}
    (hnext : ∀ b', b.Alike b' → Proceeds h i op r b' k (next b')) :
    Proceeds h i op r b k (h.checked (b.recordAndCheck h.now checkpoint) next) := by
  have hb : b.Alike (b.note h.now [checkpoint]) := .note b h.now _
  rcases checked_cases h b checkpoint next with ⟨-, hout⟩ | ⟨hover, e, hout⟩
  · rw [hout]
    exact (hnext _ hb).alike hb
  · rw [hout]
    exact .failed hb (.overrun rfl hover)

theorem proceeds_starting {checkpoint : String} {next : Hub × Progress}
    (hnext : Proceeds h i op r b k next) :
    Proceeds h i op r b k (h.starting b checkpoint next) := by
  rcases starting_cases h b checkpoint next with hout | ⟨hover, e, hout⟩
  · rw [hout]
    exact hnext
  · rw [hout]
    exact .failed (.note b h.now _) (.overrun rfl hover)

theorem proceeds_awaitReaction {α : Type} {checkpoint : String} {reaction : Reaction α}
    {since : Instant} {next : Budget → α → Hub × Progress} {out : Hub × Progress}
    (hr : h.awaitReaction b checkpoint reaction since next = some out)
    (hfails : ∀ reason, reaction.result = .error reason → h.Caused i op r (.compiler reason))
    (hnext : ∀ b' a, b.Alike b' → reaction.result = .ok a → Proceeds h i op r b' k (next b' a)) :
    Proceeds h i op r b k out := by
  have hb : b.Alike (b.note h.now [checkpoint]) := .note b h.now _
  rcases awaitReaction_cases hr with ⟨x, hdue, rfl⟩ | ⟨reason, hdue, rfl⟩ | ⟨hover, e, rfl⟩
  · exact (hnext _ x hb (result_of_due? hdue)).alike hb
  · exact .failed hb (.caused rfl (hfails reason (result_of_due? hdue)))
  · exact .failed (.note b h.now _) (.overrun rfl hover)

/-! ## 3. The stages of the work -/

theorem proceeds_askForPackage {inlined : Workspace} {id : PackageId} {package : Package}
    (hs : h.site.Sound) (hp : h.site.package? id = some package)
    (hinlined : inline r.workspace r.activeBufferId = .ok inlined) :
    Proceeds h i op r b 4 (h.askForPackage b inlined id package) := by
  have hpackage := (Site.Passage.of_demand hp).outlasts.packages hp
  have hoffers := Site.offers_demand hs hp
  have hadvances : Advances h { h with site := (h.site.demand id package).1 } :=
    ⟨.inr ⟨id, package, hp, rfl⟩, rfl, fun h => ⟨_, h, rfl⟩, rfl, rfl, List.prefix_refl _⟩
  unfold askForPackage
  cases hcheck : b.ensureWithin h.now "package.ensure_ready" with
  | error e =>
    exact .failed (.refl b) (.overrun rfl (Budget.overran_of_ensureWithin hcheck).isExceeded)
  | ok _ =>
    have hs' := hs.of_builds (Site.Passage.of_demand hp).builds
    dsimp only
    revert hpackage hoffers hadvances hs'
    generalize h.site.demand id package = d
    obtain ⟨site, demand⟩ := d
    intro hpackage hoffers hadvances hs'
    cases hoffers with
    | settled n o hn =>
      cases o with
      | ok artifact =>
        exact ⟨hadvances, .go b _ (.refl b) (.prepared _ hinlined) (by simp)⟩
      | error e =>
        exact ⟨hadvances, .failed b _ (.refl b) (.of_published hs' hn)⟩
    | joined n hn =>
      exact ⟨hadvances, .go b _ (.refl b) (.awaiting inlined id n hinlined hpackage hn) (by simp)⟩
    | scheduled n start restore hn =>
      exact ⟨hadvances, .go b _ (.refl b) (.awaiting inlined id n hinlined hpackage hn) (by simp)⟩
    | offTheClock hoff => exact ⟨hadvances, .broken (.inr ⟨id, hoff⟩)⟩

theorem proceeds_prepare (hs : h.site.Sound)
    (hregistry : ∀ name id, h.registry.find? name = some id → ∃ p, h.site.package? id = some p) :
    Proceeds h i op r b 4 (h.prepare b r) := by
  refine proceeds_checked fun b' _ => ?_
  cases hinlined : inline r.workspace r.activeBufferId with
  | error e =>
    cases e with
    | misfit name => exact ⟨.refl h, .broken (.inl ⟨name, hinlined⟩)⟩
    | budget e => exact absurd hinlined (Inline.inline_ne_budget _ _ e)
    | _ => exact .failed (.refl b') (.caused rfl (.inlining _ hinlined))
  | ok inlined =>
    unfold Registry.find
    cases hfind : h.registry.find? r.workspace.workspaceType with
    | none => exact .failed (.refl b') (.caused rfl .lookup)
    | some id =>
      obtain ⟨package, hp⟩ := hregistry _ id hfind
      dsimp only
      rw [hp]
      exact proceeds_askForPackage hs hp hinlined

theorem proceeds_startCompile {goal : Goal} (hservice : h.services[service]? = some s)
    (hop : op = .build goal)
    (hinlined : inline r.workspace r.activeBufferId = .ok p.inlined) :
    Proceeds h i op r b 2 (h.startCompile service s i b goal p) := by
  refine proceeds_starting ⟨.consult h service i _, .go b _ (.refl b) ?_ (by simp)⟩
  exact .compiling goal p _ _ hop hinlined
    ⟨service, s, hservice, List.mem_append_right _ List.mem_cons_self, rfl⟩

theorem proceeds_startQuery {query : Query} {input : CursorInput}
    (hop : op = .ask query) :
    Proceeds h i op r b 2 (h.startQuery service s i b query input) := by
  refine proceeds_starting ?_
  cases query with
  | completions =>
    dsimp only
    cases s.compiler.completions with
    | some ask =>
      exact ⟨.consult h service i _, .go b _ (.refl b) (.completing _ _ hop) (by simp)⟩
    | none => exact ⟨.refl h, .go b _ (.refl b) (.completing _ _ hop) (by simp)⟩
  | signatureHelp =>
    dsimp only
    cases s.compiler.signatureHelp with
    | some ask => exact ⟨.consult h service i _, .go b _ (.refl b) (.helping _ _ hop) (by simp)⟩
    | none => exact ⟨.refl h, .go b _ (.refl b) (.helping _ _ hop) (by simp)⟩

theorem proceeds_afterPrepared (hservice : h.services[service]? = some s)
    (hinlined : inline job.request.workspace job.request.activeBufferId = .ok p.inlined) :
    Proceeds h i job.operation job.request b 2 (h.afterPrepared service s i job b p) := by
  refine proceeds_checked fun b' _ => ?_
  cases hop : job.operation with
  | build goal => exact proceeds_startCompile hservice rfl hinlined
  | ask query =>
    dsimp only
    cases cursorInput? job.request p with
    | some input => exact proceeds_startQuery rfl
    | none => exact .failed (.refl b') (.caused rfl (.place query rfl))

theorem proceeds_startRun {c : Compiled} (hop : op = .build .run)
    (hc : h.Compiles i r c p) :
    Proceeds h i op r b 1 (h.startRun service s i r b p c) := by
  unfold startRun
  cases c.assembly? with
  | none => exact ⟨.refl h, .done b _ (.refl b) (.failedRun c p hop hc)⟩
  | some assembly =>
    refine proceeds_starting ⟨.consult h service i _, .go b _ (.refl b) ?_ (by simp)⟩
    obtain ⟨hinlined, ⟨reaction, ⟨n, s', hs', hasked, hreaction⟩, hresult⟩, hmapped⟩ := hc
    exact .running c _ _ p hop
      ⟨hinlined, ⟨reaction, ⟨n, s', hs', List.mem_append_left _ hasked, hreaction⟩, hresult⟩,
        hmapped⟩

/-- Mapping diagnostics fails for want of time only if the time is over. -/
theorem mapDiagnostics_cases (inlined : Workspace) (active : BufferId) (ds : List RawDiagnostic)
    (b : Budget) (now : Instant) :
    b.Alike (mapDiagnostics inlined active ds b now).1 ∧
      ∀ e, (mapDiagnostics inlined active ds b now).2 = .error (.budget e) →
        b.isExceeded now = true := by
  have hb : b.Alike (b.record now "diagnostics.map") := .record b now _
  unfold mapDiagnostics Budget.recordAndCheck
  dsimp only
  cases hcheck : (b.record now "diagnostics.map").ensureWithin now "diagnostics.map" with
  | error e =>
    refine ⟨hb, fun _ _ => ?_⟩
    rw [← hb.isExceeded]
    exact (Budget.overran_of_ensureWithin hcheck).isExceeded
  | ok _ =>
    refine ⟨hb, fun e he => ?_⟩
    dsimp only at he
    unfold regionsOf at he
    cases hregions : Region.ofFiles inlined.files <;> rw [hregions] at he <;> cases he

theorem proceeds_afterCompile {goal : Goal} {output : CompileOutput}
    {reaction : Reaction CompileOutput} (hop : op = .build goal)
    (hinlined : inline r.workspace r.activeBufferId = .ok p.inlined)
    (hasked : h.Asked i p reaction) (hresult : reaction.result = .ok output) :
    Proceeds h i op r b 1 (h.afterCompile service s i r b goal p output) := by
  have hmap := mapDiagnostics_cases p.inlined r.activeBufferId output.diagnostics b h.now
  unfold afterCompile
  cases heq : mapDiagnostics p.inlined r.activeBufferId output.diagnostics b h.now with
  | mk b' result =>
    rw [heq] at hmap
    obtain ⟨hb, hover⟩ := hmap
    cases result with
    | error e =>
      refine .failed hb ?_
      cases e with
      | budget e => exact .overrun rfl (hover e rfl)
      | _ =>
        exact .caused rfl
          (.mapping p reaction output b h.now _ hasked hresult (congrArg Prod.snd heq))
    | ok mapped =>
      have hc : h.Compiles i r ⟨output, mapped⟩ p :=
        ⟨hinlined, ⟨reaction, hasked, hresult⟩, b, h.now, congrArg Prod.snd heq⟩
      cases goal with
      | compile => exact ⟨.refl h, .done b' _ hb (.compile _ p hop hc)⟩
      | diagnostics => exact ⟨.refl h, .done b' _ hb (.diagnostics _ p hop hc)⟩
      | run =>
        exact (proceeds_startRun hop hc).alike hb

/-- A job that waits for a build is ready when the build is, and fails with it. -/
theorem proceeds_awaiting {inlined : Workspace} {id : PackageId} {n : BuildId}
    {out : Hub × Progress} (hs : h.site.Sound)
    (hinlined : inline r.workspace r.activeBufferId = .ok inlined)
    (hp : ∃ p, h.site.package? id = some p)
    (hout : h.proceed? i job service s b (.awaiting inlined id n) = some out) :
    Proceeds h i op r b 3 out := by
  obtain ⟨package, hp⟩ := hp
  unfold proceed? at hout
  dsimp only at hout
  rw [hp] at hout
  cases hpoll : b.poll h.now "package.ensure_ready" (h.site.outcome? n) with
  | pending =>
    rw [hpoll] at hout
    cases hout
  | lost e =>
    rw [hpoll] at hout
    rw [← Option.some.inj hout]
    exact .failed (.refl b) (.overrun rfl (Budget.overran_of_poll hpoll).isExceeded)
  | won o =>
    have hn := Site.published?_of_outcome? (Budget.of_poll_won hpoll)
    rw [hpoll] at hout
    cases o with
    | ok artifact =>
      rw [← Option.some.inj hout]
      exact ⟨.refl h, .go b _ (.refl b) (.prepared _ hinlined) (by simp)⟩
    | error e =>
      rw [← Option.some.inj hout]
      exact .failed (.refl b) (.of_published hs hn)

/-- A job that goes on keeps to what the steps before it have found. -/
theorem proceeds_proceed? {out : Hub × Progress} (hs : h.site.Sound)
    (hregistry : ∀ name id, h.registry.find? name = some id → ∃ p, h.site.package? id = some p)
    (hservice : h.services[service]? = some s)
    (hwork : h.Relies i job.operation job.request work)
    (hout : h.proceed? i job service s b work = some out) :
    Proceeds h i job.operation job.request b work.left out := by
  cases hwork with
  | queued hop =>
    unfold proceed? at hout
    dsimp only at hout
    split at hout
    · cases hout
    · rw [← Option.some.inj hout]
      exact ⟨.refl h, .go _ _ (.record _ _ _) .preparing (by simp)⟩
    · rename_i e hlost
      rw [← Option.some.inj hout]
      exact .failed (.refl b) (.overrun rfl (Budget.overran_of_poll hlost).isExceeded)
  | preparing =>
    rw [← Option.some.inj hout]
    exact proceeds_prepare hs hregistry
  | awaiting inlined id n hinlined hp _ => exact proceeds_awaiting hs hinlined hp hout
  | prepared p hinlined =>
    rw [← Option.some.inj hout]
    exact proceeds_afterPrepared hservice hinlined
  | compiling goal p reaction since hop hinlined hasked =>
    unfold proceed? at hout
    refine proceeds_awaitReaction hout (fun reason => .compiler p reaction reason hasked) ?_
    intro b' output _ hresult
    exact proceeds_afterCompile hop hinlined hasked hresult
  | running c reaction since p hop hc =>
    unfold proceed? at hout
    refine proceeds_awaitReaction hout (fun reason _ => .running reason hop) fun b' ran _ _ => ?_
    refine proceeds_checked fun b'' _ => ?_
    exact ⟨.refl h, .done b'' _ (.refl b'') (.ran c p ran hop hc)⟩
  | completing reaction since hop =>
    unfold proceed? at hout
    refine proceeds_awaitReaction hout (fun reason _ => .asking _ reason hop) ?_
    intro b' items _ _
    exact ⟨.refl h, .done b' _ (.refl b') (.completions items hop)⟩
  | helping reaction since hop =>
    unfold proceed? at hout
    refine proceeds_awaitReaction hout (fun reason _ => .asking _ reason hop) ?_
    intro b' help _ _
    exact ⟨.refl h, .done b' _ (.refl b') (.signatureHelp help hop)⟩

end Hub

end Playground
