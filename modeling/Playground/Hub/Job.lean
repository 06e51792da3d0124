import Playground.Hub
import Playground.Locate
/-!
The course of a job. It is routed by language; a job that runs a program waits for a slot. Then the
workspace is inlined and the package made ready, the compiler is asked, and its diagnostics are
mapped back. Each stage leaves its checkpoint in the log of the job's budget.
-/

namespace Playground.Hub

/-- What a step of a job leads to. -/
inductive Progress where
  | go (budget : Budget) (work : Work)
  | done (budget : Budget) (reply : Reply)
  | failed (budget : Budget) (e : ServiceError)
  | broken

/-- The budget after a step that goes on to `next` if it has not run out. -/
def checked (h : Hub) (outcome : Budget × Except Budget.Exceeded Unit)
    (next : Budget → Hub × Progress) : Hub × Progress :=
  match outcome with
  | (b, .ok ()) => next b
  | (b, .error e) => (h, .failed b (.budget e))

/-- Starts a race over `checkpoint`: goes on to `next` unless the budget has run out. -/
def starting (h : Hub) (b : Budget) (checkpoint : String) (next : Hub × Progress) :
    Hub × Progress :=
  match b.ensureWithin h.now checkpoint with
  | .ok () => next
  | .error e => (h, .failed (b.logRace h.now checkpoint false) (.budget e))

/-- Asks for the package that the workspace is compiled against. -/
def askForPackage (h : Hub) (b : Budget) (inlined : Workspace) (id : PackageId) (p : Package) :
    Hub × Progress :=
  match b.ensureWithin h.now "package.ensure_ready" with
  | .error e => (h, .failed b (.package (.budget e)))
  | .ok () =>
      let (site, demand) := h.site.demand id p
      let h := { h with site }
      match demand with
      | .settled (.ok a) => (h, .go b (.prepared ⟨inlined, p.directory, a⟩))
      | .settled (.error e) => (h, .failed b (.package e))
      | .joined build => (h, .go b (.awaiting inlined id build))
      | .scheduled build _ _ => (h, .go b (.awaiting inlined id build))
      | .offTheClock => (h, .broken)

/-- Inlines the workspace of a request, finds its package and asks for it. -/
def prepare (h : Hub) (b : Budget) (r : Request) : Hub × Progress :=
  h.checked (b.recordAndCheck h.now "server.inline") fun b =>
    match inline r.workspace r.activeBufferId with
    | .error (.misfit _) => (h, .broken)
    | .error e => (h, .failed b (.workspace e))
    | .ok inlined =>
        match h.registry.find r.workspace.workspaceType with
        | .error e => (h, .failed b (.package e))
        | .ok id =>
            match h.site.package? id with
            | some p => h.askForPackage b inlined id p
            | none => (h, .broken)

/-- What the compiler gets to compile. -/
def Prepared.compileInput (p : Prepared) : CompileInput :=
  ⟨p.inlined.files, p.inlined.usings, p.packageDirectory, p.artifact,
    p.inlined.includeInstrumentation⟩

/-- Has the workspace compiled. -/
def startCompile (h : Hub) (service : ServiceId) (s : Service) (i : JobId) (b : Budget)
    (goal : Goal) (p : Prepared) : Hub × Progress :=
  h.starting b "server.compile" <|
    let input := Prepared.compileInput p
    (h.consult service i (.compile input),
      .go b (.compiling goal p (s.compiler.compile input) h.now))

/-- Checkpoint of a query. -/
def queryCheckpoint : Query → String
  | .completions => "server.completions"
  | .signatureHelp => "server.signature_help"

/-- Puts a question about a place to the compiler. A compiler that does not answer such questions is
not asked, and nothing is found. -/
def startQuery (h : Hub) (service : ServiceId) (s : Service) (i : JobId) (b : Budget)
    (query : Query) (input : CursorInput) : Hub × Progress :=
  h.starting b (queryCheckpoint query) <|
    match query with
    | .completions =>
        match s.compiler.completions with
        | some ask =>
            (h.consult service i (.completions input), .go b (.completing (ask input) h.now))
        | none => (h, .go b (.completing (.instant []) h.now))
    | .signatureHelp =>
        match s.compiler.signatureHelp with
        | some ask =>
            (h.consult service i (.signatureHelp input), .go b (.helping (ask input) h.now))
        | none => (h, .go b (.helping (.instant ⟨[], 0, 0⟩) h.now))

/-- The question about the cursor of the active buffer, if it can be located. -/
def cursorInput? (r : Request) (p : Prepared) : Option CursorInput :=
  let position := ((r.workspace.buffer? r.activeBufferId).map (·.position)).getD 0
  (locatePosition? p.inlined r.activeBufferId position).map fun (fileName, offset) =>
    ⟨p.inlined.files, p.inlined.usings, p.artifact, fileName, offset⟩

/-- Goes on with a workspace that is ready. -/
def afterPrepared (h : Hub) (service : ServiceId) (s : Service) (i : JobId) (job : Job) (b : Budget)
    (p : Prepared) : Hub × Progress :=
  h.checked (b.recordAndCheck h.now "server.package_ready") fun b =>
    match job.operation with
    | .build goal => h.startCompile service s i b goal p
    | .ask query =>
        match cursorInput? job.request p with
        | some input => h.startQuery service s i b query input
        | none => (h, .failed b (.workspace (.unknownBuffer job.request.activeBufferId)))

/-- Runs the assembly of a compile, if it has one. -/
def startRun (h : Hub) (service : ServiceId) (s : Service) (i : JobId) (r : Request) (b : Budget)
    (p : Prepared) (c : Compiled) : Hub × Progress :=
  match c.assembly? with
  | none => (h, .done b (.run (c.failedRun r.requestId)))
  | some assembly =>
      let input : RunInput := ⟨assembly, r.runArgs, b.remaining h.now, p.artifact⟩
      h.starting b "server.run"
        (h.consult service i (.run input), .go b (.running c (s.compiler.run input) h.now))

/-- Goes on with what the compiler has compiled. -/
def afterCompile (h : Hub) (service : ServiceId) (s : Service) (i : JobId) (r : Request)
    (b : Budget) (goal : Goal) (p : Prepared) (output : CompileOutput) : Hub × Progress :=
  match mapDiagnostics p.inlined r.activeBufferId output.diagnostics b h.now with
  | (b, .error e) => (h, .failed b (.workspace e))
  | (b, .ok mapped) =>
      let c : Compiled := ⟨output, mapped⟩
      match goal with
      | .compile => (h, .done b (.compile (c.compileResult r.requestId)))
      | .diagnostics => (h, .done b (.diagnostics (c.diagnosticResult r.requestId)))
      | .run => h.startRun service s i r b p c

/-- Looks at a race for an answer of the compiler and goes on with the answer. -/
def awaitReaction {α : Type} (h : Hub) (b : Budget) (checkpoint : String) (reaction : Reaction α)
    (since : Instant) (next : Budget → α → Hub × Progress) : Option (Hub × Progress) :=
  (b.settle? h.now checkpoint (reaction.due? since h.now)).map fun (b, outcome) =>
    match outcome with
    | .error e => (h, .failed b (.budget e))
    | .ok (.error reason) => (h, .failed b (.compiler reason))
    | .ok (.ok a) => next b a

/-- Lets the work of a job go on if it can. -/
def proceed? (h : Hub) (i : JobId) (job : Job) (service : ServiceId) (s : Service) (b : Budget) :
    Work → Option (Hub × Progress)
  | .queued =>
      match b.poll h.now "semaphore.acquire" (if s.slots.isHeldBy i then some () else none) with
      | .pending => none
      | .won () => some (h, .go (b.record h.now "server.run_slot") .preparing)
      | .lost e => some (h, .failed b (.budget e))
  | .preparing => some (h.prepare b job.request)
  | .awaiting inlined id build =>
      match b.poll h.now "package.ensure_ready" (h.site.outcome? build), h.site.package? id with
      | .pending, _ => none
      | .won (.ok a), some p => some (h, .go b (.prepared ⟨inlined, p.directory, a⟩))
      | .won (.ok _), none => some (h, .broken)
      | .won (.error e), _ => some (h, .failed b (.package e))
      | .lost e, _ => some (h, .failed b (.package (.budget e)))
  | .prepared p => some (h.afterPrepared service s i job b p)
  | .compiling goal p reaction since =>
      h.awaitReaction b "server.compile" reaction since fun b output =>
        h.afterCompile service s i job.request b goal p output
  | .running c reaction since =>
      h.awaitReaction b "server.run" reaction since fun b ran =>
        h.checked (b.recordAndCheck h.now "server.ran") fun b =>
          (h, .done b (.run (c.ranResult ran job.request.requestId)))
  | .completing reaction since =>
      h.awaitReaction b "server.completions" reaction since fun b items =>
        (h, .done b (.completions ⟨items, [], job.request.requestId⟩))
  | .helping reaction since =>
      h.awaitReaction b "server.signature_help" reaction since fun b help =>
        (h, .done b (.signatureHelp
          ⟨help.signatures, help.activeSignature, help.activeParameter, [], job.request.requestId⟩))

/-- Puts a job where its progress takes it. A job that is over gives up its slot. -/
def settle (h : Hub) (i : JobId) (job : Job) (service : ServiceId) (a : Budget.Allowance) :
    Progress → Hub
  | .go budget work => h.place i (.active service { a with budget } work)
  | .done b reply => (h.updateSlots service (·.leave i)).place i (.answered h.now b (.ok reply))
  | .failed b e =>
      (h.updateSlots service (·.leave i)).place i
        (.answered h.now b (.ok (job.operation.failure job.request.requestId e)))
  | .broken => (h.updateSlots service (·.leave i)).place i .broken

/-- Starts the work on a request: a job that runs a program gets in line for a slot. -/
def startJob (h : Hub) (i : JobId) (job : Job) (service : ServiceId) (a : Budget.Allowance) : Hub :=
  match job.operation with
  | .build .run =>
      match a.budget.ensureWithin h.now "semaphore.acquire" with
      | .error e => h.settle i job service a (.failed a.budget (.budget e))
      | .ok () => (h.updateSlots service (·.enter i)).place i (.active service a .queued)
  | _ => h.place i (.active service a .preparing)

/-- Lets a job do what it can do now. -/
def moveJob? (h : Hub) (i : JobId) (job : Job) : Option Hub := do
  match job.stage with
  | .coming =>
      if !Clock.hasFired h.now job.start then none
      else
        let a := job.terms.grant h.now
        match h.route? job.request.workspace.language with
        | some service => some (h.startJob i job service a)
        | none =>
            let e : ServiceError := .unsupportedLanguage job.request.workspace.language
            some (h.place i (.answered h.now a.budget (.error e)))
  | .active service a work => do
      let s ← h.services[service]?
      let (h, progress) ← h.proceed? i job service s a.budget work
      return h.settle i job service a progress
  | .answered .. => none
  | .broken => none

end Playground.Hub
