import Playground.Registry
import Playground.Service.Compiled
import Playground.Service.Error
import Playground.Site.Machine
/-!
The hub: one service for each language, which share the packages of a site, and the jobs at work
there. A job carries one request through its stages; whatever goes wrong on the way becomes part of
the answer, unless no service speaks the language.
-/

namespace Playground

/-- Number of a service. -/
abbrev ServiceId := Nat

/-- Number of a job. -/
abbrev JobId := Nat

/-- A service for one language: a compiler, and slots for the programs it runs. -/
structure Service where
  language : Language
  compiler : Compiler
  slots : Slots

/-- What a compile is made for. -/
inductive Goal where
  | compile
  | run
  | diagnostics
deriving DecidableEq, Repr

/-- What is asked about a place. -/
inductive Query where
  | completions
  | signatureHelp
deriving DecidableEq, Repr

/-- What a request asks for. -/
inductive Operation where
  | build (goal : Goal)
  | ask (query : Query)
deriving DecidableEq, Repr

/-- The answer to a request. -/
inductive Reply where
  | compile (r : CompileResult)
  | run (r : RunResult)
  | diagnostics (r : DiagnosticResult)
  | completions (r : CompletionResult)
  | signatureHelp (r : SignatureResult)
deriving DecidableEq, Repr

/-- The answer to a request that failed. -/
def Operation.failure (requestId : String) (e : ServiceError) : Operation → Reply
  | build .compile => .compile (.failed requestId [e.toDiagnostic])
  | build .run => .run (.failed requestId (some e.message) [e.toDiagnostic])
  | build .diagnostics => .diagnostics ⟨[e.toDiagnostic], requestId⟩
  | ask .completions => .completions ⟨[], [e.toDiagnostic], requestId⟩
  | ask .signatureHelp => .signatureHelp ⟨[], 0, 0, [e.toDiagnostic], requestId⟩

/-- A workspace ready to be compiled, and the package to compile it against. -/
structure Prepared where
  inlined : Workspace
  packageDirectory : Path
  artifact : Artifact
deriving DecidableEq, Repr

/-- The work on a request, as far as it has come. -/
inductive Work where
  /-- Waiting for a slot to run in. -/
  | queued
  | preparing
  | awaiting (inlined : Workspace) (package : PackageId) (build : BuildId)
  | prepared (p : Prepared)
  | compiling (goal : Goal) (p : Prepared) (reaction : Reaction CompileOutput) (since : Instant)
  | running (c : Compiled) (reaction : Reaction RunOutput) (since : Instant)
  | completing (reaction : Reaction (List CompletionItem)) (since : Instant)
  | helping (reaction : Reaction SignatureHelp) (since : Instant)

/-- Where a job stands. -/
inductive JobStage where
  | coming
  | active (service : ServiceId) (allowance : Budget.Allowance) (work : Work)
  | answered (time : Instant) (budget : Budget) (answer : Except ServiceError Reply)
  /-- The job broke off: an edit did not fit, or the clock ended. -/
  | broken

/-- A request at work. -/
structure Job where
  operation : Operation
  request : Request
  start : Instant
  terms : Budget.Terms
  stage : JobStage

/-- A question put to a compiler. -/
structure Consultation where
  service : ServiceId
  job : JobId
  call : CompilerCall
deriving DecidableEq, Repr

/-- Services, the packages they share, and the jobs at work. -/
structure Hub extends Depot where
  services : List Service
  /-- The service in charge of each language. -/
  routes : List (Language × ServiceId)
  /-- Jobs are numbered by their place in the list. -/
  jobs : List Job
  /-- What compilers were asked, oldest first. -/
  consultations : List Consultation

namespace Hub

/-- A hub without services. -/
def empty (d : Depot) : Hub :=
  ⟨d, [], [], [], []⟩

/-- The time. -/
def now (h : Hub) : Instant :=
  h.site.now

/-- The service in charge of a language. -/
def route? (h : Hub) (language : Language) : Option ServiceId :=
  (h.routes.find? (·.1 == language)).map (·.2)

/-- Puts a service in charge of its language and gives the one that it replaces. -/
def register (h : Hub) (s : Service) : Hub × Option ServiceId :=
  let routes := h.routes.filter (·.1 != s.language) ++ [(s.language, h.services.length)]
  ({ h with services := h.services ++ [s], routes }, h.route? s.language)

/-- The languages with a service, in byte order. -/
def languages (h : Hub) : List String :=
  (h.routes.map (·.1.tag)).mergeSort fun a b => decide (a ≤ b)

/-- Changes the slots of a service. -/
def updateSlots (h : Hub) (service : ServiceId) (change : Slots → Slots) : Hub :=
  { h with services := h.services.modify service fun s => { s with slots := change s.slots } }

/-- Puts a job at a stage. -/
def place (h : Hub) (i : JobId) (stage : JobStage) : Hub :=
  { h with jobs := h.jobs.modify i fun job => { job with stage } }

/-- Notes a question put to a compiler. -/
def consult (h : Hub) (service : ServiceId) (i : JobId) (call : CompilerCall) : Hub :=
  { h with consultations := h.consultations ++ [⟨service, i, call⟩] }

end Hub

end Playground
