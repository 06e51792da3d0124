import Playground.Hub.Job
/-!
Hubs as machines.
-/

namespace Playground.Hub

/-- Lets the budget of a job be cancelled, if it is time. -/
def revoke? (h : Hub) (i : JobId) (job : Job) : Option Hub :=
  match job.stage with
  | .active service a work => (a.revoke? h.now).map fun a => h.place i (.active service a work)
  | _ => none

/-- Lets the first job that can move do so; or else the first cancellation that is due happen; or
else a party at the site move. -/
def step? (h : Hub) : Option Hub :=
  (h.jobs.zipIdx.findSome? fun (job, i) => h.moveJob? i job) <|>
    (h.jobs.zipIdx.findSome? fun (job, i) => h.revoke? i job) <|>
    h.site.step?.map fun site => { h with site }

/-- When the work on a request may go on, its budget apart. -/
def workWakes (now : Instant) : Work → List Instant
  | .compiling _ _ reaction since => reaction.wakes since now
  | .running _ reaction since => reaction.wakes since now
  | .completing reaction since => reaction.wakes since now
  | .helping reaction since => reaction.wakes since now
  | _ => []

/-- When a job may go on. -/
def jobWakes (now : Instant) (job : Job) : List Instant :=
  match job.stage with
  | .coming => [Clock.wakeTime now job.start]
  | .active _ a work => a.wakes now ++ workWakes now work
  | _ => []

/-- The instants at which a job or a party at the site may go on. -/
def wakes (h : Hub) : List Instant :=
  h.jobs.flatMap (jobWakes h.now) ++ h.site.wakes

/-- The hub at a later time. -/
def moveTo (h : Hub) (now : Instant) : Hub :=
  { h with site := h.site.moveTo now }

/-- Hubs as machines. -/
def machine : Clock.Machine Hub :=
  ⟨step?, wakes, now, moveTo⟩

/-- Lets time pass. -/
def pass (h : Hub) (d : Duration) : Hub :=
  machine.pass d h

/-- Adds jobs, which are taken up in the order of the list if they come at the same time. Gives the
number of the first. -/
def enroll (h : Hub) (jobs : List Job) : Hub × JobId :=
  ({ h with jobs := h.jobs ++ jobs }, h.jobs.length)

/-- Whether a job is still at work. -/
def isOpen (h : Hub) (i : JobId) : Bool :=
  match h.jobs[i]? with
  | some job =>
      match job.stage with
      | .answered .. => false
      | .broken => false
      | _ => true
  | none => false

/-- The answer to a job: when it was given, the budget of the job then, and what it says. -/
def answer? (h : Hub) (i : JobId) : Option (Instant × Budget × Except ServiceError Reply) :=
  match h.jobs[i]? with
  | some ⟨_, _, _, _, .answered time budget answer⟩ => some (time, budget, answer)
  | _ => none

/-- Lets jobs do their work until all have their answers. Gives the answers in order; there is none
where a job broke off. -/
def serve (h : Hub) (jobs : List Job) :
    Hub × List (Option (Instant × Budget × Except ServiceError Reply)) :=
  let (h, first) := h.enroll jobs
  let numbers := List.range' first jobs.length
  let h := machine.run (fun h => numbers.all fun i => !h.isOpen i) h
  (h, numbers.map h.answer?)

end Playground.Hub
