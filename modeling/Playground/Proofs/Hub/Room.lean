import Playground.Proofs.Hub.Overrun
import Playground.Proofs.Hub.Turn
import Playground.Proofs.Site.Room
/-!
# Hubs on a clock with room

A job breaks off for two reasons only: an edit of its workspace does not fit, or it asks for a build
that the clock is too short for.  As long as the clock has room for the windows of all packages, and no
build is dropped while it waits for its start, the second does not happen, whatever is asked for,
invalidated, cancelled or fails.
-/

namespace Playground.Hub

variable {h h' h₁ : Hub} {a : HubAct} {acts : List HubAct} {i j : JobId} {op : Operation}
  {r : Request} {job job' : Job} {service : ServiceId} {s : Service} {b : Budget}
  {allowance : Budget.Allowance} {work : Work} {progress : Progress} {id : PackageId} {p : Package}
  {inlined : Workspace}

/-! ## 1. Why jobs break off -/

/-- An edit of the workspace does not fit. -/
def Misfits (r : Request) : Prop :=
  ∃ name, inline r.workspace r.activeBufferId = .error (.misfit name)

theorem isShort_of_askForPackage (hp : h.site.package? id = some p)
    (hout : h.askForPackage b inlined id p = (h₁, .broken)) : h.site.IsShort := by
  have hform := h.site.demandForm id p
  unfold askForPackage at hout
  split at hout
  · cases hout
  · dsimp only at hout
    generalize h.site.demand id p = d at hform hout ⊢
    cases hform with
    | settled o => cases o <;> cases hout
    | joined n => cases hout
    | scheduled start => cases hout
    | offTheClock hdue hclock => exact ⟨id, p, hp, hdue, hclock⟩

theorem broken_of_prepare (hs : Sound h) (hout : h.prepare b r = (h₁, .broken)) :
    Misfits r ∨ h.site.IsShort := by
  unfold prepare at hout
  rcases checked_cases h b "server.inline" _ with ⟨-, hchecked⟩ | ⟨-, e, hchecked⟩
  · rw [hchecked] at hout
    cases hinlined : inline r.workspace r.activeBufferId with
    | error e =>
      rw [hinlined] at hout
      cases e with
      | misfit name => exact .inl ⟨name, hinlined⟩
      | _ => cases hout
    | ok inlined =>
      rw [hinlined, Registry.find] at hout
      cases hfind : h.registry.find? r.workspace.workspaceType with
      | none =>
        rw [hfind] at hout
        cases hout
      | some id =>
        -- what the registry names is on the site
        obtain ⟨p, hp⟩ := hs.find hfind
        rw [hfind] at hout
        dsimp only at hout
        rw [hp] at hout
        exact .inr (isShort_of_askForPackage hp hout)
  · rw [hchecked] at hout
    cases hout

theorem broken_of_proceed? (hs : Sound h) (hwork : h.Relies i job.operation job.request work)
    (hout : h.proceed? i job service s b work = some (h₁, .broken)) :
    Misfits job.request ∨ h.site.IsShort := by
  obtain ⟨site, noted, calls, -, hturn⟩ := takes_proceed? hout
  have hprepare : work = .preparing → Misfits job.request ∨ h.site.IsShort := by
    rintro rfl
    exact broken_of_prepare hs (Option.some.inj hout)
  generalize hbroken : Progress.broken = progress at hturn
  cases hturn with
  | demand => exact hprepare rfl
  | stuck => exact hprepare rfl
  | lost inlined id n =>
    -- the package that the job waits for is there
    cases hwork with
    | awaiting _ _ _ hinlined hp =>
      obtain ⟨p, hp⟩ := hp
      unfold proceed? at hout
      dsimp only at hout
      rw [hp] at hout
      split at hout <;> cases hout
      cases ‹some p = none›
  | _ => cases hbroken

/-- A job is put at the stage of a broken job only if its work has broken off. -/
theorem jobs_settle (h : Hub) (i : JobId) (job : Job) (service : ServiceId)
    (allowance : Budget.Allowance) (progress : Progress) :
    ∃ stage, (h.settle i job service allowance progress).jobs = (h.place i stage).jobs ∧
      (stage = .broken → progress = .broken) := by
  cases progress with
  | broken => exact ⟨.broken, rfl, fun _ => rfl⟩
  | go budget work => exact ⟨.active service { allowance with budget } work, rfl, nofun⟩
  | _ => exact ⟨_, rfl, nofun⟩

theorem jobs_startJob (h : Hub) (i : JobId) (job : Job) (service : ServiceId)
    (allowance : Budget.Allowance) :
    ∃ stage, (h.startJob i job service allowance).jobs = (h.place i stage).jobs ∧
      stage ≠ .broken := by
  have hstarts := h.startJob_starts i job service allowance
  generalize h.startJob i job service allowance = h' at hstarts ⊢
  cases hstarts with
  | refuse e =>
    obtain ⟨stage, hjobs, hstage⟩ := h.jobs_settle i job service allowance
      (.failed allowance.budget (.budget e))
    exact ⟨stage, hjobs, fun hbroken => nomatch hstage hbroken⟩
  | _ => exact ⟨_, rfl, nofun⟩

theorem stage_of_place {stage : JobStage} (hj : h.jobs[j]? = some job)
    (hjobs : h'.jobs = (h.place j stage).jobs) (hj' : h'.jobs[j]? = some job') :
    job'.stage = stage := by
  rw [hjobs, jobs_place_self hj] at hj'
  exact Option.some.inj hj' ▸ rfl

theorem broken_of_moveJob? (hs : Sound h) (hj : h.jobs[j]? = some job)
    (hmove : h.moveJob? j job = some h') (hj' : h'.jobs[j]? = some job')
    (hbroken : job'.stage = .broken) : Misfits job.request ∨ h.site.IsShort := by
  have hvalid := hs.jobs j job hj
  cases moveJob?_jobTurn hmove with
  | start service =>
    obtain ⟨stage, hjobs, hne⟩ := h.jobs_startJob j job service (job.terms.grant h.now)
    exact absurd ((stage_of_place hj hjobs hj').symm.trans hbroken) hne
  | turnAway => cases (stage_of_place hj rfl hj').symm.trans hbroken
  | work service s allowance work h₁ progress hstage hservice hproceed =>
    rw [hstage] at hvalid
    cases hvalid with
    | active _ _ _ _ _ hwork =>
      obtain ⟨hadvances, -⟩ := proceeds_proceed? hs.site (fun _ _ => hs.find) hservice hwork hproceed
      obtain ⟨stage, hjobs, hends⟩ := h₁.jobs_settle j job service allowance progress
      have hstage := stage_of_place (hadvances.jobs ▸ hj) hjobs hj'
      obtain rfl : progress = .broken := hends (hstage.symm.trans hbroken)
      exact broken_of_proceed? hs hwork hproceed

/-- A job that is new has not broken off. -/
theorem stage_of_new (hnone : h.jobs[j]? = none) (hact : h.act? a = some h')
    (hj' : h'.jobs[j]? = some job') : job'.stage ≠ .broken := by
  have hplace : ∀ {i stage}, h'.jobs = (h.place i stage).jobs → job'.stage ≠ .broken := by
    intro i stage hjobs
    rw [hjobs, jobs_place, hnone] at hj'
    cases hj'
  have hsame : h'.jobs = h.jobs → job'.stage ≠ .broken := by
    intro hjobs
    rw [hjobs, hnone] at hj'
    cases hj'
  cases act?_turn hact with
  | move i job hi hmove =>
    obtain ⟨stage, hjobs⟩ := (moves_moveJob? hmove).jobs
    exact hplace hjobs
  | cancel => exact hplace rfl
  | come op r start terms =>
    rw [enroll, Site.getElem?_concat] at hj'
    split at hj'
    · rw [← Option.some.inj hj']
      intro hbroken
      cases hbroken
    · cases hnone.symm.trans hj'
  | call service op r terms hcall =>
    obtain ⟨s, -, rfl⟩ := Option.map_eq_some_iff.mp hcall
    obtain ⟨stage, hjobs, hne⟩ := jobs_startJob (h.enroll [⟨op, r, h.now, terms, .coming⟩]).1
      h.jobs.length ⟨op, r, h.now, terms, .coming⟩ service (terms.grant h.now)
    by_cases hlength : j = h.jobs.length
    · subst hlength
      rw [stage_of_place List.getElem?_concat_length hjobs hj']
      exact hne
    · rw [hjobs, jobs_place, enroll, Site.getElem?_concat, if_neg hlength, hnone] at hj'
      cases hj'
  | _ => exact hsame rfl

/-! ## 2. Runs with room -/

/-- No caller has broken off, and jobs have only for an edit that does not fit. -/
structure Unbroken (h : Hub) : Prop where
  calls : ∀ i c, h.site.call? i = some c → c.stage ≠ .offTheClock
  jobs : ∀ (j : JobId) (job : Job), h.jobs[j]? = some job → job.stage = .broken → Misfits job.request

theorem Unbroken.act (hu : Unbroken h) (hs : Sound h) (hlong : ¬ h.site.IsShort)
    (hact : h.act? a = some h') : Unbroken h' where
  calls i c hi hoff := by
    rcases site_of_act hs hact with ⟨sa, rfl, hsite⟩ | hsite | ⟨id, p, -, hsite⟩
    · rcases Site.isShort_of_act hsite hi hoff with hshort | ⟨c₀, hi₀, hoff₀⟩
      · exact hlong hshort
      · exact hu.calls i c₀ hi₀ hoff₀
    · exact hu.calls i c (hsite ▸ hi) hoff
    · rw [hsite, Site.call?_demand] at hi
      exact hu.calls i c hi hoff
  jobs j job' hj' hbroken := by
    cases hj : h.jobs[j]? with
    | none => exact absurd hbroken (stage_of_new hj hact hj')
    | some job =>
      have hrequest : job'.request = job.request := by
        obtain ⟨stage, hholds, -⟩ := holds_of_act hs hj hact
        rw [Option.some.inj (hj'.symm.trans hholds)]
      rw [hrequest]
      cases meets_of_act hj hact with
      | apart _ happart =>
        rw [Option.some.inj (hj'.symm.trans happart)] at hbroken
        exact hu.jobs j job hj hbroken
      | moves hmove => exact (broken_of_moveJob? hs hj hmove hj' hbroken).resolve_right hlong
      | cancelled service allowance work hstage hplace =>
        cases (stage_of_place hj (congrArg Hub.jobs hplace) hj').symm.trans hbroken

/-- No build is dropped in the course of the acts while it waits for its start. -/
def LetsWait (h : Hub) : List HubAct → Prop
  | [] => True
  | a :: acts => (∀ sa, a = .site sa → ¬ h.site.Interrupts sa) ∧
      ∀ h', h.act? a = some h' → h'.LetsWait acts

theorem prompt_act (hs : Sound h) (hp : h.site.Prompt) (hnow : h.now < Clock.limit)
    (hact : h.act? a = some h') (hwaits : ∀ sa, a = .site sa → ¬ h.site.Interrupts sa) :
    h'.site.Prompt := by
  rcases site_of_act hs hact with ⟨sa, rfl, hsite⟩ | hsite | ⟨id, p, hpackage, hsite⟩
  · exact hp.act hsite hnow (hwaits sa rfl)
  · exact hsite ▸ hp
  · exact hsite ▸ hp.demand hpackage hnow

theorem hasRoom_before (hs : Sound h) (hrun : h.run? acts = some h') (hroom : h'.site.HasRoom) :
    h.site.HasRoom := by
  have hboth : Sound h' ∧ h.now ≤ h'.now ∧ h.site.plans <+: h'.site.plans := by
    refine run?_preserves (P := fun h₁ => Sound h₁ ∧ h.now ≤ h₁.now ∧ h.site.plans <+: h₁.site.plans)
      (fun {h₁ a h₂} hact hP => ?_) hrun ⟨hs, Nat.le_refl _, List.prefix_refl _⟩
    obtain ⟨hs₁, hnow, hplans⟩ := hP
    obtain ⟨event, hpassage, -⟩ := passage_of_act hs₁ hact
    exact ⟨hs₁.act hact, Nat.le_trans hnow (compilers_of_act hact).2, hplans.trans hpassage.plans⟩
  exact hroom.before hboth.2.1 hboth.2.2

/-- As long as there is room on the clock, nothing breaks off for want of it. -/
theorem unbroken_of_run (hs : Sound h) (hp : h.site.Prompt) (hu : Unbroken h)
    (hrun : h.run? acts = some h') (hroom : h'.site.HasRoom) (hwaits : h.LetsWait acts) :
    h'.site.Prompt ∧ Unbroken h' := by
  -- on the acts: the room at the end is room at every state before
  induction acts generalizing h with
  | nil => exact Option.some.inj hrun ▸ ⟨hp, hu⟩
  | cons a acts ih =>
    have hroom₀ := hasRoom_before hs hrun hroom
    obtain ⟨h₁, hact, hrest⟩ := Option.bind_eq_some_iff.mp hrun
    have hlong := hp.not_isShort hs.site hroom₀
    exact ih (hs.act hact) (prompt_act hs hp hroom₀.now hact hwaits.1) (hu.act hs hlong hact) hrest
      (hwaits.2 h₁ hact)

end Playground.Hub
