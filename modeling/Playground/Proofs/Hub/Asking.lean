import Playground.Proofs.Cursor
import Playground.Proofs.Hub.Reporting
import Playground.Proofs.Hub.Turn
/-!
# Questions about the cursor

A compiler is asked about a place only on behalf of a job that has its workspace inlined and its
package ready, and the place is that of the cursor of the job's request.  So every question names a
file that goes with it and an offset within that file; whether the offset falls between two
characters depends on the position in the request.
-/

namespace Playground.Hub

open Inline Region Text

variable {h h' : Hub} {a : HubAct} {i : JobId} {job : Job} {service : ServiceId} {s : Service}
  {b : Budget} {allowance : Budget.Allowance} {work : Work} {p : Prepared} {c : Consultation}
  {progress : Progress} {site : Site} {noted : List String} {calls : List CompilerCall}
  {op : Operation} {r : Request}

/-! ## 1. What a job asks when it is ready -/

/-- If the question is about a place, it is that of the cursor of the request. -/
def PointsAtCursor (r : Request) (call : CompilerCall) : Prop :=
  ∀ input, call.cursor? = some input →
    ∃ p : Prepared, inline r.workspace r.activeBufferId = .ok p.inlined ∧
      cursorInput? r p = some input

theorem pointsAtCursor_of_none {call : CompilerCall} (hcall : call.cursor? = none) :
    PointsAtCursor r call := by
  intro input hinput
  rw [hcall] at hinput
  cases hinput

theorem mem_consult {call : CompilerCall} (hc : c ∈ (h.consult service i call).consultations) :
    c ∈ h.consultations ∨ c = ⟨service, i, call⟩ := by
  rw [consult, List.mem_append, List.mem_singleton] at hc
  exact hc

/-- A query is put to the compiler as it stands, or not at all. -/
theorem mem_startQuery {query : Query} {input : CursorInput}
    (hc : c ∈ (h.startQuery service s i b query input).1.consultations) :
    c ∈ h.consultations ∨ c.job = i ∧ c.call.cursor? = some input := by
  have hasked : ∀ call : CompilerCall, call.cursor? = some input →
      c ∈ (h.consult service i call).consultations →
      c ∈ h.consultations ∨ c.job = i ∧ c.call.cursor? = some input := by
    intro call hcall hc
    rcases mem_consult hc with hc | rfl
    · exact .inl hc
    · exact .inr ⟨rfl, hcall⟩
  unfold startQuery at hc
  rcases starting_cases h b (queryCheckpoint query) _ with hout | ⟨-, e, hout⟩
  · rw [hout] at hc
    cases query with
    | completions =>
      dsimp only at hc
      cases hask : s.compiler.completions with
      | some ask =>
        rw [hask] at hc
        exact hasked (.completions input) rfl hc
      | none =>
        rw [hask] at hc
        exact .inl hc
    | signatureHelp =>
      dsimp only at hc
      cases hask : s.compiler.signatureHelp with
      | some ask =>
        rw [hask] at hc
        exact hasked (.signatureHelp input) rfl hc
      | none =>
        rw [hask] at hc
        exact .inl hc
  · rw [hout] at hc
    exact .inl hc

theorem mem_afterPrepared
    (hc : c ∈ (h.afterPrepared service s i job b p).1.consultations) :
    c ∈ h.consultations ∨ c.job = i ∧
      ∀ input, c.call.cursor? = some input → cursorInput? job.request p = some input := by
  unfold afterPrepared at hc
  rcases checked_cases h b "server.package_ready" _ with ⟨-, hout⟩ | ⟨-, e, hout⟩
  · rw [hout] at hc
    cases hop : job.operation with
    | build goal =>
      rw [hop] at hc
      dsimp only at hc
      unfold startCompile at hc
      rcases starting_cases h (b.note h.now ["server.package_ready"]) "server.compile" _ with
        hout | ⟨-, e, hout⟩
      · rw [hout] at hc
        rcases mem_consult hc with hc | rfl
        · exact .inl hc
        · exact .inr ⟨rfl, fun input hinput => by cases hinput⟩
      · rw [hout] at hc
        exact .inl hc
    | ask query =>
      rw [hop] at hc
      dsimp only at hc
      cases hinput : cursorInput? job.request p with
      | none =>
        rw [hinput] at hc
        exact .inl hc
      | some input =>
        rw [hinput] at hc
        rcases mem_startQuery hc with hc | ⟨hjob, hcall⟩
        · exact .inl hc
        · refine .inr ⟨hjob, fun input' hinput' => ?_⟩
          rw [← hcall, hinput']
  · rw [hout] at hc
    exact .inl hc

/-! ## 2. Moves of a job -/

theorem consultations_settle :
    (h.settle i job service allowance progress).consultations = h.consultations := by
  cases progress <;> rfl

theorem consultations_startJob :
    (h.startJob i job service allowance).consultations = h.consultations := by
  have hstarts := h.startJob_starts i job service allowance
  generalize h.startJob i job service allowance = h' at hstarts ⊢
  cases hstarts with
  | refuse => exact consultations_settle
  | _ => rfl

/-- Only a job that is ready asks about a place. -/
theorem Turn.cursor?_eq_none (hturn : h.Turn i op r s b work site noted calls progress)
    (hwork : ∀ p, work ≠ .prepared p) : ∀ call ∈ calls, call.cursor? = none := by
  intro call hcall
  cases hturn with
  | compile goal p | ask query p => exact absurd rfl (hwork p)
  | run c p reaction since input =>
    rw [List.mem_singleton.mp hcall]
    rfl
  | _ => cases hcall

/-- A move of a job adds no question about any place but that of the cursor of its request. -/
theorem mem_moveJob? (hs : Sound h) (hi : h.jobs[i]? = some job)
    (hmove : h.moveJob? i job = some h') (hc : c ∈ h'.consultations) :
    c ∈ h.consultations ∨ c.job = i ∧ PointsAtCursor job.request c.call := by
  cases moveJob?_jobTurn hmove with
  | start service hstage hroute =>
    rw [consultations_startJob] at hc
    exact .inl hc
  | turnAway => exact .inl hc
  | work service s allowance work h₁ progress hstage _ hproceed =>
    have hvalid := hs.jobs i job hi
    rw [hstage] at hvalid
    cases hvalid with
    | active _ _ _ _ _ hrelies =>
    rw [consultations_settle] at hc
    by_cases hready : ∃ p, work = .prepared p
    · obtain ⟨p, rfl⟩ := hready
      have hout : h.afterPrepared service s i job allowance.budget p = (h₁, progress) :=
        Option.some.inj hproceed
      have hc' : c ∈ (h.afterPrepared service s i job allowance.budget p).1.consultations := by
        rw [hout]
        exact hc
      cases hrelies with
      | prepared _ hinlined =>
        refine (mem_afterPrepared hc').imp_right fun ⟨hjob, hcall⟩ => ⟨hjob, fun input hinput => ?_⟩
        exact ⟨p, hinlined, hcall input hinput⟩
    · -- the other stages ask for a compile or a run at most
      obtain ⟨site, noted, calls, rfl, hturn⟩ := takes_proceed? hproceed
      rcases List.mem_append.mp hc with hc | hc
      · exact .inl hc
      · obtain ⟨call, hcall, rfl⟩ := List.mem_map.mp hc
        exact .inr ⟨rfl, pointsAtCursor_of_none
          (hturn.cursor?_eq_none (fun p hp => hready ⟨p, hp⟩) call hcall)⟩

/-! ## 3. Runs -/

/-- Every question was put for a job on record, about the cursor of its request if about a place. -/
def AsksAtCursors (h : Hub) : Prop :=
  ∀ c ∈ h.consultations, ∃ job, h.jobs[c.job]? = some job ∧ PointsAtCursor job.request c.call

theorem mem_of_act (hs : Sound h) (hact : h.act? a = some h') (hc : c ∈ h'.consultations) :
    c ∈ h.consultations ∨
      ∃ job, h.jobs[c.job]? = some job ∧ PointsAtCursor job.request c.call := by
  cases act?_turn hact with
  | move i job hi hmove =>
    refine (mem_moveJob? hs hi hmove hc).imp_right fun ⟨hjob, hcall⟩ => ⟨job, ?_, hcall⟩
    rw [hjob]
    exact hi
  | call service op r terms hcall =>
    obtain ⟨s, -, rfl⟩ := Option.map_eq_some_iff.mp hcall
    dsimp only at hc
    rw [consultations_startJob] at hc
    exact .inl hc
  | _ => exact .inl hc

/-- Jobs stay on record with their requests, so what has been asked for them still is right. -/
theorem AsksAtCursors.act (hasks : AsksAtCursors h) (hs : Sound h) (hact : h.act? a = some h') :
    AsksAtCursors h' := by
  intro c hc
  obtain ⟨job, hj, hcall⟩ : ∃ job, h.jobs[c.job]? = some job ∧ PointsAtCursor job.request c.call :=
    (mem_of_act hs hact hc).elim (hasks c) id
  obtain ⟨stage, hj', -⟩ := holds_of_act hs hj hact
  exact ⟨_, hj', hcall⟩

theorem asksAtCursors_of_run {epoch : Nat} {tree : FileTree} {acts : List HubAct}
    (hrun : (Hub.start epoch tree).run? acts = some h) : AsksAtCursors h := by
  have hboth : Sound h ∧ AsksAtCursors h := by
    refine run?_preserves (P := fun h => Sound h ∧ AsksAtCursors h) (fun hact hP => ?_) hrun
      ⟨.start epoch tree, fun c hc => absurd hc List.not_mem_nil⟩
    exact ⟨hP.1.act hact, hP.2.act hP.1 hact⟩
  exact hboth.2

/-- A compiler that knows of nothing that would fit. -/
def clueless : Compiler where
  compile _ := .instant ⟨[], none⟩
  run _ := ⟨none, .error ""⟩
  completions := some fun _ => .instant []
  signatureHelp := none

/-- A client asks what would fit at a position in a region.  The package is built, and the job goes
on until the question is put. -/
def askingAt (position : Nat) : List HubAct :=
  let workspace : Workspace := ⟨[⟨"a.cs", "#region r\nx\n#endregion\n"⟩],
    [⟨⟨"a.cs", some "r"⟩, "é", position⟩], [], "p", .csharp, false⟩
  [.site (.provide fun _ _ => ⟨some 0, fun t => (.built "/p.dll", t)⟩),
    .site (.found "p" "/" 0 .standard), .list 0, .employ ⟨.csharp, clueless, .ofPermits 1⟩,
    .call 0 (.ask .completions) ⟨workspace, ⟨"a.cs", some "r"⟩, "r", none⟩ ⟨none, false, none⟩] ++
    strictCourse

/-- What the compiler gets for the position. -/
def askedAt (position : Nat) : CursorInput :=
  ⟨[⟨"a.cs", "#region r\n\né\n#endregion\n"⟩], [], ⟨"/p.dll", 0, false⟩, "a.cs", 11 + position⟩

theorem exists_run_askingAt (position : Nat) (hposition : position ∈ [1, 2]) :
    ∃ h, (Hub.start 0 .empty).run? (askingAt position) = some h ∧
      ⟨0, 0, .completions (askedAt position)⟩ ∈ h.consultations := by
  have hruns : ∀ position ∈ [1, 2],
      ((Hub.start 0 .empty).run? (askingAt position)).map (·.consultations) =
        some [⟨0, 0, .completions (askedAt position)⟩] := by
    decide +kernel
  obtain ⟨h, hrun, hconsultations⟩ := Option.map_eq_some_iff.mp (hruns position hposition)
  exact ⟨h, hrun, by rw [hconsultations]; exact List.mem_cons_self⟩

end Playground.Hub
