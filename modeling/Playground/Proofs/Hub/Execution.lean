import Playground.Proofs.Hub.Pipeline
/-!
# What clients are told about their programs

A program runs only if it has been compiled without an error, and what runs is what the compiler has
made.  The result of a run tells the truth about it: a program that is said to have succeeded has
ended without an exception, a failure is never silent, and a program that has not ended in time has
left nothing behind.
-/

namespace Playground

/-- Whether a compiler is asked to run a program. -/
def CompilerCall.isRun : CompilerCall → Bool
  | run _ => true
  | _ => false

/-! ## 1. The wording of overruns -/

/-- The text begins like the wording of an overrun. -/
def SoundsOverrun (text : String) : Prop := text.toList.take 3 = ['b', 'u', 'd']

theorem soundsOverrun_append {front : String} (hfront : 3 ≤ front.toList.length) (rest : String) :
    SoundsOverrun (front ++ rest) ↔ front.toList.take 3 = ['b', 'u', 'd'] := by
  rw [SoundsOverrun, String.toList_append, List.take_append_of_le_length hfront]

theorem Budget.Exceeded.soundsOverrun (e : Budget.Exceeded) : SoundsOverrun e.message := by
  unfold message
  rw [String.append_assoc, String.append_assoc]
  exact (soundsOverrun_append (by decide +kernel) _).mpr (by decide +kernel)

theorem WorkspaceError.of_soundsOverrun {e : WorkspaceError} (he : SoundsOverrun e.message) :
    ∃ e', e = .budget e' := by
  cases e with
  | budget e => exact ⟨e, rfl⟩
  | duplicateRegion file region =>
    dsimp only [message] at he
    rw [String.append_assoc, String.append_assoc] at he
    exact absurd ((soundsOverrun_append (by decide +kernel) _).mp he) (by decide +kernel)
  | _ =>
    dsimp only [message] at he
    exact absurd ((soundsOverrun_append (by decide +kernel) _).mp he) (by decide +kernel)

theorem PackageError.of_soundsOverrun {e : PackageError} (he : SoundsOverrun e.message) :
    ∃ e', e = .budget e' := by
  cases e with
  | budget e => exact ⟨e, rfl⟩
  | _ =>
    dsimp only [message] at he
    simp only [String.append_assoc] at he
    exact absurd ((soundsOverrun_append (by decide +kernel) _).mp he) (by decide +kernel)

/-- The wording tells overruns from all other failures. -/
theorem ServiceError.isOverrun_iff {e : ServiceError} :
    e.isOverrun = true ↔ SoundsOverrun e.message := by
  constructor
  · intro hover
    unfold isOverrun at hover
    split at hover
    · exact Budget.Exceeded.soundsOverrun _
    · exact Budget.Exceeded.soundsOverrun _
    · exact Budget.Exceeded.soundsOverrun _
    · cases hover
  · intro he
    cases e with
    | budget e => rfl
    | workspace e =>
      obtain ⟨e', rfl⟩ := WorkspaceError.of_soundsOverrun he
      rfl
    | package e =>
      obtain ⟨e', rfl⟩ := PackageError.of_soundsOverrun he
      rfl
    | _ =>
      dsimp only [message] at he
      exact absurd ((soundsOverrun_append (by decide +kernel) _).mp he) (by decide +kernel)

namespace Compiled

variable {c : Compiled}

/-- A compile without an assembly to run shows an error in the active buffer, or tells of one
elsewhere. -/
theorem explains_failedRun (hassembly : c.assembly? = none) (requestId : String) :
    (∃ d ∈ (c.failedRun requestId).diagnostics, d.isError = true) ∨
      (c.failedRun requestId).output ≠ [] := by
  have hfailed : c.succeeded = false := by
    rw [← isSome_assembly?, hassembly]
    rfl
  by_cases hactive : c.mapped.inActiveBuffer.any (·.isError) = true
  · exact .inl (List.any_eq_true.mp hactive)
  · refine .inr fun houtput => ?_
    have hnone := List.map_eq_nil_iff.mp houtput
    rw [errorsElsewhere, hfailed, eq_false_of_ne_true hactive, Bool.false_or,
      if_neg Bool.false_ne_true] at hnone
    dsimp only at hnone
    split at hnone
    · cases hnone
    · rename_i hsome
      exact hsome (List.isEmpty_iff.mpr hnone)

/-- A program that runs has been compiled without an error. -/
theorem of_assembly? {assembly : List UInt8} (hassembly : c.assembly? = some assembly) :
    c.output.assembly = some assembly ∧
      ∀ d ∈ c.output.diagnostics, d.severity.isError = false := by
  have hsucceeded : c.succeeded = true := by
    rw [← isSome_assembly?, hassembly]
    rfl
  rw [assembly?, if_pos hsucceeded] at hassembly
  refine ⟨hassembly, fun d hd => ?_⟩
  rw [succeeded, Bool.and_eq_true, Bool.not_eq_true', List.any_eq_false] at hsucceeded
  exact eq_false_of_ne_true (hsucceeded.2 d hd)

end Compiled

namespace Hub

variable {h h₀ h₁ : Hub} {acts : List HubAct} {j : JobId} {r : Request} {k : ServiceId}
  {s : Service} {b : Budget} {a : Budget.Allowance} {names : List String}
  {calls : List CompilerCall} {terms : Budget.Terms} {compiler : Compiler} {t : Instant}
  {asked : List Consultation} {stage : JobStage} {op : Operation}

/-! ## 2. Results -/

/-- What a result says that is given at a time, to a job with this budget that has asked this. -/
structure Tells (compiler : Compiler) (r : Request) (t : Instant) (b : Budget)
    (calls : List CompilerCall) (result : RunResult) : Prop where
  requestId : result.requestId = r.requestId
  success : result.succeeded = true →
    result.exception = none ∧ ∀ d ∈ result.diagnostics, d.isError = false
  failure : result.succeeded = false → result.exception.isSome = true ∨
    (∃ d ∈ result.diagnostics, d.isError = true) ∨ result.output ≠ []
  /-- An exception in the words of an overrun is one, unless the program has put it so itself. -/
  overrun : ∀ e : ServiceError, e.isOverrun = true → result.exception = some e.message →
    (result.output = [] ∧ result.diagnostics.map (·.id) = ["BudgetExceeded"]) ∨
      ∃ input ran, .run input ∈ calls ∧ (compiler.run input).result = .ok ran ∧
        ran.exception = result.exception
  /-- Nothing of a program that has not ended in time is shown. -/
  late : (∃ input, .run input ∈ calls) → ∀ t' ≤ t, b.isExceeded t' = true →
    result.succeeded = false ∧ result.output = []

theorem Tells.of_failure (e : ServiceError) :
    Tells compiler r t b calls (.failed r.requestId (some e.message) [e.toDiagnostic]) where
  requestId := rfl
  success hsucceeded := by cases hsucceeded
  failure _ := .inl rfl
  overrun e' hover hexception := by
    refine .inl ⟨rfl, ?_⟩
    have hsame : e.message = e'.message := Option.some.inj hexception
    rw [ServiceError.isOverrun_iff, ← hsame, ← ServiceError.isOverrun_iff] at hover
    show [e.id] = _
    rw [ServiceError.id_eq_budgetExceeded.mpr hover]
  late _ _ _ _ := ⟨rfl, rfl⟩

theorem Tells.of_unrun {c : Compiled} (hassembly : c.assembly? = none)
    (hcalls : ∀ input, .run input ∉ calls) :
    Tells compiler r t b calls (c.failedRun r.requestId) where
  requestId := rfl
  success hsucceeded := by cases hsucceeded
  failure _ := .inr (c.explains_failedRun hassembly r.requestId)
  overrun e _ hexception := by cases hexception
  late hrun := absurd hrun.choose_spec (hcalls _)

theorem Tells.of_ran {c : Compiled} {p : Prepared} {input : RunInput} {ran : RunOutput}
    (hyields : Yields compiler r p c) (hassembly : c.assembly? = some input.assembly)
    (hran : (compiler.run input).result = .ok ran) (hinput : .run input ∈ calls)
    (hin : b.isExceeded t = false) :
    Tells compiler r t b calls (c.ranResult ran r.requestId) where
  requestId := rfl
  success hsucceeded := by
    have hcompiled : c.succeeded = true := by
      rw [← Compiled.isSome_assembly?, hassembly]
      rfl
    refine ⟨Option.isNone_iff_eq_none.mp hsucceeded, fun d hd => ?_⟩
    exact hyields.faithful.succeeded_errors hcompiled d (List.mem_append_left _ hd)
  failure hfailed := by
    left
    show ran.exception.isSome = true
    have hnone : ran.exception.isNone = false := hfailed
    rw [← Option.not_isNone, hnone]
    rfl
  overrun e _ _ := .inr ⟨input, ran, hinput, hran, rfl⟩
  late _ t' ht hexceeded := by
    -- a budget that had run out by then has run out now
    rw [Budget.isExceeded_mono hexceeded ht] at hin
    cases hin

/-- A job that is to run a program is told of a run. -/
theorem Told.tells {reply : Reply} (htold : Told compiler (.build .run) r t b calls reply) :
    ∃ result, reply = .run result ∧ Tells compiler r t b calls result := by
  cases htold with
  | failure e => exact ⟨_, rfl, .of_failure e⟩
  | answer reply hop => exact absurd rfl hop
  | unrun c p hop hlog hcalls hyields hassembly =>
    refine ⟨_, rfl, .of_unrun hassembly fun input hinput => ?_⟩
    rw [hcalls] at hinput
    cases List.mem_singleton.mp hinput
  | ran c p input ran hop hlog hcalls hyields hassembly hran hin =>
    refine ⟨_, rfl, .of_ran hyields hassembly hran ?_ hin⟩
    rw [hcalls]
    exact List.mem_cons_of_mem _ List.mem_cons_self

/-! ## 3. Programs -/

/-- The input of a program comes from a compile of the same job that has made an assembly and found
no error. -/
def Made (compiler : Compiler) (r : Request) (calls : List CompilerCall) (input : RunInput) :
    Prop :=
  ∃ p output, .compile (Prepared.compileInput p) ∈ calls ∧
    inline r.workspace r.activeBufferId = .ok p.inlined ∧
    (compiler.compile (Prepared.compileInput p)).result = .ok output ∧
    output.assembly = some input.assembly ∧ ∀ d ∈ output.diagnostics, d.severity.isError = false

theorem Heard.runs (hheard : Heard compiler op r names calls) :
    (calls.filter (·.isRun)).length ≤ 1 ∧
      ∀ input, .run input ∈ calls → Made compiler r calls input := by
  cases hheard with
  | nothing => exact ⟨Nat.zero_le 1, fun input hinput => by cases hinput⟩
  | compile p =>
    refine ⟨Nat.zero_le 1, fun input hinput => ?_⟩
    cases List.mem_singleton.mp hinput
  | run c p input hready hyields hassembly =>
    refine ⟨Nat.le_refl 1, fun input' hinput => ?_⟩
    have hsame : CompilerCall.run input' = .run input := by simpa using hinput
    obtain rfl := CompilerCall.run.inj hsame
    obtain ⟨houtput, herrors⟩ := Compiled.of_assembly? hassembly
    exact ⟨p, c.output, List.mem_cons_self, hyields.inlined, hyields.output, houtput, herrors⟩
  | cursor calls hready hcalls =>
    refine ⟨(List.length_filter_le _ _).trans hcalls.1, fun input hinput => ?_⟩
    cases hcalls.2 _ hinput

/-- The calls of job `j` to the compiler of the service that works on it. -/
def callsOf (h : Hub) (j : JobId) : List CompilerCall := (h.asked j).map (·.call)

/-- What there is of a request to run a program at a moment of a run. -/
structure Execution (h : Hub) (k : ServiceId) (compiler : Compiler) (j : JobId) (r : Request) :
    Prop where
  own : ∀ c ∈ h.asked j, c.service = k
  once : ((h.callsOf j).filter (·.isRun)).length ≤ 1
  made : ∀ input, .run input ∈ h.callsOf j → Made compiler r (h.callsOf j) input
  told : ∀ t b answer, h.answer? j = some (t, b, answer) →
    ∃ result, answer = .ok (.run result) ∧ Tells compiler r t b (h.callsOf j) result

theorem stage_of_answer? {answer : Except ServiceError Reply} {job : Job}
    (hj : h.jobs[j]? = some job) (hanswer : h.answer? j = some (t, b, answer)) :
    job.stage = .answered t b answer := by
  obtain ⟨op, r, start, terms, stage⟩ := job
  rw [answer?, hj] at hanswer
  cases stage <;> cases hanswer
  rfl

/-- In every run a client that has a program run is told the truth about it. -/
theorem runs_told_truthfully (epoch : Nat) (tree : FileTree) (before : List HubAct) (h₀ : Hub)
    (hbefore : (Hub.start epoch tree).run? before = some h₀) (k : ServiceId) (s : Service)
    (hs : h₀.services[k]? = some s) (r : Request) (terms : Budget.Terms) (a : Budget.Allowance)
    (hlog : a.budget.entries = []) (h₁ : Hub)
    (hcall : h₀.engage? k (.build .run) r terms a = some h₁) (acts : List HubAct) (h : Hub)
    (hrun : h₁.run? acts = some h) : Execution h k s.compiler h₀.jobs.length r := by
  have hfollows := (follows_of_engage? (known_of_run hbefore) hs hlog hcall).run hrun
  obtain ⟨-, job, hj, hop, -, htraced⟩ := hfollows
  have hcalls : ∀ calls : List CompilerCall,
      h.asked h₀.jobs.length = calls.map (⟨k, h₀.jobs.length, ·⟩) →
      h.callsOf h₀.jobs.length = calls := by
    intro calls hasked
    rw [callsOf, hasked, List.map_map]
    exact List.map_id calls
  have hruns : ((h.callsOf h₀.jobs.length).filter (·.isRun)).length ≤ 1 ∧ ∀ input,
      .run input ∈ h.callsOf h₀.jobs.length →
      Made s.compiler r (h.callsOf h₀.jobs.length) input := by
    rcases htraced.heard with hnone | ⟨b, calls, -, hasked, hheard⟩
    · have hheard : Heard s.compiler (.build .run) r [] [] := .nothing
      rw [hcalls [] hnone]
      exact hheard.runs
    · rw [hcalls calls hasked]
      exact hheard.runs
  refine ⟨fun c hc => (htraced.ready hc).1, hruns.1, hruns.2, fun t b answer hanswer => ?_⟩
  rw [stage_of_answer? hj hanswer] at htraced
  cases htraced with
  | answered _ _ reply calls hasked htold =>
    obtain ⟨result, rfl, htells⟩ := htold.tells
    exact ⟨result, rfl, (hcalls calls hasked).symm ▸ htells⟩

/-- A compiler whose programs greet. -/
def greeter : Compiler where
  compile _ := .instant ⟨[], some [0x4d, 0x5a]⟩
  run _ := .instant ⟨"hello\n", "", none⟩
  completions := none
  signatureHelp := none

/-- A service with that compiler, and a package that can be built at once. -/
def greeterSetting : List HubAct :=
  [.site (.provide fun _ _ => ⟨some 0, fun t => (.built "/p.dll", t)⟩),
    .site (.found "p" "/" 0 .standard), .list 0, .employ ⟨.csharp, greeter, .ofPermits 1⟩]

/-- A client has a program run, which greets it. -/
theorem runs_told_truthfully_greeter :
    ∃ h₀ h₁ h, (Hub.start 0 .empty).run? greeterSetting = some h₀ ∧
      h₀.services[0]? = some ⟨.csharp, greeter, .ofPermits 1⟩ ∧
      h₀.engage? 0 (.build .run) ⟨.new "p", ⟨"", none⟩, "r", none⟩ ⟨none, false, none⟩
        ⟨.unbounded 0, none⟩ = some h₁ ∧
      h₁.run? (.move 0 :: strictCourse ++ [.move 0]) = some h ∧
      (h.answer? h₀.jobs.length).map (·.2.2) =
        some (.ok (.run ⟨true, ["hello"], none, [], "r"⟩)) ∧
      Execution h 0 greeter h₀.jobs.length ⟨.new "p", ⟨"", none⟩, "r", none⟩ := by
  obtain ⟨h₀, h₁, h, hbefore, hs, hcall, hrun, hanswer⟩ :
      ∃ h₀ h₁ h, (Hub.start 0 .empty).run? greeterSetting = some h₀ ∧
        h₀.services[0]? = some ⟨.csharp, greeter, .ofPermits 1⟩ ∧
        h₀.engage? 0 (.build .run) ⟨.new "p", ⟨"", none⟩, "r", none⟩ ⟨none, false, none⟩
          ⟨.unbounded 0, none⟩ = some h₁ ∧
        h₁.run? (.move 0 :: strictCourse ++ [.move 0]) = some h ∧
        (h.answer? h₀.jobs.length).map (·.2.2) =
          some (.ok (.run ⟨true, ["hello"], none, [], "r"⟩)) :=
    ⟨_, _, _, rfl, rfl, rfl, rfl, by decide +kernel⟩
  exact ⟨h₀, h₁, h, hbefore, hs, hcall, hrun, hanswer,
    runs_told_truthfully 0 .empty greeterSetting h₀ hbefore 0 _ hs _ _ _ rfl h₁ hcall _ h hrun⟩

end Hub

end Playground
