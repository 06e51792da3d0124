import Playground.Config
import Playground.Proofs.Hub.Room
/-!
# Servers by configuration

All numbers in a configuration are integers of 64 bits.  Far fewer slots can be made than they can ask
for, but as lengths of time they are short for the clock.  So whatever a server that is set up with a
configuration is asked, the clock shows all instants that come up, unless it is near its end or a build
is dropped while it waits for its start.
-/

namespace Playground

/-! ## 1. What a configuration can say -/

/-- The numbers that are said of a package are integers of 64 bits. -/
structure PackageConfig.IsBounded (c : PackageConfig) : Prop where
  timeout : c.buildTimeoutSecs ≤ Json.maxUInt
  window : ∀ n, c.rebuild = .throttled n → n ≤ Json.maxUInt

/-- The numbers that a configuration says are integers of 64 bits. -/
structure Config.IsBounded (c : Config) : Prop where
  timeout : c.defaultTimeoutMs ≤ Json.maxUInt
  slots : c.maxConcurrentRuns ≤ Json.maxUInt
  packages : ∀ p ∈ c.packages, p.IsBounded

namespace Config

variable {v : Toml} {n : Nat} {c : Config}

theorem uint?_le (h : uint? v = some n) : n ≤ Json.maxUInt := by
  cases v with
  | int k =>
    rw [uint?] at h
    split at h
    · rename_i hk
      exact Option.some.inj h ▸ Int.toNat_le.mpr hk.2
    · cases h
  | _ => cases h

theorem of_defaulted {α : Type} {read : Toml → Option α} {missing x : α} {v : Option Toml}
    {P : α → Prop} (h : defaulted read missing v = some x) (hmissing : P missing)
    (hread : ∀ v, read v = some x → P x) : P x := by
  cases v with
  | none => exact Option.some.inj h ▸ hmissing
  | some v => exact hread v h

theorem defaulted_uint?_le {missing : Nat} {v : Option Toml}
    (h : defaulted uint? missing v = some n) (hmissing : missing ≤ Json.maxUInt) : n ≤ Json.maxUInt :=
  of_defaulted (P := fun n => n ≤ Json.maxUInt) h hmissing fun _ => uint?_le

theorem exists_of_mem_list? {α : Type} {item : Toml → Option α} {xs : List α} {x : α}
    (h : list? item v = some xs) (hx : x ∈ xs) : ∃ w, item w = some x := by
  cases v with
  | arr spelling items =>
    rw [list?] at h
    induction items generalizing xs with
    | nil =>
      cases h
      cases hx
    | cons w items ih =>
      rw [List.mapM_cons] at h
      obtain ⟨y, hy, h⟩ := Option.bind_eq_some_iff.mp h
      obtain ⟨ys, hys, h⟩ := Option.bind_eq_some_iff.mp h
      rw [← Option.some.inj h] at hx
      rcases List.mem_cons.mp hx with rfl | hx
      · exact ⟨w, hy⟩
      · exact ih hx hys
  | _ => cases h

theorem rebuild?_le (h : rebuild? v = some (.throttled n)) : n ≤ Json.maxUInt := by
  unfold rebuild? at h
  split at h
  · split at h
    · obtain ⟨m, hm, hn⟩ := Option.map_eq_some_iff.mp h
      obtain ⟨w, -, hw⟩ := Option.bind_eq_some_iff.mp hm
      exact RebuildChoice.throttled.inj hn ▸ uint?_le hw
    · split at h <;> cases h
    · cases h
  · cases h

theorem package?_isBounded {p : PackageConfig} (h : package? v = some p) : p.IsBounded := by
  obtain ⟨fields, -, h⟩ := Option.bind_eq_some_iff.mp h
  split at h
  · simp only [bind, pure, Option.bind_eq_some_iff] at h
    obtain ⟨_, -, name, -, _, -, directory, -, _, -, buildCommand, -, _, -, entryPoint, -,
      timeout, htimeout, rebuild, hrebuild, h⟩ := h
    obtain rfl := Option.some.inj h
    have hstandard : ∀ n, RebuildChoice.standard = .throttled n → n ≤ Json.maxUInt := by
      rintro n ⟨⟩
      decide
    refine ⟨defaulted_uint?_le htimeout (by decide), ?_⟩
    exact of_defaulted (P := fun choice => ∀ n, choice = .throttled n → n ≤ Json.maxUInt) hrebuild
      hstandard fun v hv n hn => rebuild?_le (hn ▸ hv)
  · cases h

theorem ofToml?_isBounded {entries : Toml.Entries} (h : ofToml? entries = some c) : c.IsBounded := by
  obtain ⟨fields, -, h⟩ := Option.bind_eq_some_iff.mp h
  split at h
  · simp only [bind, pure, Option.bind_eq_some_iff] at h
    obtain ⟨timeout, htimeout, slots, hslots, packages, hpackages, h⟩ := h
    obtain rfl := Option.some.inj h
    refine ⟨defaulted_uint?_le htimeout (by decide), defaulted_uint?_le hslots (by decide), ?_⟩
    refine of_defaulted (P := fun ps => ∀ p ∈ ps, p.IsBounded) hpackages (fun p hp => ?_)
      fun v hv p hp => ?_
    · cases hp
    · obtain ⟨w, hw⟩ := exists_of_mem_list? hv hp
      exact package?_isBounded hw
  · cases h

theorem parse_eq_ok {text : String} : parse text = .ok c ↔ (Toml.parse? text).bind ofToml? = some c := by
  rw [parse]
  cases (Toml.parse? text).bind ofToml? with
  | none => exact ⟨nofun, nofun⟩
  | some c' => exact ⟨fun h => congrArg some (Except.ok.inj h), fun h => congrArg Except.ok (Option.some.inj h)⟩

theorem isBounded_of_parse {text : String} (h : parse text = .ok c) : c.IsBounded := by
  obtain ⟨entries, -, hentries⟩ := Option.bind_eq_some_iff.mp (parse_eq_ok.mp h)
  exact ofToml?_isBounded hentries

end Config

/-- The windows that a configuration can say. -/
def PackageOptions.IsModest (o : PackageOptions) : Prop :=
  ∀ window, o.rebuild = .throttled window → window ≤ Clock.millis Json.maxUInt

theorem PackageConfig.IsBounded.isModest {c : PackageConfig} (h : c.IsBounded) : c.options.IsModest := by
  intro window hwindow
  have hrebuild : c.rebuild.rebuild = .throttled window := hwindow
  cases hchoice : c.rebuild with
  | throttled n =>
    rw [hchoice] at hrebuild
    obtain rfl := Rebuild.throttled.inj hrebuild
    exact Nat.mul_le_mul_right Clock.milli (h.window n hchoice)
  | never =>
    rw [hchoice] at hrebuild
    cases hrebuild

/-! ## 2. Setting up -/

namespace Depot

theorem command_eq_error {c : PackageConfig} {e : PackageError} (h : c.command = .error e) :
    ∃ name reason, e = .invalidConfig name reason := by
  unfold PackageConfig.command at h
  split at h
  · exact ⟨_, _, (Except.error.inj h).symm⟩
  · split at h
    · cases h
    · exact ⟨_, _, (Except.error.inj h).symm⟩

/-- Packages can be set up unless what is said of one of them cannot be. -/
theorem configureAll_eq_error {configs : List PackageConfig} {d : Depot} {e : PackageError}
    (h : d.configureAll configs = .error e) : ∃ name reason, e = .invalidConfig name reason := by
  induction configs generalizing d with
  | nil => cases h
  | cons c configs ih =>
    rw [configureAll, List.foldlM_cons] at h
    unfold configure at h
    cases hcommand : c.command with
    | error e' =>
      rw [hcommand] at h
      exact Except.error.inj h ▸ command_eq_error hcommand
    | ok command =>
      rw [hcommand] at h
      exact ih h

end Depot

namespace Hub

variable {h h' h₁ : Hub} {a : HubAct} {acts before after : List HubAct} {d d' : Depot}

/-- A package that is added by the act has a window that a configuration can say. -/
def IsModest : HubAct → Prop
  | .site (.found _ _ _ options) => options.IsModest
  | _ => True

/-- Nor is a build dropped by the act. -/
def IsGentle (a : HubAct) : Prop := IsModest a ∧ ∀ n, a ≠ .site (.drop n)

/-- To set up a package is to do three things one after the other. -/
theorem run?_configure {c : PackageConfig} {replaced : Option Package} (hc : c.IsBounded)
    (h : d.configure c = .ok (d', replaced)) :
    ∃ acts, (Hub.empty d).run? acts = some (Hub.empty d') ∧ ∀ a ∈ acts, IsGentle a := by
  unfold Depot.configure at h
  cases hcommand : c.command with
  | error e =>
    rw [hcommand] at h
    cases h
  | ok command =>
    rw [hcommand] at h
    obtain ⟨rfl, -⟩ := Prod.mk.inj (Except.ok.inj h)
    refine ⟨[.site (.provide command.builder),
      .site (.found c.name c.directory d.site.builders.length c.options),
      .list d.site.packages.length], ?_, ?_⟩
    · -- the package that is registered is the last one
      have hlast : ((d.site.addBuilder command.builder).1.addPackage
          (.fresh c.name c.directory d.site.builders.length c.options)).1.package?
          d.site.packages.length = some _ := List.getElem?_concat_length
      simp only [run?, act?, Site.act?, Hub.empty, Option.map_some, Option.bind_some, hlast]
      rfl
    · simp [IsGentle, IsModest, hc.isModest]

theorem run?_configureAll {configs : List PackageConfig} (hconfigs : ∀ c ∈ configs, c.IsBounded)
    (h : d.configureAll configs = .ok d') :
    ∃ acts, (Hub.empty d).run? acts = some (Hub.empty d') ∧ ∀ a ∈ acts, IsGentle a := by
  induction configs generalizing d with
  | nil =>
    obtain rfl := Except.ok.inj h
    exact ⟨[], rfl, nofun⟩
  | cons c configs ih =>
    obtain ⟨hc, hconfigs⟩ := List.forall_mem_cons.mp hconfigs
    rw [Depot.configureAll, List.foldlM_cons] at h
    cases hfirst : d.configure c with
    | error e =>
      rw [hfirst] at h
      cases h
    | ok pair =>
      obtain ⟨d₁, replaced⟩ := pair
      rw [hfirst] at h
      obtain ⟨acts, hrun, hacts⟩ := run?_configure hc hfirst
      obtain ⟨rest, hrest, hall⟩ := ih hconfigs h
      refine ⟨acts ++ rest, by rw [run?_append, hrun, Option.bind_some, hrest], fun a ha => ?_⟩
      exact (List.mem_append.mp ha).elim (hacts a) (hall a)

/-! ## 3. Runs of a server -/

theorem LetsWait.append (hbefore : h.LetsWait before) (hrun : h.run? before = some h₁)
    (hafter : h₁.LetsWait after) : h.LetsWait (before ++ after) := by
  induction before generalizing h with
  | nil => exact Option.some.inj hrun ▸ hafter
  | cons a before ih =>
    obtain ⟨h₂, hact, hrest⟩ := Option.bind_eq_some_iff.mp hrun
    refine ⟨hbefore.1, fun h' hact' => ?_⟩
    obtain rfl := Option.some.inj (hact.symm.trans hact')
    exact ih (hbefore.2 h₂ hact) hrest

theorem letsWait_of_isGentle {acts : List HubAct} (hacts : ∀ a ∈ acts, IsGentle a) :
    h.LetsWait acts := by
  induction acts generalizing h with
  | nil => trivial
  | cons a acts ih =>
    obtain ⟨ha, hacts⟩ := List.forall_mem_cons.mp hacts
    refine ⟨?_, fun h' _ => ih hacts⟩
    rintro sa rfl ⟨n, b, rfl, -⟩
    exact ha.2 n rfl

theorem isModest_of_act (hs : Sound h) (hact : h.act? a = some h') (ha : IsModest a)
    (hplans : ∀ o ∈ h.site.plans, o.IsModest) : ∀ o ∈ h'.site.plans, o.IsModest := by
  intro o ho
  rcases site_of_act hs hact with ⟨sa, rfl, hsite⟩ | hsite | ⟨id, p, -, hsite⟩
  · rcases Site.act?_newPlans hsite with ⟨new, hnew, hold⟩ | ⟨_, _, _, options, rfl, hnew⟩
    · rw [hnew] at ho
      exact (List.mem_append.mp ho).elim (hplans o) fun ho => hplans o (hold o ho)
    · rw [hnew] at ho
      rcases List.mem_append.mp ho with ho | ho
      · exact hplans o ho
      · exact List.mem_singleton.mp ho ▸ ha
  · exact hplans o (hsite ▸ ho)
  · rw [hsite, Site.plans_demand] at ho
    exact hplans o ho

theorem isModest_of_run {acts : List HubAct} (hs : Sound h) (hrun : h.run? acts = some h')
    (hacts : ∀ a ∈ acts, IsModest a) (hplans : ∀ o ∈ h.site.plans, o.IsModest) :
    ∀ o ∈ h'.site.plans, o.IsModest := by
  induction acts generalizing h with
  | nil => exact Option.some.inj hrun ▸ hplans
  | cons a acts ih =>
    obtain ⟨ha, hacts⟩ := List.forall_mem_cons.mp hacts
    obtain ⟨h₁, hact, hrest⟩ := Option.bind_eq_some_iff.mp hrun
    exact ih (hs.act hact) hrest hacts (isModest_of_act hs hact ha hplans)

/-- The longest window that a configuration can say ends on the clock. -/
def IsEarly (h : Hub) : Prop := h.now + Clock.millis Json.maxUInt < Clock.limit

theorem IsEarly.hasRoom (hearly : h.IsEarly) (hplans : ∀ o ∈ h.site.plans, o.IsModest) :
    h.site.HasRoom where
  now := Nat.lt_of_le_of_lt (Nat.le_add_right h.now (Clock.millis Json.maxUInt)) hearly
  windows id p window hp hwindow := by
    have hplan : h.site.plans[id]? = some p.options := by
      rw [Site.plans_getElem?, hp, Option.map_some]
    have hle := hplans p.options (List.mem_of_getElem? hplan) window hwindow
    exact Nat.lt_of_le_of_lt (Nat.add_le_add_left hle h.now) hearly

/-- Nothing on the hub has gone beyond the end of the clock, or is about to. -/
structure Lasts (h : Hub) : Prop where
  unbroken : Unbroken h
  /-- A build that is due could be made now, and the clock shows its start. -/
  due : ∀ id p, h.site.package? id = some p → p.lifecycle.IsDue →
    ∃ start, p.lifecycle.startTime? p.options.rebuild h.now = some start ∧ start < Clock.limit
  builds : ∀ n b, h.site.build? n = some b →
    b.start < Clock.limit ∧ ∀ budget, b.stage.budget? = some budget → budget.OnClock
  callers : ∀ i c a, h.site.call? i = some c → c.stage.allowance? = some a → a.budget.OnClock
  requests : ∀ (j : JobId) (job : Job) service a work, h.jobs[j]? = some job →
    job.stage = .active service a work → a.budget.OnClock

theorem lasts_of_run {epoch : Nat} {tree : FileTree} {acts : List HubAct}
    (hrun : (Hub.start epoch tree).run? acts = some h) (hwaits : (Hub.start epoch tree).LetsWait acts)
    (hacts : ∀ a ∈ acts, IsModest a) (hearly : h.IsEarly) : Lasts h := by
  have hs := sound_of_run hrun
  have hstart := Sound.start epoch tree
  have hplans := isModest_of_run hstart hrun hacts fun _ ho => absurd ho List.not_mem_nil
  have hroom := hearly.hasRoom hplans
  have hwhole : Unbroken (.start epoch tree) :=
    ⟨fun i c hi => (by cases hi), fun j job hj => (by cases hj)⟩
  obtain ⟨hprompt, hunbroken⟩ := unbroken_of_run hstart (.empty epoch tree) hwhole hrun hroom hwaits
  refine ⟨hunbroken, fun id p hp hdue => ?_, fun n b hb => ⟨?_, fun budget hbudget => ?_⟩,
    fun i c a hi ha => (granted_of_run hrun i c a hi ha).onClock, fun j job service a work hj hstage => ?_⟩
  · have hclock : p.lifecycle.OnClock p.options.rebuild := by
      by_contra hshort
      exact hprompt.not_isShort hs.site hroom ⟨id, p, hp, hdue, hshort⟩
    obtain ⟨start, hstart⟩ := Lifecycle.exists_startTime? hclock h.now
    exact ⟨start, hstart, Lifecycle.startTime?_lt_limit hstart hroom.now⟩
  · exact hprompt.shown n b.package b.start (Site.due?_eq_some.mpr ⟨b, hb, rfl, rfl⟩)
  · obtain ⟨p, since, -, rfl⟩ := timed_of_run hrun n b budget hb hbudget
    exact Budget.onClock_withTimeout since p.options.buildTimeout
  · have hvalid := hs.jobs j job hj
    rw [hstage] at hvalid
    cases hvalid with
    | active _ _ _ _ hgranted => exact hgranted.onClock

end Hub

/-! ## 4. Configurations -/

/-- What a configuration is good for. -/
structure Config.HoldsOut (c : Config) : Prop where
  bounded : c.IsBounded
  /-- Slots can be made up to a bound that a configuration may exceed. -/
  slots : Slots.isFeasible c.maxConcurrentRuns = true ↔ c.maxConcurrentRuns ≤ Slots.maxPermits
  /-- The clock shows the deadlines of a request, and of all parts of its work. -/
  request : ∀ now, (c.requestBudget now).OnClock
  parts : ∀ (b : Budget) now timeout, b.OnClock → (b.child now timeout).OnClock
  registry : ∀ (d : Depot) e, d.configureAll c.packages = .error e →
    ∃ name reason, e = .invalidConfig name reason
  /-- Whatever is asked for, invalidated, cancelled or fails on a server with these packages: nothing goes
  beyond the end of the clock as long as the clock is early, no build is dropped while it waits for its
  start, and packages that are added have windows like those of a configuration. -/
  runs : ∀ epoch tree d acts h, Depot.configureAll ⟨.empty epoch tree, .empty⟩ c.packages = .ok d →
    (Hub.empty d).run? acts = some h → (Hub.empty d).LetsWait acts →
    (∀ a ∈ acts, Hub.IsModest a) → h.IsEarly → h.Lasts

theorem Slots.isFeasible_iff (n : Nat) : isFeasible n = true ↔ n ≤ maxPermits := by
  rw [isFeasible, decide_eq_true_iff, Nat.max_le]
  exact and_iff_right (by decide)

/-- A configuration with the longest times that can be said. -/
def Config.patient : String :=
  "default_timeout_ms = 18446744073709551615
[[packages]]
name = \"p\"
directory = \"p\"
build_command = [\"make\"]
entry_point = \"app\"
build_timeout_secs = 18446744073709551615"

/-- A client asks for the package, and a second one while its build waits to set out.  The package is
invalidated then. -/
def Config.patientRun : List HubAct :=
  let request : Request := ⟨.new "p", ⟨"", none⟩, "r", none⟩
  let terms : Budget.Terms := ⟨some (Clock.millis Json.maxUInt), false, none⟩
  [.employ ⟨.csharp, Hub.silent, .ofPermits 4⟩, .call 0 (.build .compile) request terms, .move 0,
    .call 0 (.build .compile) request terms, .move 1, .site (.invalidate 0),
    .site (.wait Clock.second), .site (.move 0)]

end Playground
