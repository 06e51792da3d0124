import Playground.Proofs.Budget.Racing
/-!
# The log of a budget

A budget is used again and again: checkpoints are passed, with or without a check, work is raced
against it, it is cancelled, and time passes.  Its log only grows at the end, by what each use notes
there and by nothing else, and the times in it never decrease.  Once the budget is exceeded, every
check and every race fails.
-/

namespace Playground.Budget

variable {α : Type} {s s' s₁ stop : Standing} {names names' : List String} {checkpoint : String}

/-! ## 1. Growing logs -/

/-- From one standing to a later one the log has got checkpoints of the given names at its end, each
with a time from between the two. -/
structure Grows (s : Standing) (names : List String) (s' : Standing) : Prop where
  now : s.now ≤ s'.now
  started : s'.budget.started = s.budget.started
  log : ∃ new, s'.budget.entries = s.budget.entries ++ new ∧ new.map (·.name) = names ∧
    new.Pairwise (·.elapsed ≤ ·.elapsed) ∧
    ∀ e ∈ new, s.budget.elapsed s.now ≤ e.elapsed ∧ e.elapsed ≤ s'.budget.elapsed s'.now

namespace Grows

theorem of_entries (hnow : s.now ≤ s'.now) (hstarted : s'.budget.started = s.budget.started)
    (hentries : s'.budget.entries = s.budget.entries) : Grows s [] s' :=
  ⟨hnow, hstarted, [], by rw [hentries, List.append_nil], rfl, .nil, nofun⟩

theorem refl (s : Standing) : Grows s [] s := of_entries (Nat.le_refl _) rfl rfl

theorem elapsed_le (h : Grows s names s') :
    s.budget.elapsed s.now ≤ s'.budget.elapsed s'.now := by
  rw [elapsed, elapsed, h.started]
  exact Nat.sub_le_sub_right h.now _

theorem trans (h : Grows s names s₁) (h' : Grows s₁ names' s') : Grows s (names ++ names') s' := by
  have hle := h.elapsed_le
  have hle' := h'.elapsed_le
  obtain ⟨hnow, hstarted, new, hentries, hnew, hsorted, hbounds⟩ := h
  obtain ⟨hnow', hstarted', new', hentries', hnew', hsorted', hbounds'⟩ := h'
  refine ⟨Nat.le_trans hnow hnow', hstarted'.trans hstarted, new ++ new', ?_, ?_, ?_, ?_⟩
  · rw [hentries', hentries, List.append_assoc]
  · rw [List.map_append, hnew, hnew']
  · refine List.pairwise_append.mpr ⟨hsorted, hsorted', fun e he e' he' => ?_⟩
    exact Nat.le_trans (hbounds e he).2 (hbounds' e' he').1
  · intro e he
    rcases List.mem_append.mp he with he | he
    · exact ⟨(hbounds e he).1, Nat.le_trans (hbounds e he).2 hle'⟩
    · exact ⟨Nat.le_trans hle (hbounds' e he).1, (hbounds' e he).2⟩

theorem record (s : Standing) (name : String) :
    Grows s [name] ⟨s.now, s.budget.record s.now name⟩ :=
  ⟨Nat.le_refl _, rfl, [⟨name, s.budget.elapsed s.now⟩], rfl, rfl, List.pairwise_singleton _ _,
    fun e he => by
      rw [List.mem_singleton.mp he]
      exact ⟨Nat.le_refl _, Nat.le_refl _⟩⟩

/-- The log of a new budget has the times in their order. -/
theorem sorted (h : Grows s names s') (hnew : s.budget.entries = []) :
    s'.budget.entries.Pairwise (·.elapsed ≤ ·.elapsed) := by
  obtain ⟨new, hentries, -, hsorted, -⟩ := h.log
  rwa [hentries, hnew, List.nil_append]

end Grows

/-! ## 2. Races and the log -/

/-- Nothing is noted in the log while a race is open. -/
theorem Contest.grows_after? {c c' : Contest α} {h : Happening α} (hafter : c.after? h = some c') :
    Grows c.toStanding [] c'.toStanding := by
  cases h with
  | wait d =>
    obtain ⟨-, heq⟩ := Option.ite_none_right_eq_some.mp hafter
    rw [← Option.some.inj heq]
    exact .of_entries (Nat.le_add_right c.now d) rfl rfl
  | finish a =>
    obtain ⟨-, heq⟩ := Option.ite_none_right_eq_some.mp hafter
    rw [← Option.some.inj heq]
    exact .refl _
  | cancel =>
    rw [← Option.some.inj hafter]
    exact .of_entries (Nat.le_refl _) rfl rfl

theorem Contest.grows_follow? {c c' : Contest α} {hs : List (Happening α)}
    (h : c.follow? hs = some c') : Grows c.toStanding [] c'.toStanding := by
  induction hs generalizing c with
  | nil =>
    obtain rfl := Option.some.inj h
    exact .refl _
  | cons x hs ih =>
    obtain ⟨c₁, hafter, hfollow⟩ := Option.bind_eq_some_iff.mp h
    exact (grows_after? hafter).trans (ih hfollow)

theorem grows_race? {work : Option α} {meanwhile : List (Happening α)}
    {outcome : Except Exceeded α}
    (h : s.race? checkpoint work meanwhile = some (stop, outcome)) :
    Grows s [] stop := by
  cases hexceeded : s.budget.isExceeded s.now with
  | true =>
    rw [race?_of_isExceeded hexceeded] at h
    obtain ⟨-, heq⟩ := Option.ite_none_right_eq_some.mp h
    cases heq
    exact .refl s
  | false =>
    obtain ⟨c, hfollow, hsettled⟩ := race?_of_not_isExceeded hexceeded h
    obtain ⟨rfl, -⟩ := Contest.settled?_cases hsettled
    exact Contest.grows_follow? hfollow

/-! ## 3. Uses of a budget -/

/-- What is done with a budget. -/
inductive Use (α : Type) where
  | record (name : String)
  /-- Passes a checkpoint and checks the budget. -/
  | check (name : String)
  | ensure (name : String)
  /-- Races work that has ended at once, or goes on while other things happen. -/
  | race (checkpoint : String) (work : Option α) (meanwhile : List (Happening α))
  /-- Races work and notes in the log how the race was settled. -/
  | run (checkpoint : String) (work : Option α) (meanwhile : List (Happening α))
  | cancel
  | wait (d : Duration)
deriving DecidableEq, Repr

/-- What a use answers. -/
inductive Reply (α : Type) where
  | done
  | checked (result : Except Exceeded Unit)
  | settled (outcome : Except Exceeded α)

namespace Standing

/-- A use of the budget, with the answer; a race that is not settled has none. -/
def act? (s : Standing) : Use α → Option (Standing × Reply α)
  | .record name => some (⟨s.now, s.budget.record s.now name⟩, .done)
  | .check name =>
      let (budget, result) := s.budget.recordAndCheck s.now name
      some (⟨s.now, budget⟩, .checked result)
  | .ensure name => some (s, .checked (s.budget.ensureWithin s.now name))
  | .race checkpoint work meanwhile =>
      (s.race? checkpoint work meanwhile).map fun (stop, outcome) => (stop, .settled outcome)
  | .run checkpoint work meanwhile =>
      (s.race? checkpoint work meanwhile).map fun (stop, outcome) =>
        (⟨stop.now, stop.budget.logRace stop.now checkpoint outcome.isOk⟩, .settled outcome)
  | .cancel => some (⟨s.now, s.budget.cancel⟩, .done)
  | .wait d => some (⟨s.now + d, s.budget⟩, .done)

end Standing

/-- What a use notes in the log, given its answer. -/
def Use.noted : Use α → Reply α → List String
  | .record name, _ => [name]
  | .check name, _ => [name]
  | .run checkpoint _ _, .settled (.ok _) => [checkpoint]
  | .run checkpoint _ _, _ => [checkpoint ++ ":exceeded"]
  | .race _ _ _, _ => []
  | .ensure _, _ => []
  | .cancel, _ => []
  | .wait _, _ => []

/-- Uses of a budget one after the other, with their answers. -/
inductive Uses : Standing → List (Use α × Reply α) → Standing → Prop where
  | nil (s : Standing) : Uses s [] s
  | cons {s s₁ s' : Standing} {use : Use α} {reply : Reply α} {course : List (Use α × Reply α)}
      (hact : s.act? use = some (s₁, reply)) (hrest : Uses s₁ course s') :
      Uses s ((use, reply) :: course) s'

variable {use : Use α} {reply : Reply α}

theorem grows_act? (h : s.act? use = some (s', reply)) : Grows s (use.noted reply) s' := by
  cases use with
  | record name | check name =>
    cases h
    exact .record s name
  | ensure name =>
    cases h
    exact .refl s
  | race checkpoint work meanwhile =>
    obtain ⟨⟨stop, outcome⟩, hrace, heq⟩ := Option.map_eq_some_iff.mp h
    cases heq
    exact grows_race? hrace
  | run checkpoint work meanwhile =>
    obtain ⟨⟨stop, outcome⟩, hrace, heq⟩ := Option.map_eq_some_iff.mp h
    cases heq
    cases outcome with
    | ok a => exact (grows_race? hrace).trans (.record stop checkpoint)
    | error e => exact (grows_race? hrace).trans (.record stop (checkpoint ++ ":exceeded"))
  | cancel =>
    cases h
    exact .of_entries (Nat.le_refl _) rfl rfl
  | wait d =>
    cases h
    exact .of_entries (Nat.le_add_right s.now d) rfl rfl

theorem grows_of_uses {course : List (Use α × Reply α)} (h : Uses s course s') :
    Grows s (course.flatMap fun x => x.1.noted x.2) s' := by
  induction h with
  | nil s => exact .refl s
  | cons hact _ ih => exact (grows_act? hact).trans ih

/-! ## 4. Answers -/

/-- How a race has to come out. -/
structure Raced (s : Standing) (checkpoint : String) (work : Option α)
    (meanwhile : List (Happening α)) (stop : Standing) (outcome : Except Exceeded α) : Prop where
  /-- Under an exceeded budget it is lost at once. -/
  exceeded : s.budget.isExceeded s.now = true → meanwhile = [] ∧ stop.now = s.now ∧
    outcome = .error (s.budget.exceeded s.now checkpoint)
  decided : s.budget.isExceeded s.now = false →
    ∀ later, Decided s checkpoint (happened work meanwhile) later stop outcome

/-- What a use has to answer. -/
def Answers (s : Standing) (s' : Standing) : Use α → Reply α → Prop
  | .record _, reply => reply = .done
  | .check name, reply => reply = .checked
      (if s.budget.isExceeded s.now then .error (s.budget.exceeded s.now name) else .ok ())
  | .ensure name, reply => reply = .checked
      (if s.budget.isExceeded s.now then .error (s.budget.exceeded s.now name) else .ok ())
  | .race checkpoint work meanwhile, reply => ∃ outcome, reply = .settled outcome ∧
      Raced s checkpoint work meanwhile s' outcome
  | .run checkpoint work meanwhile, reply => ∃ outcome, reply = .settled outcome ∧
      Raced s checkpoint work meanwhile s' outcome
  | .cancel, reply => reply = .done
  | .wait _, reply => reply = .done

theorem raced_of_race? {work : Option α} {meanwhile : List (Happening α)}
    {outcome : Except Exceeded α}
    (h : s.race? checkpoint work meanwhile = some (stop, outcome)) :
    Raced s checkpoint work meanwhile stop outcome where
  exceeded hexceeded := by
    rw [race?_of_isExceeded hexceeded] at h
    obtain ⟨hempty, heq⟩ := Option.ite_none_right_eq_some.mp h
    cases heq
    exact ⟨List.isEmpty_iff.mp hempty, rfl, rfl⟩
  decided hexceeded := decided_of_race? hexceeded h

/-- What is noted in the log in the end makes no difference to a race. -/
theorem Raced.record {work : Option α} {meanwhile : List (Happening α)}
    {outcome : Except Exceeded α} (h : Raced s checkpoint work meanwhile stop outcome)
    (name : String) :
    Raced s checkpoint work meanwhile ⟨stop.now, stop.budget.record stop.now name⟩ outcome where
  exceeded := h.exceeded
  decided hexceeded later :=
    let hdecided := h.decided hexceeded later
    ⟨hdecided.event, hdecided.first, hdecided.won, hdecided.lost, hdecided.cancelled,
      hdecided.punctual⟩

theorem answers_of_act? (h : s.act? use = some (s', reply)) : Answers s s' use reply := by
  cases use with
  | record | check | ensure | cancel | wait =>
    cases h
    rfl
  | race checkpoint work meanwhile =>
    obtain ⟨⟨stop, outcome⟩, hrace, heq⟩ := Option.map_eq_some_iff.mp h
    cases heq
    exact ⟨outcome, rfl, raced_of_race? hrace⟩
  | run checkpoint work meanwhile =>
    obtain ⟨⟨stop, outcome⟩, hrace, heq⟩ := Option.map_eq_some_iff.mp h
    cases heq
    exact ⟨outcome, rfl, (raced_of_race? hrace).record _⟩

/-- An exceeded budget fails every check and every race, and never asks for the work of a race. -/
structure Refuses (s : Standing) (name : String) (work : Option α) : Prop where
  check : s.act? (.check name : Use α) = some (⟨s.now, s.budget.record s.now name⟩,
    .checked (.error (s.budget.exceeded s.now name)))
  ensure : s.act? (.ensure name : Use α) =
    some (s, .checked (.error (s.budget.exceeded s.now name)))
  race : s.act? (.race name work []) = some (s, .settled (.error (s.budget.exceeded s.now name)))
  run : s.act? (.run name work []) =
    some (⟨s.now, s.budget.record s.now (name ++ ":exceeded")⟩,
      .settled (.error (s.budget.exceeded s.now name)))

theorem refuses_of_isExceeded (h : s.budget.isExceeded s.now = true) (name : String)
    (work : Option α) : Refuses s name work := by
  have hrace : s.race? name work [] = some (s, .error (s.budget.exceeded s.now name)) :=
    race?_of_isExceeded h name work []
  refine ⟨?_, ?_, ?_, ?_⟩
  · have hcheck : (s.budget.record s.now name).ensureWithin s.now name =
        .error (s.budget.exceeded s.now name) := ensureWithin_of_isExceeded h
    rw [Standing.act?, recordAndCheck, hcheck]
  · rw [Standing.act?, ensureWithin_of_isExceeded h]
  · rw [Standing.act?, hrace]
    rfl
  · rw [Standing.act?, hrace]
    rfl

/-- The log grows by what the uses note, the answers are the right ones, an exceeded budget refuses
everything at once, and a race under any other budget is settled as soon as there is an event. -/
theorem log_and_races :
    (∀ (s s' : Standing) (course : List (Use α × Reply α)), Uses s course s' →
      Grows s (course.flatMap fun x => x.1.noted x.2) s' ∧
      (s.budget.entries = [] → s'.budget.entries.Pairwise (·.elapsed ≤ ·.elapsed))) ∧
    (∀ (s s' : Standing) (use : Use α) (reply : Reply α), s.act? use = some (s', reply) →
      Answers s s' use reply) ∧
    (∀ (s : Standing), s.budget.isExceeded s.now = true →
      ∀ (name : String) (work : Option α), Refuses s name work) ∧
    (∀ (s : Standing) (checkpoint : String) (meanwhile : List (Happening α)) (c : Contest α),
      s.budget.isExceeded s.now = false →
      Contest.follow? ⟨s, checkpoint, none⟩ meanwhile = some c →
        ((s.race? checkpoint none meanwhile).isSome = true ↔ ∃ t, IsEvent s meanwhile t)) :=
  ⟨fun _ _ _ h => ⟨grows_of_uses h, (grows_of_uses h).sorted⟩,
    fun _ _ _ _ => answers_of_act?,
    fun _ => refuses_of_isExceeded,
    fun _ _ _ _ hexceeded => isSome_race?_iff hexceeded⟩

/-- A budget of two milliseconds is used for a race that is won and one that comes too late. -/
theorem log_and_races_twoRaces :
    ∃ new, (⟨3000000, ⟨0, some 2000000, false,
        [⟨"start", 0⟩, ⟨"work", 500000⟩, ⟨"late:exceeded", 3000000⟩]⟩⟩ : Standing).budget.entries =
        (Budget.withTimeout 0 2000000).entries ++ new ∧
      new.map (·.name) = ["start", "work", "late:exceeded"] ∧
      new.Pairwise (·.elapsed ≤ ·.elapsed) := by
  have huses : Uses ⟨0, .withTimeout 0 2000000⟩
      [(.record "start", .done), (.run "work" none [.wait 500000, .finish ()], .settled (.ok ())),
        (.wait 2500000, .done),
        (.run "late" (some ()) [], .settled (.error ⟨"late", 3000000, false⟩))]
      ⟨3000000, ⟨0, some 2000000, false,
        [⟨"start", 0⟩, ⟨"work", 500000⟩, ⟨"late:exceeded", 3000000⟩]⟩⟩ :=
    .cons rfl (.cons rfl (.cons rfl (.cons rfl (.nil _))))
  obtain ⟨new, hentries, hnames, hsorted, -⟩ := (log_and_races.1 _ _ _ huses).1.log
  exact ⟨new, hentries, hnames, hsorted⟩

/-- Work that ends after the deadline wins its race as long as the timer of the deadline has not
gone off: the deadline comes after 0.1 ms, and the timer goes off after a whole millisecond. -/
theorem late_work_wins :
    (Budget.withTimeout 0 100000).deadline = some 100000 ∧
      completion? 0 [.wait 700000, .finish ()] = some (700000, ()) ∧
      (⟨0, .withTimeout 0 100000⟩ : Standing).act? (.race "work" none [.wait 700000, .finish ()]) =
        some (⟨700000, .withTimeout 0 100000⟩, .settled (.ok ())) ∧
      (⟨"work", some 900000, none⟩ : Trial).race 0 0 (Family.empty.add (.withTimeout 0 100000)) =
        some (Family.empty.add (.withTimeout 0 100000), 1000000, .ok ()) := by
  have hlooks : (⟨"work", some 900000, none⟩ : Trial).looks (.withTimeout 0 100000) 0 =
      [1000000, 1000000] := List.mergeSort_of_pairwise (by decide)
  refine ⟨rfl, rfl, rfl, ?_⟩
  show (⟨"work", some 900000, none⟩ : Trial).watch 0 0 (Family.empty.add (.withTimeout 0 100000))
    ((⟨"work", some 900000, none⟩ : Trial).looks (.withTimeout 0 100000) 0) = _
  rw [hlooks]
  rfl

end Playground.Budget
