import Mathlib.Tactic.Ring
import Playground.Budget.Allowance
/-!
# Overruns

Work finds out that its budget has run out at a check, when it opens a race, or when it looks at
one.  Whichever way it is, the report is one of that very budget, which has run out indeed.
-/

namespace Playground

/-! ## 1. Timers -/

namespace Clock

variable {now deadline t : Instant}

/-- A timer never fires early. -/
theorem le_of_hasFired {now deadline : Nat} (h : hasFired now deadline = true) :
    deadline ≤ now := by
  have hticks : (deadline + (1000000 - 1)) / 1000000 ≤ now / 1000000 := of_decide_eq_true h
  omega

theorem hasFired_iff : hasFired now deadline = true ↔ tickFrom deadline ≤ tickOf now :=
  decide_eq_true_iff

theorem tickOf_mono (h : now ≤ t) : tickOf now ≤ tickOf t :=
  Nat.div_le_div_right h

theorem tickOf_le_tickFrom (h : now ≤ deadline) : tickOf now ≤ tickFrom deadline :=
  Nat.div_le_div_right (Nat.le_trans h (Nat.le_add_right deadline (milli - 1)))

theorem tickOf_wakeTime (now deadline : Instant) :
    tickOf (wakeTime now deadline) = tickOf now + (tickFrom deadline - tickOf now) :=
  Nat.add_mul_div_right now (tickFrom deadline - tickOf now) (by decide)

/-- Who sleeps no longer than until a timer fires wakes up no later than at its tick. -/
theorem tickOf_le_of_le_wakeTime (h : tickOf now ≤ tickFrom deadline)
    (ht : t ≤ wakeTime now deadline) : tickOf t ≤ tickFrom deadline := by
  calc tickOf t ≤ tickOf (wakeTime now deadline) := tickOf_mono ht
    _ = tickOf now + (tickFrom deadline - tickOf now) := tickOf_wakeTime now deadline
    _ = tickFrom deadline := Nat.add_sub_of_le h

/-- A clock that jumps from tick to tick keeps its place between two ticks. -/
theorem wakeTime_mod (now deadline : Instant) : wakeTime now deadline % milli = now % milli :=
  Nat.add_mul_mod_self_right ..

theorem wakeTime_eq (h : tickOf now ≤ tickFrom deadline) :
    wakeTime now deadline = tickFrom deadline * milli + now % milli := by
  have hnow : tickOf now * milli + now % milli = now := Nat.div_add_mod' now milli
  calc wakeTime now deadline
      = tickOf now * milli + now % milli + (tickFrom deadline - tickOf now) * milli := by
        rw [hnow, wakeTime]
    _ = (tickOf now + (tickFrom deadline - tickOf now)) * milli + now % milli := by ring
    _ = tickFrom deadline * milli + now % milli := by rw [Nat.add_sub_of_le h]

theorem hasFired_wakeTime (now deadline : Instant) :
    hasFired (wakeTime now deadline) deadline = true := by
  rw [hasFired_iff, tickOf_wakeTime]
  omega

end Clock

namespace Budget

variable {b b' : Budget} {now : Instant} {checkpoint : String} {e : Exceeded} {α : Type}
  {work : Option α}

/-! ## 2. Reports -/

/-- The report is one of this budget, which has run out or was cancelled. -/
structure Overran (b : Budget) (now : Instant) (e : Exceeded) : Prop where
  isExceeded : b.isExceeded now = true
  report : e = b.exceeded now e.checkpoint

theorem overran_of_ensureWithin (h : b.ensureWithin now checkpoint = .error e) :
    b.Overran now e := by
  unfold ensureWithin at h
  split at h
  · rename_i hexceeded
    obtain rfl := Except.error.inj h
    exact ⟨hexceeded, rfl⟩
  · cases h

theorem isDue_of_hasFired (h : b.deadline.any (Clock.hasFired now) = true) :
    b.isDue now = true := by
  obtain ⟨deadline, hdeadline, hfired⟩ := (Option.any_eq_true _ _).mp h
  rw [isDue, hdeadline]
  exact decide_eq_true (Clock.le_of_hasFired hfired)

theorem overran_of_poll (h : b.poll now checkpoint work = .lost e) : b.Overran now e := by
  have hreport : b.isExceeded now = true → b.exceeded now checkpoint = e → b.Overran now e := by
    rintro hexceeded rfl
    exact ⟨hexceeded, rfl⟩
  unfold poll at h
  split at h
  · rename_i hcancelled
    refine hreport ?_ (Race.lost.inj h)
    rw [isExceeded, hcancelled, Bool.true_or]
  · split at h
    · cases h
    · split at h
      · rename_i hfired
        refine hreport ?_ (Race.lost.inj h)
        rw [isExceeded, isDue_of_hasFired hfired, Bool.or_true]
      · cases h

theorem overran_of_open? (h : b.open? now checkpoint work = .lost e) : b.Overran now e := by
  unfold open? at h
  split at h
  · rename_i hcheck
    obtain rfl := Race.lost.inj h
    exact overran_of_ensureWithin hcheck
  · exact overran_of_poll h

/-- A race whose deadline has passed is lost unless the work is done. -/
theorem poll_of_hasFired (h : b.deadline.any (Clock.hasFired now) = true) :
    b.poll now checkpoint (none : Option α) = .lost (b.exceeded now checkpoint) := by
  unfold poll
  dsimp only
  rw [if_pos h, ite_self]

theorem ensureWithin_of_isExceeded (h : b.isExceeded now = true) :
    b.ensureWithin now checkpoint = .error (b.exceeded now checkpoint) := if_pos h

theorem ensureWithin_of_not_isExceeded (h : b.isExceeded now = false) :
    b.ensureWithin now checkpoint = .ok () := if_neg (h ▸ Bool.false_ne_true)

/-- A race under an exceeded budget is lost, and nobody looks at the work. -/
theorem open?_eq_lost (h : b.isExceeded now = true) :
    b.open? now checkpoint work = .lost (b.exceeded now checkpoint) := by
  rw [open?, ensureWithin_of_isExceeded h]

theorem open?_eq_poll (h : b.isExceeded now = false) :
    b.open? now checkpoint work = b.poll now checkpoint work := by
  rw [open?, ensureWithin_of_not_isExceeded h]

theorem poll_some_of_not_cancelled (h : b.cancelled = false) (a : α) :
    b.poll now checkpoint (some a) = .won a := if_neg (h ▸ Bool.false_ne_true)

/-- A race stays open as long as nothing has come of it and its budget lasts. -/
theorem poll_eq_pending_iff :
    b.poll now checkpoint work = .pending ↔
      work = none ∧ b.cancelled = false ∧ b.deadline.any (Clock.hasFired now) = false := by
  unfold poll
  cases b.cancelled <;> cases work <;> cases b.deadline.any (Clock.hasFired now) <;> simp

/-! ## 3. The log apart -/

/-- Two budgets that differ in what they have logged at most. -/
structure Alike (b b' : Budget) : Prop where
  started : b'.started = b.started
  deadline : b'.deadline = b.deadline
  cancelled : b'.cancelled = b.cancelled

namespace Alike

theorem refl (b : Budget) : Alike b b := ⟨rfl, rfl, rfl⟩

theorem symm (h : Alike b b') : Alike b' b :=
  ⟨h.started.symm, h.deadline.symm, h.cancelled.symm⟩

theorem trans {b₁ b₂ b₃ : Budget} (h : Alike b₁ b₂) (h' : Alike b₂ b₃) : Alike b₁ b₃ :=
  ⟨h'.started.trans h.started, h'.deadline.trans h.deadline, h'.cancelled.trans h.cancelled⟩

theorem record (b : Budget) (now : Instant) (name : String) : Alike b (b.record now name) :=
  ⟨rfl, rfl, rfl⟩

theorem isExceeded (h : Alike b b') (now : Instant) : b'.isExceeded now = b.isExceeded now := by
  rw [Budget.isExceeded, Budget.isExceeded, isDue, isDue, h.cancelled, h.deadline]

end Alike

/-! ## 4. Granted budgets -/

/-- The budget was granted on these terms, and may have been cancelled since. -/
def Terms.Granted (t : Terms) (b : Budget) : Prop :=
  ∃ since, b.started = since ∧ b.deadline = (t.grant since).budget.deadline ∧
    (t.cancelled = true → b.cancelled = true)

namespace Terms.Granted

variable {t : Terms}

theorem grant (t : Terms) (now : Instant) : t.Granted (t.grant now).budget := by
  obtain ⟨timeout, cancelled, cancelAfter⟩ := t
  refine ⟨now, ?_, rfl, ?_⟩
  · cases timeout <;> cases cancelled <;> rfl
  · rintro rfl
    rfl

theorem alike (h : t.Granted b) (hb : Alike b b') : t.Granted b' := by
  obtain ⟨since, hstarted, hdeadline, hcancelled⟩ := h
  exact ⟨since, hb.started.trans hstarted, hb.deadline.trans hdeadline,
    fun h => hb.cancelled.trans (hcancelled h)⟩

theorem cancel (h : t.Granted b) : t.Granted b.cancel := by
  obtain ⟨since, hstarted, hdeadline, -⟩ := h
  exact ⟨since, hstarted, hdeadline, fun _ => rfl⟩

end Terms.Granted

/-! ## 5. Checkpoints in a log

Work with several stages leaves a checkpoint at each of them.  A log is in order if its checkpoints
are the first ones of a list, and at most the last of them tells of a race that was lost. -/

section Checkpoints

variable {b : Budget} {now : Instant} {full full' noted : List String}

/-- The names of the checkpoints in the log, oldest first. -/
def names (b : Budget) : List String := b.entries.map (·.name)

/-- The budget with checkpoints of these names added to its log. -/
def note (b : Budget) (now : Instant) (names : List String) : Budget :=
  names.foldl (·.record now ·) b

theorem names_record (b : Budget) (now : Instant) (name : String) :
    (b.record now name).names = b.names ++ [name] := by
  rw [names, record, List.map_append]
  rfl

theorem names_note (b : Budget) (now : Instant) (names : List String) :
    (b.note now names).names = b.names ++ names := by
  induction names generalizing b with
  | nil => exact (List.append_nil _).symm
  | cons name names ih =>
    show ((b.record now name).note now names).names = _
    rw [ih, names_record, List.append_assoc]
    rfl

theorem Alike.note (b : Budget) (now : Instant) (names : List String) :
    Alike b (b.note now names) := by
  induction names generalizing b with
  | nil => exact .refl b
  | cons name names ih => exact (Alike.record b now name).trans (ih _)

/-- The names are the first ones of the list, apart from a suffix that the last one may have. -/
inductive InOrder (full : List String) : List String → Prop where
  | going (front : List String) (hfront : front <+: full) : InOrder full front
  | ended (front : List String) (checkpoint : String) (hfront : front ++ [checkpoint] <+: full) :
      InOrder full (front ++ [checkpoint ++ ":exceeded"])

theorem InOrder.mono (h : InOrder full noted) (hfull : full <+: full') : InOrder full' noted := by
  cases h with
  | going _ hfront => exact .going _ (hfront.trans hfull)
  | ended front checkpoint hfront => exact .ended front checkpoint (hfront.trans hfull)

theorem InOrder.append (front : List String) (h : InOrder full noted) :
    InOrder (front ++ full) (front ++ noted) := by
  cases h with
  | going _ hnames => exact .going _ ((List.prefix_append_right_inj front).mpr hnames)
  | ended names checkpoint hnames =>
    rw [← List.append_assoc]
    refine .ended (front ++ names) checkpoint ?_
    rw [List.append_assoc]
    exact (List.prefix_append_right_inj front).mpr hnames

end Checkpoints

end Budget

end Playground
