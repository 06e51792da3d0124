import Mathlib.Data.List.Induction
import Playground.Budget.Family
import Playground.Proofs.Overrun
/-!
# Races

While a race is open time passes, its work ends, or its budget is cancelled.  Time stands still as
soon as the race can be settled, and the clock stops for the timer of the deadline.  So a race is
settled at the first instant at which its work ends, its budget is cancelled or that timer goes off,
and unless two of these fall together it is won if and only if the first of them is the end of the
work.
-/

namespace Playground

namespace Budget

variable {α β : Type}

/-! ## 1. What happens while a race is open -/

/-- A budget at a time. -/
structure Standing where
  now : Instant
  budget : Budget
deriving DecidableEq, Repr

/-- What can happen while a race is open. -/
inductive Happening (α : Type) where
  | wait (d : Duration)
  /-- The work ends. -/
  | finish (a : α)
  | cancel
deriving DecidableEq, Repr

/-- An open race. -/
structure Contest (α : Type) extends Standing where
  checkpoint : String
  /-- The outcome of the work, once it has ended. -/
  work : Option α
deriving DecidableEq, Repr

namespace Contest

/-- What comes of the race when it is looked at. -/
def verdict (c : Contest α) : Race α :=
  c.budget.poll c.now c.checkpoint c.work

/-- Whether nothing comes of the race yet. -/
def isOpen (c : Contest α) : Bool :=
  match c.verdict with
  | .pending => true
  | _ => false

/-- Whether time may pass: the race is open, and the clock stops for the timer of its deadline. -/
def mayWait (c : Contest α) (d : Duration) : Bool :=
  c.isOpen && (c.budget.timer c.now).all fun wake => decide (c.now + d ≤ wake)

/-- The race after something has happened, if that is possible. -/
def after? (c : Contest α) : Happening α → Option (Contest α)
  | .wait d => if c.mayWait d then some { c with now := c.now + d } else none
  | .finish a => if c.work.isNone then some { c with work := some a } else none
  | .cancel => some { c with budget := c.budget.cancel }

/-- The race after some happenings, if they are possible one after the other. -/
def follow? (c : Contest α) : List (Happening α) → Option (Contest α)
  | [] => some c
  | h :: hs => (c.after? h).bind (·.follow? hs)

/-- The budget and the outcome, once something comes of the race. -/
def settled? (c : Contest α) : Option (Standing × Except Exceeded α) :=
  match c.verdict with
  | .pending => none
  | .won a => some (c.toStanding, .ok a)
  | .lost e => some (c.toStanding, .error e)

theorem follow?_append (c : Contest α) (hs hs' : List (Happening α)) :
    c.follow? (hs ++ hs') = (c.follow? hs).bind (·.follow? hs') := by
  induction hs generalizing c with
  | nil => rfl
  | cons h hs ih =>
    rw [List.cons_append, follow?, follow?, Option.bind_assoc]
    exact congrArg _ (funext ih)

theorem follow?_concat (c : Contest α) (hs : List (Happening α)) (h : Happening α) :
    c.follow? (hs ++ [h]) = (c.follow? hs).bind (·.after? h) := by
  rw [follow?_append]
  refine congrArg _ (funext fun c' => ?_)
  rw [follow?]
  cases c'.after? h <;> rfl

end Contest

/-- Races work under the budget, and gives the budget and the outcome when the race is settled.  The
work has ended at once, or it goes on while the things happen that `meanwhile` lists. -/
def Standing.race? (s : Standing) (checkpoint : String) (work : Option α)
    (meanwhile : List (Happening α)) : Option (Standing × Except Exceeded α) :=
  match s.budget.open? s.now checkpoint work with
  | .pending => (Contest.follow? ⟨s, checkpoint, none⟩ meanwhile).bind (·.settled?)
  | .won a => if meanwhile.isEmpty then some (s, .ok a) else none
  | .lost e => if meanwhile.isEmpty then some (s, .error e) else none

/-! ## 2. When something happens -/

namespace Happening

/-- The time after a happening. -/
def after (now : Instant) : Happening α → Instant
  | wait d => now + d
  | _ => now

/-- The outcome of the work that ends. -/
def outcome? : Happening α → Option α
  | finish a => some a
  | _ => none

/-- Whether the budget is cancelled. -/
def cancels? : Happening α → Option Unit
  | cancel => some ()
  | _ => none

end Happening

/-- The time after some happenings. -/
def timeAfter (now : Instant) (hs : List (Happening α)) : Instant :=
  hs.foldl Happening.after now

/-- The first happening of a kind, and its time. -/
def first? (kind : Happening α → Option β) (now : Instant) :
    List (Happening α) → Option (Instant × β)
  | [] => none
  | h :: hs =>
      match kind h with
      | some b => some (now, b)
      | none => first? kind (h.after now) hs

/-- When the work ends, and with which outcome. -/
def completion? (now : Instant) (hs : List (Happening α)) : Option (Instant × α) :=
  first? Happening.outcome? now hs

/-- When the budget is cancelled. -/
def cancellation? (now : Instant) (hs : List (Happening α)) : Option Instant :=
  (first? Happening.cancels? now hs).map (·.1)

/-- The first time on the clock at which the timer of the deadline has gone off. -/
def alarm? (deadline : Option Instant) (now : Instant) : List (Happening α) → Option Instant
  | [] => if deadline.any (Clock.hasFired now) then some now else none
  | h :: hs =>
      if deadline.any (Clock.hasFired now) then some now else alarm? deadline (h.after now) hs

variable {kind : Happening α → Option β} {now t : Instant} {deadline : Option Instant}
  {hs hs' : List (Happening α)} {h : Happening α}

theorem Happening.le_after (now : Instant) (h : Happening α) : now ≤ h.after now := by
  cases h with
  | wait d => exact Nat.le_add_right now d
  | finish | cancel => exact Nat.le_refl now

theorem timeAfter_append (now : Instant) (hs hs' : List (Happening α)) :
    timeAfter now (hs ++ hs') = timeAfter (timeAfter now hs) hs' :=
  List.foldl_append

theorem first?_append (kind : Happening α → Option β) (now : Instant)
    (hs hs' : List (Happening α)) :
    first? kind now (hs ++ hs') =
      (first? kind now hs).or (first? kind (timeAfter now hs) hs') := by
  induction hs generalizing now with
  | nil => rfl
  | cons h hs ih =>
    rw [List.cons_append, first?, first?]
    cases kind h with
    | some b => rfl
    | none => exact ih (h.after now)

theorem le_of_first? {b : β} (h : first? kind now hs = some (t, b)) : now ≤ t := by
  induction hs generalizing now with
  | nil => cases h
  | cons x hs ih =>
    rw [first?] at h
    split at h
    · cases h
      exact Nat.le_refl _
    · exact Nat.le_trans (x.le_after now) (ih h)

theorem completion?_append (now : Instant) (hs hs' : List (Happening α)) :
    completion? now (hs ++ hs') =
      (completion? now hs).or (completion? (timeAfter now hs) hs') :=
  first?_append _ now hs hs'

theorem cancellation?_append (now : Instant) (hs hs' : List (Happening α)) :
    cancellation? now (hs ++ hs') =
      (cancellation? now hs).or (cancellation? (timeAfter now hs) hs') := by
  rw [cancellation?, first?_append, Option.map_or]
  rfl

theorem le_of_cancellation? (h : cancellation? now hs = some t) : now ≤ t := by
  obtain ⟨⟨t', u⟩, hfirst, rfl⟩ := Option.map_eq_some_iff.mp h
  exact le_of_first? hfirst

theorem alarm?_append (deadline : Option Instant) (now : Instant) (hs hs' : List (Happening α)) :
    alarm? deadline now (hs ++ hs') =
      (alarm? deadline now hs).or (alarm? deadline (timeAfter now hs) hs') := by
  induction hs generalizing now with
  | nil =>
    show alarm? deadline now hs' = (alarm? deadline now []).or (alarm? deadline now hs')
    cases hs' with
    | nil => exact Option.or_self.symm
    | cons h hs' => cases hfired : deadline.any (Clock.hasFired now) <;> simp [alarm?, hfired]
  | cons h hs ih =>
    rw [List.cons_append, alarm?, alarm?]
    cases deadline.any (Clock.hasFired now) with
    | true => rfl
    | false => exact ih (h.after now)

theorem le_of_alarm? (h : alarm? deadline now hs = some t) : now ≤ t := by
  induction hs generalizing now with
  | nil =>
    obtain ⟨-, heq⟩ := Option.ite_none_right_eq_some.mp h
    exact Nat.le_of_eq (Option.some.inj heq)
  | cons x hs ih =>
    rw [alarm?] at h
    split at h
    · exact Nat.le_of_eq (Option.some.inj h)
    · exact Nat.le_trans (x.le_after now) (ih h)

theorem hasFired_of_alarm? (h : alarm? deadline now hs = some t) :
    deadline.any (Clock.hasFired t) = true := by
  induction hs generalizing now with
  | nil =>
    obtain ⟨hfired, heq⟩ := Option.ite_none_right_eq_some.mp h
    rwa [← Option.some.inj heq]
  | cons x hs ih =>
    rw [alarm?] at h
    split at h
    · rename_i hfired
      rwa [← Option.some.inj h]
    · exact ih h

/-! ## 3. An open race goes on -/

namespace Contest

variable {c c' c'' : Contest α}

theorem isOpen_iff :
    c.isOpen = true ↔ c.work = none ∧ c.budget.cancelled = false ∧
      c.budget.deadline.any (Clock.hasFired c.now) = false := by
  have hpending : c.budget.poll c.now c.checkpoint c.work = .pending ↔ _ := poll_eq_pending_iff
  rw [← hpending, isOpen, verdict]
  cases c.budget.poll c.now c.checkpoint c.work <;> simp

/-- What is known of a race that was open and has gone on: whatever can settle it has happened just
now, if it has happened at all, and the timer of the deadline has not been missed. -/
structure Followed (c : Contest α) (hs : List (Happening α)) (c' : Contest α) : Prop where
  checkpoint : c'.checkpoint = c.checkpoint
  started : c'.budget.started = c.budget.started
  deadline : c'.budget.deadline = c.budget.deadline
  now : c'.now = timeAfter c.now hs
  completion : completion? c.now hs = c'.work.map fun a => (c'.now, a)
  cancellation : cancellation? c.now hs = if c'.budget.cancelled then some c'.now else none
  alarm : alarm? c.budget.deadline c.now hs =
    if c.budget.deadline.any (Clock.hasFired c'.now) then some c'.now else none
  punctual : ∀ d, c.budget.deadline = some d → Clock.tickOf c'.now ≤ Clock.tickFrom d

theorem Followed.start (hopen : c.isOpen = true) : Followed c [] c := by
  obtain ⟨hwork, hcancelled, hfired⟩ := isOpen_iff.mp hopen
  refine ⟨rfl, rfl, rfl, rfl, by rw [hwork]; rfl, by rw [hcancelled]; rfl, rfl, fun d hd => ?_⟩
  rw [hd, Option.any_some, ← Bool.not_eq_true, Clock.hasFired_iff] at hfired
  omega

/-- Time passes only while nothing has happened that can settle the race. -/
theorem Followed.wait {d : Duration} (h : Followed c hs c') (hwait : c'.mayWait d = true) :
    Followed c (hs ++ [.wait d]) { c' with now := c'.now + d } := by
  -- the race is still open, so there has been no event before the wait
  obtain ⟨hopen, htimer⟩ := (Bool.and_eq_true _ _).mp hwait
  obtain ⟨hwork, hcancelled, hfired⟩ := isOpen_iff.mp hopen
  rw [h.deadline] at hfired
  have hcompletion : completion? c.now hs = none := by rw [h.completion, hwork]; rfl
  have hcancellation : cancellation? c.now hs = none := by rw [h.cancellation, hcancelled]; rfl
  have halarm : alarm? c.budget.deadline c.now hs = none := by rw [h.alarm, hfired]; rfl
  refine ⟨h.checkpoint, h.started, h.deadline, ?_, ?_, ?_, ?_, fun deadline hd => ?_⟩
  · rw [timeAfter_append, ← h.now]
    rfl
  · rw [completion?_append, hcompletion, hwork]
    rfl
  · rw [cancellation?_append, hcancellation, hcancelled]
    rfl
  · rw [alarm?_append, halarm, Option.none_or, ← h.now, alarm?, hfired, if_neg Bool.false_ne_true]
    rfl
  · have hwake : c'.now + d ≤ Clock.wakeTime c'.now deadline := by
      rw [timer, h.deadline, hd] at htimer
      exact of_decide_eq_true htimer
    exact Clock.tickOf_le_of_le_wakeTime (h.punctual deadline hd) hwake

/-- Happenings that take no time leave it at the alarm there has been. -/
theorem Followed.alarm_concat {x : Happening α} (h : Followed c hs c')
    (hx : ∀ now, x.after now = now) :
    alarm? c.budget.deadline c.now (hs ++ [x]) =
      if c.budget.deadline.any (Clock.hasFired c'.now) then some c'.now else none := by
  rw [alarm?_append, h.alarm, ← h.now, alarm?, hx, alarm?]
  cases c.budget.deadline.any (Clock.hasFired c'.now) <;> rfl

theorem Followed.after? {x : Happening α} (h : Followed c hs c') (hafter : c'.after? x = some c'') :
    Followed c (hs ++ [x]) c'' := by
  have hnow : timeAfter c.now (hs ++ [x]) = x.after c'.now := by
    rw [timeAfter_append, ← h.now]
    rfl
  cases x with
  | wait d =>
    obtain ⟨hwait, heq⟩ := Option.ite_none_right_eq_some.mp hafter
    rw [← Option.some.inj heq]
    exact h.wait hwait
  | finish a =>
    obtain ⟨hwork, heq⟩ := Option.ite_none_right_eq_some.mp hafter
    rw [Option.isNone_iff_eq_none] at hwork
    rw [← Option.some.inj heq]
    refine ⟨h.checkpoint, h.started, h.deadline, hnow.symm, ?_, ?_, h.alarm_concat fun _ => rfl,
      h.punctual⟩
    · rw [completion?_append, h.completion, hwork, ← h.now]
      rfl
    · rw [cancellation?_append, h.cancellation]
      exact Option.or_none
  | cancel =>
    rw [← Option.some.inj hafter]
    refine ⟨h.checkpoint, h.started, h.deadline, hnow.symm, ?_, ?_, h.alarm_concat fun _ => rfl,
      h.punctual⟩
    · rw [completion?_append, h.completion]
      exact Option.or_none
    · rw [cancellation?_append, h.cancellation, ← h.now]
      cases c'.budget.cancelled <;> rfl

theorem followed_of_follow? (hopen : c.isOpen = true) (h : c.follow? hs = some c') :
    Followed c hs c' := by
  -- what is known is about the first standing, so the last happening is the one to split off
  induction hs using List.reverseRecOn generalizing c' with
  | nil =>
    obtain rfl := Option.some.inj h
    exact .start hopen
  | append_singleton hs x ih =>
    rw [follow?_concat] at h
    obtain ⟨c₁, hfollow, hafter⟩ := Option.bind_eq_some_iff.mp h
    exact (ih hfollow).after? hafter

end Contest

/-! ## 4. The end of a race -/

/-- The work ends at the given time, the budget is cancelled then, or the timer of its deadline goes
off. -/
def IsEvent (s : Standing) (hs : List (Happening α)) (t : Instant) : Prop :=
  (∃ a, completion? s.now hs = some (t, a)) ∨ cancellation? s.now hs = some t ∨
    alarm? s.budget.deadline s.now hs = some t

/-- How a race has to end that was opened with the budget at `s`, when some things happen
`meanwhile` and others would happen later. -/
structure Decided (s : Standing) (checkpoint : String) (meanwhile later : List (Happening α))
    (stop : Standing) (outcome : Except Exceeded α) : Prop where
  /-- It ends at the first event that there is. -/
  event : IsEvent s (meanwhile ++ later) stop.now
  first : ∀ t, IsEvent s (meanwhile ++ later) t → stop.now ≤ t
  /-- It is won when the work ends before the other events. -/
  won : ∀ t a, completion? s.now (meanwhile ++ later) = some (t, a) →
    (∀ k, cancellation? s.now (meanwhile ++ later) = some k → t < k) →
    (∀ k, alarm? s.budget.deadline s.now (meanwhile ++ later) = some k → t < k) →
      outcome = .ok a
  /-- It is lost when the work does not end before one of the other events has come. -/
  lost : (∀ t a, completion? s.now (meanwhile ++ later) = some (t, a) → ∃ k < t,
      cancellation? s.now (meanwhile ++ later) = some k ∨
        alarm? s.budget.deadline s.now (meanwhile ++ later) = some k) →
    outcome = .error ⟨checkpoint, stop.now - s.budget.started, stop.budget.cancelled⟩
  /-- The budget is cancelled in the end if somebody has cancelled it by then. -/
  cancelled : stop.budget.cancelled = true ↔ Happening.cancel ∈ meanwhile
  /-- The timer of the deadline goes off at the first tick that is not before the deadline, and the
  race has ended by then. -/
  punctual : ∀ deadline, s.budget.deadline = some deadline →
    Clock.tickOf stop.now ≤ Clock.tickFrom deadline ∧
      ∀ t, alarm? s.budget.deadline s.now (meanwhile ++ later) = some t →
        Clock.tickFrom deadline ≤ Clock.tickOf t

theorem cancellation?_isSome_iff :
    (cancellation? now hs).isSome = true ↔ Happening.cancel ∈ hs := by
  rw [cancellation?, Option.isSome_map]
  induction hs generalizing now with
  | nil => simp [first?]
  | cons h hs ih => cases h <;> simp [first?, Happening.cancels?, ih]

namespace Contest

variable {c c' : Contest α} {later : List (Happening α)} {a : α} {e : Exceeded} {stop : Standing}
  {outcome : Except Exceeded α}

theorem verdict_eq_won_iff :
    c.verdict = .won a ↔ c.budget.cancelled = false ∧ c.work = some a := by
  rw [verdict]
  unfold poll
  cases c.budget.cancelled <;> cases c.work <;>
    cases c.budget.deadline.any (Clock.hasFired c.now) <;> simp

theorem verdict_eq_lost_iff :
    c.verdict = .lost e ↔ e = c.budget.exceeded c.now c.checkpoint ∧
      (c.budget.cancelled = true ∨
        c.work = none ∧ c.budget.deadline.any (Clock.hasFired c.now) = true) := by
  rw [verdict]
  unfold poll
  cases c.budget.cancelled <;> cases c.work <;>
    cases c.budget.deadline.any (Clock.hasFired c.now) <;> simp [eq_comm]

theorem settled?_cases (h : c.settled? = some (stop, outcome)) :
    stop = c.toStanding ∧ ((∃ a, c.verdict = .won a ∧ outcome = .ok a) ∨
      ∃ e, c.verdict = .lost e ∧ outcome = .error e) := by
  unfold settled? at h
  split at h
  · cases h
  · rename_i a hwon
    cases h
    exact ⟨rfl, .inl ⟨a, hwon, rfl⟩⟩
  · rename_i e hlost
    cases h
    exact ⟨rfl, .inr ⟨e, hlost, rfl⟩⟩

/-! Whatever happens later does not come before the race is looked at for the last time. -/

namespace Followed

theorem completion_append (h : Followed c hs c') :
    completion? c.now (hs ++ later) =
      (c'.work.map fun a => (c'.now, a)).or (completion? c'.now later) := by
  rw [completion?_append, h.completion, h.now]

theorem cancellation_append (h : Followed c hs c') :
    cancellation? c.now (hs ++ later) =
      (if c'.budget.cancelled then some c'.now else none).or (cancellation? c'.now later) := by
  rw [cancellation?_append, h.cancellation, h.now]

theorem alarm_append (h : Followed c hs c') :
    alarm? c.budget.deadline c.now (hs ++ later) =
      (if c.budget.deadline.any (Clock.hasFired c'.now) then some c'.now else none).or
        (alarm? c.budget.deadline c'.now later) := by
  rw [alarm?_append, h.alarm, h.now]

theorem le_of_isEvent (h : Followed c hs c') (ht : IsEvent c.toStanding (hs ++ later) t) :
    c'.now ≤ t := by
  rcases ht with ⟨a, ht⟩ | ht | ht
  · rw [h.completion_append, Option.or_eq_some_iff] at ht
    rcases ht with ht | ⟨-, ht⟩
    · obtain ⟨a', -, heq⟩ := Option.map_eq_some_iff.mp ht
      exact Nat.le_of_eq (Prod.ext_iff.mp heq).1
    · exact le_of_first? ht
  · rw [h.cancellation_append, Option.or_eq_some_iff] at ht
    rcases ht with ht | ⟨-, ht⟩
    · exact Nat.le_of_eq (Option.some.inj (Option.ite_none_right_eq_some.mp ht).2)
    · exact le_of_cancellation? ht
  · rw [h.alarm_append, Option.or_eq_some_iff] at ht
    rcases ht with ht | ⟨-, ht⟩
    · exact Nat.le_of_eq (Option.some.inj (Option.ite_none_right_eq_some.mp ht).2)
    · exact le_of_alarm? ht

theorem completion_of_won (h : Followed c hs c') (hwon : c'.verdict = .won a)
    (later : List (Happening α)) : completion? c.now (hs ++ later) = some (c'.now, a) := by
  rw [h.completion_append, (verdict_eq_won_iff.mp hwon).2]
  rfl

/-- What makes the race lost is an event other than the end of the work. -/
theorem event_of_lost (h : Followed c hs c') (hlost : c'.verdict = .lost e)
    (later : List (Happening α)) :
    cancellation? c.now (hs ++ later) = some c'.now ∨
      alarm? c.budget.deadline c.now (hs ++ later) = some c'.now := by
  rcases (verdict_eq_lost_iff.mp hlost).2 with hcancelled | ⟨-, hfired⟩
  · left
    rw [h.cancellation_append, hcancelled]
    rfl
  · right
    rw [h.deadline] at hfired
    rw [h.alarm_append, hfired]
    rfl

theorem decided (h : Followed c hs c') (hsettled : c'.settled? = some (stop, outcome))
    (later : List (Happening α)) :
    Decided c.toStanding c.checkpoint hs later stop outcome := by
  obtain ⟨rfl, hverdict⟩ := settled?_cases hsettled
  have hcancelled : c'.budget.cancelled = true ↔ Happening.cancel ∈ hs := by
    have hisSome : (cancellation? c.now hs).isSome = true ↔ _ := cancellation?_isSome_iff
    rw [← hisSome, h.cancellation]
    cases c'.budget.cancelled <;> simp
  have hpunctual : ∀ deadline, c.budget.deadline = some deadline →
      Clock.tickOf c'.now ≤ Clock.tickFrom deadline ∧
        ∀ t, alarm? c.budget.deadline c.now (hs ++ later) = some t →
          Clock.tickFrom deadline ≤ Clock.tickOf t := by
    refine fun deadline hd => ⟨h.punctual deadline hd, fun t ht => ?_⟩
    have hfired := hasFired_of_alarm? ht
    rwa [hd, Option.any_some, Clock.hasFired_iff] at hfired
  rcases hverdict with ⟨a, hwon, rfl⟩ | ⟨e, hlost, rfl⟩
  · -- an event before the end of the work would have come before the last look
    have hcompletion := h.completion_of_won hwon later
    refine ⟨.inl ⟨a, hcompletion⟩, fun t ht => h.le_of_isEvent ht, fun t a' ht _ _ => ?_,
      fun hlate => ?_, hcancelled, hpunctual⟩
    · rw [hcompletion] at ht
      cases ht
      rfl
    · obtain ⟨k, hk, hevent⟩ := hlate c'.now a hcompletion
      exact absurd (h.le_of_isEvent (.inr hevent)) (Nat.not_le.mpr hk)
  · have hevent := h.event_of_lost hlost later
    refine ⟨.inr hevent, fun t ht => h.le_of_isEvent ht, fun t a ht hcancel halarm => ?_,
      fun _ => ?_, hcancelled, hpunctual⟩
    · have hle := h.le_of_isEvent (.inl ⟨a, ht⟩)
      have hlt : t < c'.now := hevent.elim (hcancel _) (halarm _)
      exact absurd hle (Nat.not_le.mpr hlt)
    · rw [(verdict_eq_lost_iff.mp hlost).1, exceeded, elapsed, h.checkpoint, h.started]

/-- Something comes of an open race as soon as there is an event. -/
theorem isSome_settled?_iff (h : Followed c hs c') :
    c'.settled?.isSome = true ↔ ∃ t, IsEvent c.toStanding hs t := by
  have hsome : c'.settled?.isSome = true ↔ ¬c'.isOpen = true := by
    rw [settled?, isOpen]
    cases c'.verdict <;> simp
  rw [hsome, isOpen_iff, h.deadline]
  simp only [IsEvent, h.completion, h.cancellation, h.alarm]
  cases c'.work <;> cases c'.budget.cancelled <;>
    cases c.budget.deadline.any (Clock.hasFired c'.now) <;> simp

end Followed

end Contest

/-! ## 5. Races -/

variable {s stop : Standing} {checkpoint : String} {work : Option α}
  {meanwhile : List (Happening α)} {outcome : Except Exceeded α}

/-- What happens from the opening of a race on: work that has ended at once ends first of all. -/
def happened (work : Option α) (meanwhile : List (Happening α)) : List (Happening α) :=
  (work.map .finish).toList ++ meanwhile

theorem race?_of_isExceeded (h : s.budget.isExceeded s.now = true) (checkpoint : String)
    (work : Option α) (meanwhile : List (Happening α)) :
    s.race? checkpoint work meanwhile = if meanwhile.isEmpty then
      some (s, .error (s.budget.exceeded s.now checkpoint)) else none := by
  unfold Standing.race?
  rw [open?_eq_lost h]

theorem isOpen_of_not_isExceeded (h : s.budget.isExceeded s.now = false) (checkpoint : String) :
    (⟨s, checkpoint, none⟩ : Contest α).isOpen = true := by
  rw [isExceeded, Bool.or_eq_false_iff] at h
  refine Contest.isOpen_iff.mpr ⟨rfl, h.1, ?_⟩
  rw [← Bool.not_eq_true]
  intro hfired
  rw [isDue_of_hasFired hfired] at h
  cases h.2

/-- Under any other budget the race is open until something comes of it. -/
theorem race?_of_not_isExceeded (h : s.budget.isExceeded s.now = false)
    (hrace : s.race? checkpoint work meanwhile = some (stop, outcome)) :
    ∃ c, Contest.follow? ⟨s, checkpoint, none⟩ (happened work meanwhile) = some c ∧
      c.settled? = some (stop, outcome) := by
  have hopen : Contest.isOpen ⟨s, checkpoint, (none : Option α)⟩ = true :=
    isOpen_of_not_isExceeded h checkpoint
  rw [Contest.isOpen_iff] at hopen
  unfold Standing.race? at hrace
  rw [open?_eq_poll h] at hrace
  cases work with
  | none =>
    rw [poll_eq_pending_iff.mpr hopen] at hrace
    exact Option.bind_eq_some_iff.mp hrace
  | some a =>
    have hwon : s.budget.poll s.now checkpoint (some a) = .won a :=
      poll_some_of_not_cancelled hopen.2.1 a
    rw [hwon] at hrace
    obtain ⟨hempty, heq⟩ := Option.ite_none_right_eq_some.mp hrace
    rw [List.isEmpty_iff] at hempty
    subst hempty
    refine ⟨⟨s, checkpoint, some a⟩, rfl, ?_⟩
    unfold Contest.settled? Contest.verdict
    rw [hwon]
    exact heq

/-- A race under a budget that is not exceeded ends as it has to, whatever would happen later. -/
theorem decided_of_race? (h : s.budget.isExceeded s.now = false)
    (hrace : s.race? checkpoint work meanwhile = some (stop, outcome))
    (later : List (Happening α)) :
    Decided s checkpoint (happened work meanwhile) later stop outcome := by
  obtain ⟨c, hfollow, hsettled⟩ := race?_of_not_isExceeded h hrace
  exact (Contest.followed_of_follow? (isOpen_of_not_isExceeded h checkpoint) hfollow).decided
    hsettled later

/-- As soon as there is an event, the race is settled. -/
theorem isSome_race?_iff (h : s.budget.isExceeded s.now = false) {c : Contest α}
    (hfollow : Contest.follow? ⟨s, checkpoint, none⟩ meanwhile = some c) :
    (s.race? checkpoint none meanwhile).isSome = true ↔ ∃ t, IsEvent s meanwhile t := by
  have hopen : Contest.isOpen ⟨s, checkpoint, (none : Option α)⟩ = true :=
    isOpen_of_not_isExceeded h checkpoint
  have hpending : s.budget.open? s.now checkpoint (none : Option α) = .pending := by
    rw [open?_eq_poll h]
    exact poll_eq_pending_iff.mpr (Contest.isOpen_iff.mp hopen)
  unfold Standing.race?
  rw [hpending, ← (Contest.followed_of_follow? hopen hfollow).isSome_settled?_iff]
  dsimp only
  rw [hfollow, Option.bind_some]

/-! ## 6. Trials -/

namespace Family

theorem budget?_cancel {f : Family} {i : Nat} {b : Budget} (h : f.budget? i = some b) (j : Nat) :
    (f.cancel j).budget? i = some b ∨ (f.cancel j).budget? i = some b.cancel := by
  obtain ⟨m, hm, rfl⟩ := Option.map_eq_some_iff.mp h
  have hbudget : (f.cancel j).budget? i =
      some (if j ∈ m.lineage then { m with budget := m.budget.cancel } else m).budget := by
    rw [budget?, cancel, List.getElem?_map, hm]
    rfl
  rw [hbudget]
  split
  · exact .inr rfl
  · exact .inl rfl

end Family

namespace Trial

variable {t : Trial} {i : Nat} {start now stopped : Instant} {f f' revoked : Family}
  {c : Contest Unit} {looks later : List Instant} {b : Budget} {outcome : Except Exceeded Unit}

theorem budget?_revoke (h : f.budget? i = some b) (t : Trial) (start now : Instant) :
    (t.revoke start now f).budget? i = some b ∨
      (t.revoke start now f).budget? i = some b.cancel := by
  unfold revoke
  split
  · split
    · exact Family.budget?_cancel h _
    · exact .inl h
  · exact .inl h

/-- The race of a trial between two looks: it is open, and one of the looks to come is when the timer
of the deadline goes off. -/
structure Watched (t : Trial) (i : Nat) (f : Family) (c : Contest Unit) (looks : List Instant) :
    Prop where
  isOpen : c.isOpen = true
  checkpoint : c.checkpoint = t.checkpoint
  budget : f.budget? i = some c.budget
  sorted : looks.Pairwise (· ≤ ·)
  le : ∀ x ∈ looks, c.now ≤ x
  aligned : ∀ x ∈ looks, x % Clock.milli = c.now % Clock.milli
  timer : ∀ deadline, c.budget.deadline = some deadline → Clock.wakeTime c.now deadline ∈ looks

theorem tickOf_le_of_isOpen (h : c.isOpen = true) {deadline : Instant}
    (hdeadline : c.budget.deadline = some deadline) :
    Clock.tickOf c.now ≤ Clock.tickFrom deadline := by
  have hfired := (Contest.isOpen_iff.mp h).2.2
  rw [hdeadline, Option.any_some, ← Bool.not_eq_true, Clock.hasFired_iff] at hfired
  exact Nat.le_of_not_le hfired

theorem Watched.after?_wait (h : Watched t i f c (now :: later)) :
    c.after? (.wait (now - c.now)) = some { c with now := now } := by
  have hnow : c.now + (now - c.now) = now := Nat.add_sub_of_le (h.le now List.mem_cons_self)
  have htimer : ((c.budget.timer c.now).all fun wake => decide (now ≤ wake)) = true := by
    rw [Budget.timer]
    cases hdeadline : c.budget.deadline with
    | none => rfl
    | some deadline =>
      rw [Option.map_some, Option.all_some, decide_eq_true_eq]
      rcases List.mem_cons.mp (h.timer deadline hdeadline) with heq | hmem
      · exact heq.ge
      · exact (List.pairwise_cons.mp h.sorted).1 _ hmem
  rw [Contest.after?, Contest.mayWait, hnow, h.isOpen, htimer]
  rfl

/-- A look that leaves the race open comes before the timer of the deadline goes off. -/
theorem Watched.next (h : Watched t i f c (now :: later))
    (hopen : ({ c with now := now } : Contest Unit).isOpen = true)
    (hbudget : revoked.budget? i = some c.budget) :
    Watched t i revoked { c with now := now } later := by
  obtain ⟨hle, hsorted⟩ := List.pairwise_cons.mp h.sorted
  have haligned := h.aligned now List.mem_cons_self
  refine ⟨hopen, h.checkpoint, hbudget, hsorted, hle, fun x hx => ?_, fun deadline hdeadline => ?_⟩
  · exact (h.aligned x (List.mem_cons_of_mem _ hx)).trans haligned.symm
  · have hwake : Clock.wakeTime now deadline = Clock.wakeTime c.now deadline := by
      rw [Clock.wakeTime_eq (tickOf_le_of_isOpen hopen hdeadline), haligned,
        Clock.wakeTime_eq (tickOf_le_of_isOpen h.isOpen hdeadline)]
    show Clock.wakeTime now deadline ∈ later
    rw [hwake]
    refine (List.mem_cons.mp (h.timer deadline hdeadline)).resolve_left fun heq => ?_
    have hfired := (Contest.isOpen_iff.mp hopen).2.2
    rw [hdeadline, Option.any_some] at hfired
    have hfires := Clock.hasFired_wakeTime c.now deadline
    rw [heq] at hfires
    exact Bool.false_ne_true (hfired.symm.trans hfires)

/-- A look sees what comes of the race by then. -/
theorem Watched.look_eq {g : Family} (h : Watched t i f c looks) (hb : g.budget? i = some b) :
    t.look i start now g =
      some (b.poll now c.checkpoint (if t.isDone start now then some () else none)) := by
  rw [look, hb, h.checkpoint]
  rfl

/-- What comes of a race that is watched comes of it while it goes on. -/
theorem exists_follow?_of_watch (h : Watched t i f c looks)
    (hwatch : t.watch i start f looks = some (f', stopped, outcome)) :
    ∃ meanwhile stop, (c.follow? meanwhile).bind (·.settled?) = some (⟨stopped, stop⟩, outcome) ∧
      f'.budget? i = some stop := by
  -- on the looks that are left: each one settles the race, or leaves it open for the next
  induction looks generalizing f c with
  | nil => cases hwatch
  | cons now later ih =>
    have hwait := h.after?_wait
    obtain ⟨hwork, hcancelled, -⟩ := Contest.isOpen_iff.mp h.isOpen
    rw [watch, h.look_eq h.budget] at hwatch
    cases hdone : t.isDone start now with
    | true =>
      have hwon : c.budget.poll now c.checkpoint (some ()) = .won () :=
        poll_some_of_not_cancelled hcancelled ()
      rw [hdone, if_pos rfl, hwon] at hwatch
      simp only [Option.some.injEq, Prod.mk.injEq] at hwatch
      obtain ⟨rfl, rfl, rfl⟩ := hwatch
      refine ⟨[.wait (now - c.now), .finish ()], c.budget, ?_, h.budget⟩
      rw [Contest.follow?, hwait, Option.bind_some, Contest.follow?, Contest.after?, hwork]
      simp only [Option.isNone_none, if_true, Option.bind_some, Contest.follow?]
      rw [Contest.settled?, Contest.verdict, hwon]
    | false =>
      simp only [hdone, if_neg Bool.false_ne_true] at hwatch
      have hverdict : ({ c with now := now } : Contest Unit).verdict =
          c.budget.poll now c.checkpoint none := by rw [← hwork]; rfl
      cases hpoll : c.budget.poll now c.checkpoint (none : Option Unit) with
      | won u =>
        rw [hpoll, Contest.verdict_eq_won_iff] at hverdict
        cases hwork.symm.trans hverdict.2
      | lost e =>
        rw [hpoll] at hwatch
        simp only [Option.some.injEq, Prod.mk.injEq] at hwatch
        obtain ⟨rfl, rfl, rfl⟩ := hwatch
        refine ⟨[.wait (now - c.now)], c.budget, ?_, h.budget⟩
        rw [Contest.follow?, hwait, Option.bind_some, Contest.follow?, Option.bind_some,
          Contest.settled?, hverdict, hpoll]
      | pending =>
        rw [hpoll] at hwatch
        rcases budget?_revoke h.budget t start now with hrevoked | hrevoked
        · -- the race stays open
          rw [h.look_eq hrevoked, hdone, if_neg Bool.false_ne_true, hpoll] at hwatch
          have hopen : ({ c with now := now } : Contest Unit).isOpen = true := by
            rw [Contest.isOpen, hverdict, hpoll]
          obtain ⟨meanwhile, stop, hfollow, hstop⟩ := ih (h.next hopen hrevoked) hwatch
          refine ⟨.wait (now - c.now) :: meanwhile, stop, ?_, hstop⟩
          rw [Contest.follow?, hwait, Option.bind_some]
          exact hfollow
        · -- the budget is cancelled, which is noticed at once
          have hlost : c.budget.cancel.poll now c.checkpoint (none : Option Unit) =
              .lost (c.budget.cancel.exceeded now c.checkpoint) := rfl
          rw [h.look_eq hrevoked, hdone, if_neg Bool.false_ne_true, hlost] at hwatch
          simp only [Option.some.injEq, Prod.mk.injEq] at hwatch
          obtain ⟨rfl, rfl, rfl⟩ := hwatch
          refine ⟨[.wait (now - c.now), .cancel], c.budget.cancel, ?_, hrevoked⟩
          rw [Contest.follow?, hwait, Option.bind_some]
          rfl

/-- The clock stops for timers only. -/
theorem exists_eq_wakeTime_of_mem_looks (h : now ∈ t.looks b start) :
    ∃ deadline, now = Clock.wakeTime start deadline := by
  simp only [looks, List.mem_mergeSort, List.mem_filterMap, id_eq, List.mem_cons,
    List.not_mem_nil, or_false] at h
  obtain ⟨wake, hwake | hwake | hwake, rfl⟩ := h
  all_goals
    obtain ⟨d, -, heq⟩ := Option.map_eq_some_iff.mp hwake.symm
    exact ⟨_, heq.symm⟩

theorem mem_looks_of_deadline {deadline : Instant} (h : b.deadline = some deadline) (t : Trial)
    (start : Instant) : Clock.wakeTime start deadline ∈ t.looks b start := by
  simp only [looks, List.mem_mergeSort, List.mem_filterMap, id_eq]
  refine ⟨_, List.mem_cons_of_mem _ (List.mem_cons_of_mem _ List.mem_cons_self), ?_⟩
  rw [Budget.timer, h]
  rfl

theorem looks_pairwise (t : Trial) (b : Budget) (start : Instant) :
    (t.looks b start).Pairwise (· ≤ ·) := by
  refine (List.pairwise_mergeSort ?_ ?_ _).imp of_decide_eq_true
  · intro a b c hab hbc
    rw [decide_eq_true_eq] at *
    exact Nat.le_trans hab hbc
  · intro a b
    rw [Bool.or_eq_true, decide_eq_true_eq, decide_eq_true_eq]
    exact Nat.le_total _ _

theorem watched_looks (hexceeded : b.isExceeded start = false) (hb : f.budget? i = some b) :
    Watched t i f ⟨⟨start, b⟩, t.checkpoint, none⟩ (t.looks b start) where
  isOpen := isOpen_of_not_isExceeded hexceeded t.checkpoint
  checkpoint := rfl
  budget := hb
  sorted := looks_pairwise t b start
  le := by
    intro x hx
    obtain ⟨deadline, rfl⟩ := exists_eq_wakeTime_of_mem_looks hx
    exact Nat.le_add_right _ _
  aligned := by
    intro x hx
    obtain ⟨deadline, rfl⟩ := exists_eq_wakeTime_of_mem_looks hx
    exact Clock.wakeTime_mod start deadline
  timer _ hdeadline := mem_looks_of_deadline hdeadline t start

/-- The race of a trial is a race of its work under the budget of the member. -/
theorem exists_race?_of_race (hb : f.budget? i = some b)
    (h : t.race i start f = some (f', stopped, outcome)) :
    ∃ work meanwhile stop, Standing.race? ⟨start, b⟩ t.checkpoint work meanwhile =
      some (⟨stopped, stop⟩, outcome) ∧ f'.budget? i = some stop := by
  rw [race, hb] at h
  dsimp only [bind, Option.bind_some] at h
  generalize hwork : (if t.isDone start start then some () else none) = work at h
  cases hopened : b.open? start t.checkpoint work with
  | won a | lost e =>
    -- the race is settled where it is opened
    rw [hopened] at h
    cases h
    refine ⟨work, [], b, ?_, hb⟩
    unfold Standing.race?
    rw [hopened]
    rfl
  | pending =>
    rw [hopened] at h
    have hexceeded : b.isExceeded start = false := by
      rw [← Bool.not_eq_true]
      intro hexceeded
      rw [open?_eq_lost hexceeded] at hopened
      cases hopened
    obtain ⟨meanwhile, stop, hfollow, hstop⟩ :=
      exists_follow?_of_watch (watched_looks hexceeded hb) h
    refine ⟨work, meanwhile, stop, ?_, hstop⟩
    unfold Standing.race?
    rw [hopened]
    exact hfollow

end Trial

end Budget

end Playground
