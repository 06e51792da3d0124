import Mathlib.Data.List.Nodup
import Playground.Slots
/-!
# Locks are queues

A lock is a line of parties, of whom the first has the lock.  A party that comes goes to the end of the
line, and when a party leaves, the others move up.

Of a set of several slots, slots are given out as long as there are any, and a party that gives up a
slot leaves it to the one that has waited longest.  Whoever comes and goes, and in whatever order, no
slot is given out twice, and none is free while somebody waits.
-/

namespace Playground.Slots

variable {l : Slots} {i j : PartyId}

/-- Everybody who has the lock or waits for it, in the order they came. -/
def line (l : Slots) : List PartyId := l.holders ++ l.queue

/-- The lock that a line of parties makes. -/
def ofLine (line : List PartyId) : Slots := ⟨1, line.take 1, line.drop 1⟩

/-- The first in line has the lock, and nobody stands in line twice. -/
structure Fair (l : Slots) : Prop where
  eq_ofLine : l = ofLine l.line
  nodup : l.line.Nodup

@[simp] theorem line_ofLine (xs : List PartyId) : (ofLine xs).line = xs := List.take_append_drop 1 xs

theorem fair_ofLine {xs : List PartyId} (h : xs.Nodup) : (ofLine xs).Fair where
  eq_ofLine := by rw [line_ofLine]
  nodup := by rwa [line_ofLine]

theorem fair_lock : lock.Fair := fair_ofLine List.nodup_nil

@[simp] theorem line_lock : lock.line = [] := rfl

theorem enter_ofLine (xs : List PartyId) (i : PartyId) :
    (ofLine xs).enter i = ofLine (xs ++ [i]) := by
  cases xs with
  | nil => rfl
  | cons x rest => rfl

theorem leave_ofLine {xs : List PartyId} (h : xs.Nodup) (i : PartyId) :
    (ofLine xs).leave i = ofLine (xs.erase i) := by
  cases xs with
  | nil => rfl
  | cons x rest =>
    have hx : x ∉ rest := (List.nodup_cons.mp h).1
    by_cases hi : x = i
    · -- the first one leaves, and the next one gets the lock
      subst hi
      simp [leave, ofLine, promote, available, List.erase_of_not_mem hx]
    · have hne : (x == i) = false := beq_eq_false_iff_ne.mpr hi
      simp [leave, ofLine, promote, available, hne]

theorem Fair.line_enter (h : l.Fair) (i : PartyId) : (l.enter i).line = l.line ++ [i] := by
  rw [h.eq_ofLine, enter_ofLine, line_ofLine, line_ofLine]

theorem Fair.line_leave (h : l.Fair) (i : PartyId) : (l.leave i).line = l.line.erase i := by
  rw [h.eq_ofLine, leave_ofLine h.nodup, line_ofLine, line_ofLine]

theorem Fair.enter (h : l.Fair) (hi : i ∉ l.line) : (l.enter i).Fair := by
  rw [h.eq_ofLine, enter_ofLine, ← List.concat_eq_append]
  exact fair_ofLine (List.Nodup.concat hi h.nodup)

theorem Fair.leave (h : l.Fair) (i : PartyId) : (l.leave i).Fair := by
  rw [h.eq_ofLine, leave_ofLine h.nodup]
  exact fair_ofLine (h.nodup.erase i)

theorem Fair.isHeldBy_iff (h : l.Fair) : l.isHeldBy i = true ↔ l.line.head? = some i := by
  rw [h.eq_ofLine, line_ofLine]
  cases l.line with
  | nil => simp [isHeldBy, ofLine]
  | cons x rest => simp [isHeldBy, ofLine, eq_comm]

/-- Whoever leaves, the first in line stays there, unless it is the one who leaves. -/
theorem Fair.head?_leave (h : l.Fair) (hi : l.line.head? = some i) (hne : i ≠ j) :
    (l.leave j).line.head? = some i := by
  rw [h.line_leave]
  obtain ⟨rest, hline⟩ := List.head?_eq_some_iff.mp hi
  rw [hline, List.erase_cons, if_neg (by simpa using hne)]
  rfl

/-- Who is not in line has nothing to give up. -/
theorem Fair.leave_of_not_mem (h : l.Fair) (hi : i ∉ l.line) : l.leave i = l := by
  have hleave : (ofLine l.line).leave i = ofLine l.line := by
    rw [leave_ofLine h.nodup, List.erase_of_not_mem hi]
  rwa [← h.eq_ofLine] at hleave

/-! ## 2. Several locks -/

variable {locks new : List Slots} {m n : Nat}

/-- The party stands in line for lock `n`, or has it. -/
def Lines (locks : List Slots) (n : Nat) (i : PartyId) : Prop :=
  ∃ l, locks[n]? = some l ∧ i ∈ l.line

/-- The party has lock `n`. -/
def Leads (locks : List Slots) (n : Nat) (i : PartyId) : Prop :=
  ∃ l, locks[n]? = some l ∧ l.line.head? = some i

theorem Leads.lines (h : Leads locks n i) : Lines locks n i := by
  obtain ⟨l, hl, hi⟩ := h
  exact ⟨l, hl, List.mem_of_head? hi⟩

/-- Only one party has the lock. -/
theorem Leads.unique (hi : Leads locks n i) (hj : Leads locks n j) : i = j := by
  obtain ⟨l, hl, hi⟩ := hi
  obtain ⟨l', hl', hj⟩ := hj
  rw [Option.some.inj (hl.symm.trans hl')] at hi
  exact Option.some.inj (hi.symm.trans hj)

theorem exists_append_iff {P : Slots → Prop} (hnew : ∀ l ∈ new, l = lock) (hP : ¬ P lock) :
    (∃ l, (locks ++ new)[n]? = some l ∧ P l) ↔ ∃ l, locks[n]? = some l ∧ P l := by
  refine exists_congr fun l => and_congr_left fun hl => ?_
  by_cases hn : n < locks.length
  · rw [List.getElem?_append_left hn]
  · have hle : locks.length ≤ n := Nat.le_of_not_lt hn
    rw [List.getElem?_append_right hle, List.getElem?_eq_none hle]
    refine ⟨fun h => ?_, nofun⟩
    rw [hnew l (List.mem_of_getElem? h)] at hl
    exact absurd hl hP

theorem lines_append (hnew : ∀ l ∈ new, l = lock) : Lines (locks ++ new) n i ↔ Lines locks n i :=
  exists_append_iff hnew (by simp)

theorem leads_append (hnew : ∀ l ∈ new, l = lock) : Leads (locks ++ new) n i ↔ Leads locks n i :=
  exists_append_iff hnew (by simp)

theorem exists_modify_iff {P : Slots → Prop} (f : Slots → Slots) :
    (∃ l, (locks.modify m f)[n]? = some l ∧ P l) ↔
      ∃ l, locks[n]? = some l ∧ P (if m = n then f l else l) := by
  rw [List.getElem?_modify]
  cases locks[n]? <;> simp

theorem fair_modify {f : Slots → Slots} (h : ∀ l ∈ locks, l.Fair)
    (hf : ∀ l, locks[m]? = some l → (f l).Fair) : ∀ l ∈ locks.modify m f, l.Fair := by
  intro l hl
  obtain ⟨n, hn⟩ := List.mem_iff_getElem?.mp hl
  rw [List.getElem?_modify] at hn
  obtain ⟨l₀, hl₀, rfl⟩ := Option.map_eq_some_iff.mp hn
  split
  · rename_i hmn
    exact hf l₀ (hmn ▸ hl₀)
  · exact h l₀ (List.mem_of_getElem? hl₀)

theorem lines_enter (h : ∀ l ∈ locks, l.Fair) (hm : m < locks.length) :
    Lines (locks.modify m (·.enter j)) n i ↔ Lines locks n i ∨ n = m ∧ i = j := by
  rw [Lines, exists_modify_iff]
  constructor
  · rintro ⟨l, hl, hi⟩
    split at hi
    · rename_i hmn
      rw [(h l (List.mem_of_getElem? hl)).line_enter] at hi
      rcases List.mem_append.mp hi with hi | hi
      · exact .inl ⟨l, hl, hi⟩
      · exact .inr ⟨hmn.symm, List.mem_singleton.mp hi⟩
    · exact .inl ⟨l, hl, hi⟩
  · rintro (⟨l, hl, hi⟩ | ⟨rfl, rfl⟩)
    · refine ⟨l, hl, ?_⟩
      split
      · rw [(h l (List.mem_of_getElem? hl)).line_enter]
        exact List.mem_append_left _ hi
      · exact hi
    · have hl := List.getElem?_eq_getElem hm
      refine ⟨_, hl, ?_⟩
      rw [if_pos rfl, (h _ (List.mem_of_getElem? hl)).line_enter]
      exact List.mem_concat_self

theorem Leads.enter (h : ∀ l ∈ locks, l.Fair) (hi : Leads locks n i) :
    Leads (locks.modify m (·.enter j)) n i := by
  obtain ⟨l, hl, hi⟩ := hi
  refine (exists_modify_iff _).mpr ⟨l, hl, ?_⟩
  split
  · obtain ⟨rest, hline⟩ := List.head?_eq_some_iff.mp hi
    rw [(h l (List.mem_of_getElem? hl)).line_enter, hline]
    rfl
  · exact hi

theorem lines_leave (h : ∀ l ∈ locks, l.Fair) :
    Lines (locks.modify m (·.leave j)) n i ↔ Lines locks n i ∧ ¬ (n = m ∧ i = j) := by
  rw [Lines, exists_modify_iff, Lines, ← exists_and_right]
  refine exists_congr fun l => ?_
  rw [and_assoc]
  refine and_congr_right fun hl => ?_
  have hfair := h l (List.mem_of_getElem? hl)
  split
  · rename_i hmn
    rw [hfair.line_leave, hfair.nodup.mem_erase_iff]
    simp [hmn, and_comm]
  · rename_i hmn
    simp [Ne.symm hmn]

theorem Leads.leave (h : ∀ l ∈ locks, l.Fair) (hi : Leads locks n i) (hne : n = m → i ≠ j) :
    Leads (locks.modify m (·.leave j)) n i := by
  obtain ⟨l, hl, hi⟩ := hi
  refine (exists_modify_iff _).mpr ⟨l, hl, ?_⟩
  split
  · exact (h l (List.mem_of_getElem? hl)).head?_leave hi (hne (by rename_i hmn; exact hmn.symm))
  · exact hi

/-! ## 3. Sets of several slots -/

/-- Nobody stands in line twice, and the slots go to as many as there are slots. -/
structure Kept (l : Slots) : Prop where
  nodup : l.line.Nodup
  bound : l.holders.length ≤ l.capacity
  full : l.queue ≠ [] → l.holders.length = l.capacity

theorem kept_ofPermits (permits : Nat) : (ofPermits permits).Kept where
  nodup := List.nodup_nil
  bound := Nat.zero_le _
  full hqueue := absurd rfl hqueue

theorem mem_holders_of_isHeldBy (h : l.isHeldBy i = true) : i ∈ l.holders := List.mem_of_elem_eq_true h

namespace Kept

theorem available_add (h : l.Kept) : l.available + l.holders.length = l.capacity := by
  have hbound := h.bound
  unfold available
  omega

theorem available_of_queue (h : l.Kept) (hqueue : l.queue ≠ []) : l.available = 0 := by
  have hfull := h.full hqueue
  unfold available
  omega

/-! ## 4. Taking a slot -/

theorem capacity_enter (l : Slots) (i : PartyId) : (l.enter i).capacity = l.capacity := by
  unfold Slots.enter
  split <;> rfl

theorem mem_line_enter : j ∈ (l.enter i).line ↔ j ∈ l.line ∨ j = i := by
  unfold Slots.enter line
  split <;> simp only [List.mem_append, List.mem_singleton] <;> tauto

theorem mem_holders_enter (hj : j ∈ l.holders) : j ∈ (l.enter i).holders := by
  unfold Slots.enter
  split
  · exact hj
  · exact List.mem_append_left _ hj

theorem enter (h : l.Kept) (hi : i ∉ l.line) : (l.enter i).Kept := by
  have hbound := h.bound
  have hnodup : (l.line ++ [i]).Nodup := by
    rw [← List.concat_eq_append]
    exact List.Nodup.concat hi h.nodup
  unfold Slots.enter
  split
  · rename_i hfull
    have hfull : l.capacity ≤ l.holders.length := of_decide_eq_true hfull
    refine ⟨?_, hbound, fun _ => Nat.le_antisymm hbound hfull⟩
    rwa [line, ← List.append_assoc]
  · rename_i hfree
    have hfree : ¬ l.capacity ≤ l.holders.length := fun hle => hfree (decide_eq_true hle)
    -- nobody waits as long as there is a slot
    have hnone : l.queue = [] := by
      by_contra hqueue
      have hfull := h.full hqueue
      omega
    refine ⟨?_, ?_, fun hqueue => absurd hnone hqueue⟩
    · rw [line, hnone, List.append_nil] at hnodup
      rwa [line, hnone, List.append_nil]
    · show (l.holders ++ [i]).length ≤ l.capacity
      rw [List.length_append, List.length_singleton]
      omega

/-! ## 5. Giving it up -/

theorem line_leave (l : Slots) (i : PartyId) :
    (l.leave i).line = l.holders.erase i ++ l.queue.erase i := by
  rw [leave, promote, line, List.append_assoc, List.take_append_drop]

theorem mem_line_leave (h : l.Kept) : j ∈ (l.leave i).line ↔ j ∈ l.line ∧ j ≠ i := by
  have hholders := (List.nodup_append.mp h.nodup).1
  have hqueue := (List.nodup_append.mp h.nodup).2.1
  rw [line_leave, List.mem_append, hholders.mem_erase_iff, hqueue.mem_erase_iff, line,
    List.mem_append]
  tauto

theorem mem_holders_leave (hj : j ∈ l.holders) (hne : j ≠ i) : j ∈ (l.leave i).holders :=
  List.mem_append_left _ ((List.mem_erase_of_ne hne).mpr hj)

theorem leave (h : l.Kept) (i : PartyId) : (l.leave i).Kept := by
  have hbound := h.bound
  have herase : (l.holders.erase i).length ≤ l.holders.length := List.length_erase_le
  have hnodup : (l.leave i).line.Nodup := by
    rw [line_leave]
    exact h.nodup.sublist (List.erase_sublist.append List.erase_sublist)
  have hholders : (l.leave i).holders.length =
      (l.holders.erase i).length + min (l.capacity - (l.holders.erase i).length)
        (l.queue.erase i).length := by
    show (l.holders.erase i ++ (l.queue.erase i).take _).length = _
    rw [List.length_append, List.length_take]
    rfl
  have hqueue : (l.leave i).queue.length =
      (l.queue.erase i).length - (l.capacity - (l.holders.erase i).length) := List.length_drop
  have hcapacity : (l.leave i).capacity = l.capacity := rfl
  refine ⟨hnodup, by omega, fun hwaiting => ?_⟩
  have hpos := List.length_pos_iff.mpr hwaiting
  omega

/-- Whoever has no slot and waits for none gives up nothing. -/
theorem leave_of_not_mem (h : l.Kept) (hi : i ∉ l.line) : l.leave i = l := by
  rw [line, List.mem_append, not_or] at hi
  rw [Slots.leave, List.erase_of_not_mem hi.1, List.erase_of_not_mem hi.2, promote]
  show (⟨l.capacity, l.holders ++ l.queue.take l.available, l.queue.drop l.available⟩ : Slots) = l
  by_cases hqueue : l.queue = []
  · have hself : l = ⟨l.capacity, l.holders, []⟩ := hqueue ▸ rfl
    rw [hqueue, List.take_nil, List.drop_nil, List.append_nil, ← hself]
  · rw [h.available_of_queue hqueue, List.take_zero, List.append_nil, List.drop_zero]

end Kept

end Playground.Slots
