import Mathlib.Data.List.Induction
import Mathlib.Order.Bounds.Basic
import Playground.Budget.Family
/-!
# Families of budgets

Budgets are made one after the other, on their own or for a part of the work under another one; some
are cancelled, and time passes.  Which of them are exceeded can be told from the record of all this: a
budget is exceeded once it, or a budget that it descends from, has been cancelled, or the earliest of
the deadlines that they were made with has come.
-/

namespace Playground.Budget

/-! ## 1. What happens to a family -/

/-- What can happen to a family of budgets. -/
inductive FamilyAct where
  | unbounded
  | withTimeout (timeout : Duration)
  | withDeadline (deadline : Instant)
  /-- A budget is made for a part of the work under member `parent`. -/
  | child (parent : Nat) (timeout : Option Duration)
  | cancel (i : Nat)
  | wait (d : Duration)
deriving DecidableEq, Repr

/-- The time after an act. -/
def FamilyAct.after (now : Instant) : FamilyAct → Instant
  | wait d => now + d
  | _ => now

/-- A family at a time. -/
structure Moment where
  now : Instant
  family : Family

namespace Moment

/-- What is left of an act once the time has passed that it takes: somebody is added, or somebody who is
there is cancelled. -/
def change? (s : Moment) : FamilyAct → Option Family
  | .unbounded => some (s.family.add (.unbounded s.now))
  | .withTimeout timeout => some (s.family.add (.withTimeout s.now timeout))
  | .withDeadline deadline => some (s.family.add (.withDeadline s.now deadline))
  | .child parent timeout =>
      if parent < s.family.next then some (s.family.addChild s.now parent timeout) else none
  | .cancel i => if i < s.family.next then some (s.family.cancel i) else none
  | .wait _ => some s.family

/-- The family after an act, if the act is possible. -/
def act? (s : Moment) (a : FamilyAct) : Option Moment :=
  (s.change? a).map fun family => ⟨a.after s.now, family⟩

/-- The family after some acts, if they are possible one after the other. -/
def run? (s : Moment) : List FamilyAct → Option Moment
  | [] => some s
  | a :: acts => (s.act? a).bind (·.run? acts)

theorem run?_append (s : Moment) (before after : List FamilyAct) :
    s.run? (before ++ after) = (s.run? before).bind (·.run? after) := by
  induction before generalizing s with
  | nil => rfl
  | cons a before ih =>
    rw [List.cons_append, run?, run?, Option.bind_assoc]
    exact congrArg _ (funext ih)

end Moment

/-- How a budget was made: for a part of the work under which member, and with which deadline of its
own. -/
structure Birth where
  parent : Option Nat
  deadline : Option Instant
deriving DecidableEq, Repr

/-- The birth that an act is.  A timeout that the clock cannot represent makes no deadline. -/
def FamilyAct.birth? (now : Instant) : FamilyAct → Option Birth
  | unbounded => some ⟨none, none⟩
  | withTimeout timeout => some ⟨none, Clock.after? now timeout⟩
  | withDeadline deadline => some ⟨none, some deadline⟩
  | child parent timeout => some ⟨some parent, timeout.bind (Clock.after? now)⟩
  | cancel _ => none
  | wait _ => none

/-- The births that acts are, in order, if the first act is at `now`. -/
def birthsFrom (now : Instant) : List FamilyAct → List Birth
  | [] => []
  | a :: acts => (a.birth? now).toList ++ birthsFrom (a.after now) acts

/-- The time after acts. -/
def timeFrom (now : Instant) (acts : List FamilyAct) : Instant :=
  acts.foldl FamilyAct.after now

theorem birthsFrom_concat (now : Instant) (acts : List FamilyAct) (a : FamilyAct) :
    birthsFrom now (acts ++ [a]) =
      birthsFrom now acts ++ (a.birth? (timeFrom now acts)).toList := by
  induction acts generalizing now with
  | nil => simp [birthsFrom, timeFrom]
  | cons b acts ih => simp [birthsFrom, timeFrom, ih, List.append_assoc]

/-! ## 2. Descent -/

variable {births : List Birth} {birth : Birth} {acts : List FamilyAct} {a : FamilyAct}
  {i j k p : Nat} {t now : Instant} {s s' : Moment} {f : Family} {b : Budget} {m : Member}

/-- Member `i` is member `k`, or descends from it. -/
inductive Descends (births : List Birth) : Nat → Nat → Prop where
  | self {i : Nat} (hi : i < births.length) : Descends births i i
  | step {i p k : Nat} {birth : Birth} (hbirth : births[i]? = some birth)
      (hparent : birth.parent = some p) (h : Descends births p k) : Descends births i k

theorem getElem?_concat_cases {α : Type} {l : List α} {x y : α} (h : (l ++ [x])[i]? = some y) :
    l[i]? = some y ∨ i = l.length ∧ x = y := by
  rw [List.getElem?_append] at h
  split at h
  · exact .inl h
  · rename_i hlt
    rw [List.getElem?_singleton] at h
    obtain ⟨hzero, heq⟩ := Option.ite_none_right_eq_some.mp h
    exact .inr ⟨by omega, Option.some.inj heq⟩

/-- Nobody is older than the member that it was derived from. -/
def Ordered (births : List Birth) : Prop :=
  ∀ (i : Nat) (birth : Birth) (p : Nat), births[i]? = some birth → birth.parent = some p → p < i

/-- The deadlines that a member and those that it descends from were made with. -/
def deadlines (births : List Birth) (i : Nat) : Set Instant :=
  {t | ∃ k birth, Descends births i k ∧ births[k]? = some birth ∧ birth.deadline = some t}

theorem Descends.le (h : Descends births i k) (hordered : Ordered births) : k ≤ i := by
  induction h with
  | self hi => omega
  | step hbirth hparent _ ih =>
    have hlt := hordered _ _ _ hbirth hparent
    omega

theorem Descends.lt_length (h : Descends births i k) : k < births.length := by
  induction h with
  | self hi => exact hi
  | step _ _ _ ih => exact ih

theorem Descends.trans (h : Descends births i j) (h' : Descends births j k) :
    Descends births i k := by
  induction h with
  | self _ => exact h'
  | step hbirth hparent _ ih => exact .step hbirth hparent (ih h')

/-- Who is derived from the same member, or likewise from none, does not descend from the other. -/
theorem not_descends_of_sibling {birth' : Birth} (hordered : Ordered births)
    (hi : births[i]? = some birth) (hj : births[j]? = some birth')
    (hparent : birth'.parent = birth.parent) (hne : j ≠ i) : ¬ Descends births j i := by
  intro h
  cases h with
  | self _ => exact hne rfl
  | step hbirth hp h =>
    obtain rfl := Option.some.inj (hj.symm.trans hbirth)
    -- the common parent would both descend from member `i` and be older
    have hle := h.le hordered
    have hlt := hordered i birth _ hi (hparent ▸ hp)
    omega

theorem ordered_concat (hordered : Ordered births)
    (hparent : ∀ p, birth.parent = some p → p < births.length) : Ordered (births ++ [birth]) := by
  intro i birth' p hi hp
  rcases getElem?_concat_cases hi with hi | ⟨rfl, rfl⟩
  · exact hordered i birth' p hi hp
  · exact hparent p hp

/-- A birth makes no difference to those who are there already. -/
theorem descends_concat (hordered : Ordered births) (hi : i < births.length) :
    Descends (births ++ [birth]) i k ↔ Descends births i k := by
  constructor
  · intro h
    induction h with
    | self _ => exact .self hi
    | step hbirth hparent _ ih =>
      rw [List.getElem?_append_left hi] at hbirth
      have hlt := hordered _ _ _ hbirth hparent
      exact .step hbirth hparent (ih (by omega))
  · intro h
    induction h with
    | self hi => exact .self (by rw [List.length_append]; omega)
    | step hbirth hparent _ ih =>
      have hlt := hordered _ _ _ hbirth hparent
      refine .step ?_ hparent (ih (by omega))
      rw [List.getElem?_append_left hi, hbirth]

theorem descends_concat_self (hordered : Ordered births)
    (hparent : ∀ p, birth.parent = some p → p < births.length) :
    Descends (births ++ [birth]) births.length k ↔
      k = births.length ∨ ∃ p, birth.parent = some p ∧ Descends births p k := by
  have hself : (births ++ [birth])[births.length]? = some birth := List.getElem?_concat_length
  constructor
  · intro h
    cases h with
    | self _ => exact .inl rfl
    | step hbirth hp h =>
      obtain rfl := Option.some.inj (hself.symm.trans hbirth)
      exact .inr ⟨_, hp, (descends_concat hordered (hparent _ hp)).mp h⟩
  · rintro (rfl | ⟨p, hp, h⟩)
    · exact .self (by rw [List.length_append, List.length_singleton]; omega)
    · exact .step hself hp ((descends_concat hordered (hparent p hp)).mpr h)

theorem deadlines_concat (hordered : Ordered births) (hi : i < births.length) :
    deadlines (births ++ [birth]) i = deadlines births i := by
  ext t
  refine exists_congr fun k => exists_congr fun birth' => ?_
  rw [descends_concat hordered hi]
  refine and_congr_right fun h => ?_
  rw [List.getElem?_append_left h.lt_length]

theorem deadlines_concat_self (hordered : Ordered births)
    (hparent : ∀ p, birth.parent = some p → p < births.length) :
    deadlines (births ++ [birth]) births.length =
      {t | ∃ p, birth.parent = some p ∧ t ∈ deadlines births p} ∪ {t | birth.deadline = some t} := by
  ext t
  constructor
  · rintro ⟨k, birth', hdescends, hk, ht⟩
    rcases (descends_concat_self hordered hparent).mp hdescends with rfl | ⟨p, hp, h⟩
    · rw [List.getElem?_concat_length] at hk
      exact .inr (Option.some.inj hk ▸ ht)
    · rw [List.getElem?_append_left h.lt_length] at hk
      exact .inl ⟨p, hp, k, birth', h, hk, ht⟩
  · rintro (⟨p, hp, k, birth', h, hk, ht⟩ | ht)
    · refine ⟨k, birth', (descends_concat_self hordered hparent).mpr (.inr ⟨p, hp, h⟩), ?_, ht⟩
      rw [List.getElem?_append_left h.lt_length, hk]
    · exact ⟨births.length, birth, (descends_concat_self hordered hparent).mpr (.inl rfl),
        List.getElem?_concat_length, ht⟩

/-! ## 3. The earliest deadline -/

/-- The earliest of some instants, if there are any. -/
def IsEarliest (S : Set Instant) : Option Instant → Prop
  | some t => IsLeast S t
  | none => S = ∅

variable {S : Set Instant} {o own : Option Instant}

theorem IsEarliest.eq_some_iff (h : IsEarliest S o) : o = some t ↔ IsLeast S t := by
  cases o with
  | some t' =>
    refine ⟨fun ht => Option.some.inj ht ▸ h, fun ht => congrArg some ?_⟩
    exact IsLeast.unique h ht
  | none =>
    refine ⟨nofun, fun ht => ?_⟩
    have hmem : t ∈ (∅ : Set Instant) := (show S = ∅ from h) ▸ ht.1
    exact absurd hmem (Set.notMem_empty t)

theorem isEarliest_own (own : Option Instant) : IsEarliest {t | own = some t} own := by
  cases own with
  | some t => exact ⟨rfl, fun t' ht' => le_of_eq (Option.some.inj ht')⟩
  | none => exact Set.eq_empty_of_forall_notMem fun t ht => Option.some_ne_none t ht.symm

theorem IsEarliest.union {S' : Set Instant} {o' : Option Instant} (h : IsEarliest S o)
    (h' : IsEarliest S' o') : IsEarliest (S ∪ S') (Clock.earlier o o') := by
  cases o with
  | none =>
    have hempty : S = ∅ := h
    rw [hempty, Set.empty_union]
    exact h'
  | some t =>
    cases o' with
    | none =>
      have hempty : S' = ∅ := h'
      rw [hempty, Set.union_empty]
      exact h
    | some t' => exact IsLeast.union h h'

/-! ## 4. The record of a family -/

/-- What a family is like after these births and acts. -/
structure Accords (births : List Birth) (acts : List FamilyAct) (f : Family) : Prop where
  ordered : Ordered births
  length : f.members.length = births.length
  cancels : ∀ k, .cancel k ∈ acts → k < births.length
  lineage : ∀ i m, f.members[i]? = some m → ∀ k, k ∈ m.lineage ↔ Descends births i k
  deadline : ∀ i m, f.members[i]? = some m → IsEarliest (deadlines births i) m.budget.deadline
  cancelled : ∀ i m, f.members[i]? = some m →
    (m.budget.cancelled = true ↔ ∃ k, Descends births i k ∧ .cancel k ∈ acts)

namespace Accords

theorem empty : Accords [] [] .empty where
  ordered i birth p hi := by cases hi
  length := rfl
  cancels k hk := by cases hk
  lineage i m hi := by cases hi
  deadline i m hi := by cases hi
  cancelled i m hi := by cases hi

theorem lt_length (h : Accords births acts f) (hi : f.members[i]? = some m) :
    i < births.length := by
  rw [← h.length]
  exact (List.getElem?_eq_some_iff.mp hi).1

/-- An act that cancels nobody leaves the record of those who are there as it is. -/
theorem idle (h : Accords births acts f) (ha : ∀ k, a ≠ .cancel k) :
    Accords births (acts ++ [a]) f := by
  have hmem : ∀ k, .cancel k ∈ acts ++ [a] ↔ .cancel k ∈ acts := by
    intro k
    rw [List.mem_append, List.mem_singleton]
    exact or_iff_left (ha k).symm
  refine ⟨h.ordered, h.length, fun k hk => h.cancels k ((hmem k).mp hk), h.lineage, h.deadline, ?_⟩
  intro i m hi
  rw [h.cancelled i m hi]
  exact exists_congr fun k => and_congr_right fun _ => (hmem k).symm

/-- Somebody new is on record with what it was made with. -/
theorem concat (h : Accords births acts f) (m : Member)
    (hparent : ∀ p, birth.parent = some p → p < births.length)
    (hlineage : ∀ k, k ∈ m.lineage ↔
      k = births.length ∨ ∃ p, birth.parent = some p ∧ Descends births p k)
    (hdeadline : IsEarliest ({t | ∃ p, birth.parent = some p ∧ t ∈ deadlines births p} ∪
      {t | birth.deadline = some t}) m.budget.deadline)
    (hcancelled : m.budget.cancelled = true ↔
      ∃ p, birth.parent = some p ∧ ∃ k, Descends births p k ∧ .cancel k ∈ acts) :
    Accords (births ++ [birth]) acts ⟨f.members ++ [m]⟩ := by
  have hcases : ∀ {i m'}, (f.members ++ [m])[i]? = some m' →
      f.members[i]? = some m' ∨ i = births.length ∧ m' = m := by
    intro i m' hi
    rcases getElem?_concat_cases hi with hi | ⟨rfl, rfl⟩
    · exact .inl hi
    · exact .inr ⟨h.length, rfl⟩
  refine ⟨ordered_concat h.ordered hparent, ?_, fun k hk => ?_, fun i m' hi k => ?_,
    fun i m' hi => ?_, fun i m' hi => ?_⟩
  · rw [List.length_append, List.length_append, h.length, List.length_singleton,
      List.length_singleton]
  · have hlt := h.cancels k hk
    rw [List.length_append]
    omega
  · rcases hcases hi with hi | ⟨rfl, rfl⟩
    · rw [descends_concat h.ordered (h.lt_length hi)]
      exact h.lineage i m' hi k
    · rw [descends_concat_self h.ordered hparent]
      exact hlineage k
  · rcases hcases hi with hi | ⟨rfl, rfl⟩
    · rw [deadlines_concat h.ordered (h.lt_length hi)]
      exact h.deadline i m' hi
    · rw [deadlines_concat_self h.ordered hparent]
      exact hdeadline
  · rcases hcases hi with hi | ⟨rfl, rfl⟩
    · simp only [descends_concat h.ordered (h.lt_length hi)]
      exact h.cancelled i m' hi
    · rw [hcancelled]
      simp only [descends_concat_self h.ordered hparent]
      constructor
      · rintro ⟨p, hp, k, hk, hcancel⟩
        exact ⟨k, .inr ⟨p, hp, hk⟩, hcancel⟩
      · rintro ⟨k, rfl | ⟨p, hp, hk⟩, hcancel⟩
        · -- nobody is cancelled before it is there
          exact absurd (h.cancels _ hcancel) (Nat.lt_irrefl _)
        · exact ⟨p, hp, k, hk, hcancel⟩

theorem add (h : Accords births acts f) (hb : b.cancelled = false) :
    Accords (births ++ [⟨none, b.deadline⟩]) acts (f.add b) := by
  refine h.concat _ nofun (fun k => ?_) ?_ ?_
  · rw [List.mem_singleton, Family.next, h.length]
    simp
  · have hnobody : {t | ∃ p, (none : Option Nat) = some p ∧ t ∈ deadlines births p} = ∅ :=
      Set.eq_empty_of_forall_notMem fun t ⟨p, hp, _⟩ => Option.some_ne_none p hp.symm
    rw [hnobody, Set.empty_union]
    exact isEarliest_own b.deadline
  · rw [hb]
    simp

theorem addChild (h : Accords births acts f) (hp : p < f.next) (now : Instant)
    (timeout : Option Duration) :
    Accords (births ++ [⟨some p, timeout.bind (Clock.after? now)⟩]) acts
      (f.addChild now p timeout) := by
  have hm : f.members[p]? = some f.members[p] := List.getElem?_eq_getElem hp
  rw [Family.addChild, hm]
  refine h.concat _ (fun q hq => ?_) (fun k => ?_) ?_ ?_
  · rw [← Option.some.inj hq, ← h.length]
    exact hp
  · rw [List.mem_cons, Family.next, h.length, h.lineage p _ hm]
    simp
  · have hparent : {t | ∃ q, some p = some q ∧ t ∈ deadlines births q} = deadlines births p := by
      ext t
      simp
    rw [hparent]
    exact (h.deadline p _ hm).union (isEarliest_own _)
  · show (f.members[p]).budget.cancelled = true ↔ _
    rw [h.cancelled p _ hm]
    simp

theorem cancel (h : Accords births acts f) (hi : i < f.next) :
    Accords births (acts ++ [.cancel i]) (f.cancel i) := by
  -- whoever descends from the one that is cancelled is cancelled with it
  have hmember : ∀ {j : Nat} {m' : Member}, (f.cancel i).members[j]? = some m' → ∃ m : Member,
      f.members[j]? = some m ∧ m' = if i ∈ m.lineage then { m with budget := m.budget.cancel } else m := by
    intro j m' hj
    rw [Family.cancel, List.getElem?_map] at hj
    obtain ⟨m, hm, rfl⟩ := Option.map_eq_some_iff.mp hj
    exact ⟨m, hm, rfl⟩
  have hmem : ∀ k, FamilyAct.cancel k ∈ acts ++ [.cancel i] ↔ .cancel k ∈ acts ∨ k = i := by
    intro k
    rw [List.mem_append, List.mem_singleton, FamilyAct.cancel.injEq]
  refine ⟨h.ordered, ?_, fun k hk => ?_, fun j m' hj k => ?_, fun j m' hj => ?_, fun j m' hj => ?_⟩
  · rw [Family.cancel, List.length_map, h.length]
  · rcases (hmem k).mp hk with hk | rfl
    · exact h.cancels k hk
    · exact h.length ▸ hi
  · obtain ⟨m, hm, rfl⟩ := hmember hj
    rw [← h.lineage j m hm]
    split <;> rfl
  · obtain ⟨m, hm, rfl⟩ := hmember hj
    have hdeadline := h.deadline j m hm
    split
    · exact hdeadline
    · exact hdeadline
  · obtain ⟨m, hm, rfl⟩ := hmember hj
    simp only [hmem, and_or_left, exists_or]
    rw [← h.cancelled j m hm]
    by_cases hin : i ∈ m.lineage
    · rw [if_pos hin]
      exact iff_of_true rfl (.inr ⟨i, (h.lineage j m hm i).mp hin, rfl⟩)
    · rw [if_neg hin]
      refine (or_iff_left ?_).symm
      rintro ⟨k, hk, rfl⟩
      exact hin ((h.lineage j m hm k).mpr hk)

/-- One act keeps the record. -/
theorem act (h : Accords births acts s.family) (hact : s.act? a = some s') :
    Accords (births ++ (a.birth? s.now).toList) (acts ++ [a]) s'.family := by
  obtain ⟨f, hchange, rfl⟩ := Option.map_eq_some_iff.mp hact
  cases a with
  | unbounded =>
    rw [← Option.some.inj hchange]
    exact (h.add (b := .unbounded s.now) rfl).idle nofun
  | withTimeout timeout =>
    rw [← Option.some.inj hchange]
    exact (h.add (b := .withTimeout s.now timeout) rfl).idle nofun
  | withDeadline deadline =>
    rw [← Option.some.inj hchange]
    exact (h.add (b := .withDeadline s.now deadline) rfl).idle nofun
  | child parent timeout =>
    obtain ⟨hparent, hf⟩ := Option.ite_none_right_eq_some.mp hchange
    rw [← Option.some.inj hf]
    exact (h.addChild hparent s.now timeout).idle nofun
  | cancel i =>
    obtain ⟨hi, hf⟩ := Option.ite_none_right_eq_some.mp hchange
    rw [← Option.some.inj hf, FamilyAct.birth?, Option.toList_none, List.append_nil]
    exact h.cancel hi
  | wait d =>
    rw [← Option.some.inj hchange, FamilyAct.birth?, Option.toList_none, List.append_nil]
    exact h.idle nofun

end Accords

/-! ## 5. Runs -/

theorem accords_of_run (hrun : (Moment.mk now .empty).run? acts = some s) :
    s.now = timeFrom now acts ∧ Accords (birthsFrom now acts) acts s.family := by
  -- on the acts from their end, as the record grows there
  induction acts using List.reverseRecOn generalizing s with
  | nil =>
    rw [← Option.some.inj hrun]
    exact ⟨rfl, .empty⟩
  | append_singleton acts a ih =>
    rw [Moment.run?_append] at hrun
    obtain ⟨s₁, hfirst, hlast⟩ := Option.bind_eq_some_iff.mp hrun
    obtain ⟨hnow, hfamily⟩ := ih hfirst
    have hact : s₁.act? a = some s := by
      rw [← hlast]
      exact (Option.bind_fun_some (s₁.act? a)).symm
    constructor
    · obtain ⟨f, -, rfl⟩ := Option.map_eq_some_iff.mp hact
      show a.after s₁.now = (acts ++ [a]).foldl FamilyAct.after now
      rw [List.foldl_append, hnow]
      rfl
    · rw [birthsFrom_concat, ← hnow]
      exact hfamily.act hact

theorem Accords.isExceeded_iff (h : Accords births acts f) (hb : f.budget? i = some b) :
    b.isExceeded now = true ↔ (∃ k, Descends births i k ∧ .cancel k ∈ acts) ∨
      ∃ t, IsLeast (deadlines births i) t ∧ t ≤ now := by
  obtain ⟨m, hm, rfl⟩ := Option.map_eq_some_iff.mp hb
  rw [isExceeded, Bool.or_eq_true, h.cancelled i m hm, isDue, Option.any_eq_true]
  refine or_congr_right (exists_congr fun t => ?_)
  rw [(h.deadline i m hm).eq_some_iff, decide_eq_true_eq]

/-- A budget ends with those that it descends from at the latest. -/
theorem Accords.exists_deadline_le {b' : Budget} (h : Accords births acts f)
    (hb : f.budget? i = some b) (hb' : f.budget? k = some b') (hdescends : Descends births i k)
    (ht : b'.deadline = some t) : ∃ t', b.deadline = some t' ∧ t' ≤ t := by
  obtain ⟨m, hm, rfl⟩ := Option.map_eq_some_iff.mp hb
  obtain ⟨m', hm', rfl⟩ := Option.map_eq_some_iff.mp hb'
  have hleast := (h.deadline k m' hm').eq_some_iff.mp ht
  -- the earliest deadline above is one of those that count here
  obtain ⟨j, birth, hj, hbirth, hown⟩ := hleast.1
  have hmem : t ∈ deadlines births i := ⟨j, birth, hdescends.trans hj, hbirth, hown⟩
  have hearliest := h.deadline i m hm
  cases hdeadline : m.budget.deadline with
  | some t' =>
    have hleast' := hearliest.eq_some_iff.mp hdeadline
    exact ⟨t', rfl, hleast'.2 hmem⟩
  | none =>
    rw [hdeadline] at hearliest
    have hempty : deadlines births i = ∅ := hearliest
    rw [hempty] at hmem
    exact absurd hmem (Set.notMem_empty t)

/-- A budget that is exceeded stays so, whatever happens. -/
theorem exceeded_of_act (hact : s.act? a = some s') (hb : s.family.budget? i = some b)
    (hexceeded : b.isExceeded s.now = true) :
    ∃ b', s'.family.budget? i = some b' ∧ b'.isExceeded s'.now = true := by
  obtain ⟨m, hm, rfl⟩ := Option.map_eq_some_iff.mp hb
  obtain ⟨f, hchange, rfl⟩ := Option.map_eq_some_iff.mp hact
  -- a deadline that has passed stays passed
  have hlater : ∀ {t : Instant}, s.now ≤ t → m.budget.isExceeded t = true := by
    intro t ht
    rw [isExceeded, Bool.or_eq_true] at hexceeded ⊢
    refine hexceeded.imp_right fun hdue => ?_
    rw [isDue, Option.any_eq_true] at hdue ⊢
    obtain ⟨deadline, hdeadline, hle⟩ := hdue
    exact ⟨deadline, hdeadline, decide_eq_true (le_trans (of_decide_eq_true hle) ht)⟩
  have hadded : ∀ new : List Member, Family.budget? ⟨s.family.members ++ new⟩ i = some m.budget := by
    intro new
    rw [Family.budget?, List.getElem?_append_left (List.getElem?_eq_some_iff.mp hm).1, hm]
    rfl
  cases a with
  | unbounded =>
    rw [← Option.some.inj hchange]
    exact ⟨_, hadded _, hexceeded⟩
  | withTimeout timeout =>
    rw [← Option.some.inj hchange]
    exact ⟨_, hadded _, hexceeded⟩
  | withDeadline deadline =>
    rw [← Option.some.inj hchange]
    exact ⟨_, hadded _, hexceeded⟩
  | child parent timeout =>
    obtain ⟨hparent, hf⟩ := Option.ite_none_right_eq_some.mp hchange
    rw [← Option.some.inj hf, Family.addChild, List.getElem?_eq_getElem hparent]
    exact ⟨_, hadded _, hexceeded⟩
  | cancel j =>
    obtain ⟨-, hf⟩ := Option.ite_none_right_eq_some.mp hchange
    rw [← Option.some.inj hf, Family.budget?, Family.cancel, List.getElem?_map, hm]
    refine ⟨_, rfl, ?_⟩
    by_cases hin : j ∈ m.lineage
    · simp only [if_pos hin]
      rfl
    · simp only [if_neg hin]
      exact hexceeded
  | wait d =>
    rw [← Option.some.inj hchange]
    exact ⟨_, hb, hlater (Nat.le_add_right s.now d)⟩

theorem exceeded_of_run (hrun : s.run? acts = some s') (hb : s.family.budget? i = some b)
    (hexceeded : b.isExceeded s.now = true) :
    ∃ b', s'.family.budget? i = some b' ∧ b'.isExceeded s'.now = true := by
  induction acts generalizing s b with
  | nil => exact Option.some.inj hrun ▸ ⟨b, hb, hexceeded⟩
  | cons a acts ih =>
    obtain ⟨s₁, hact, hrest⟩ := Option.bind_eq_some_iff.mp hrun
    obtain ⟨b₁, hb₁, hexceeded₁⟩ := exceeded_of_act hact hb hexceeded
    exact ih hrest hb₁ hexceeded₁

/-- Cancelling leaves everybody alone who does not descend from the one that is cancelled. -/
theorem Accords.budget?_of_cancel (h : Accords births acts s.family)
    (hact : s.act? (.cancel i) = some s') (hj : ¬ Descends births j i) :
    s'.family.budget? j = s.family.budget? j := by
  obtain ⟨f, hchange, rfl⟩ := Option.map_eq_some_iff.mp hact
  obtain ⟨-, hf⟩ := Option.ite_none_right_eq_some.mp hchange
  rw [← Option.some.inj hf, Family.budget?, Family.budget?, Family.cancel, List.getElem?_map]
  cases hm : s.family.members[j]? with
  | none => rfl
  | some m =>
    have hnot : i ∉ m.lineage := fun hin => hj ((h.lineage j m hm i).mp hin)
    rw [Option.map_some, if_neg hnot]

/-- What can be told of the budgets of a family from the acts that have led to it. -/
structure Lawful (births : List Birth) (acts : List FamilyAct) (s : Moment) : Prop where
  /-- There is a budget for every birth. -/
  known : ∀ i, i < births.length ↔ ∃ b, s.family.budget? i = some b
  /-- A budget ends at the earliest of the deadlines of its own and of those it descends from. -/
  deadline : ∀ i b, s.family.budget? i = some b →
    ∀ t, b.deadline = some t ↔ IsLeast (deadlines births i) t
  /-- A budget is exceeded exactly if it or one that it descends from has been cancelled, whenever
  that was, or its time is over. -/
  exceeded : ∀ i b, s.family.budget? i = some b →
    (b.isExceeded s.now = true ↔ (∃ k, Descends births i k ∧ .cancel k ∈ acts) ∨
      ∃ t, IsLeast (deadlines births i) t ∧ t ≤ s.now)
  /-- What is exceeded stays so. -/
  permanent : ∀ i b later s', s.family.budget? i = some b → b.isExceeded s.now = true →
    s.run? later = some s' → ∃ b', s'.family.budget? i = some b' ∧ b'.isExceeded s'.now = true
  /-- All that descends from an exceeded budget is exceeded. -/
  inherited : ∀ i k b b', Descends births i k → s.family.budget? i = some b →
    s.family.budget? k = some b' → b'.isExceeded s.now = true → b.isExceeded s.now = true
  /-- Nobody has more time left than those that it descends from. -/
  remaining : ∀ i k b b' d, Descends births i k → s.family.budget? i = some b →
    s.family.budget? k = some b' → b'.remaining s.now = some d →
      ∃ d', b.remaining s.now = some d' ∧ d' ≤ d
  /-- Cancelling a budget changes none that it descends from, and none that was derived from the same
  one, or like it from none. -/
  relatives : ∀ i j s', s.act? (.cancel i) = some s' → j ≠ i →
    (Descends births i j ∨ ∃ birth birth', births[i]? = some birth ∧ births[j]? = some birth' ∧
      birth'.parent = birth.parent) → s'.family.budget? j = s.family.budget? j

/-- In every run of a family the record tells which budgets are exceeded. -/
theorem budget_tree (now : Instant) (acts : List FamilyAct) (s : Moment)
    (hrun : (Moment.mk now .empty).run? acts = some s) :
    s.now = timeFrom now acts ∧ Lawful (birthsFrom now acts) acts s := by
  obtain ⟨hnow, h⟩ := accords_of_run hrun
  refine ⟨hnow, ?_⟩
  refine
    { known := ?_
      deadline := ?_
      exceeded := fun i b hb => h.isExceeded_iff hb
      permanent := fun i b later s' hb hexceeded hlater => exceeded_of_run hlater hb hexceeded
      inherited := ?_
      remaining := ?_
      relatives := ?_ }
  · intro i
    rw [← h.length]
    constructor
    · intro hi
      exact ⟨_, by rw [Family.budget?, List.getElem?_eq_getElem hi, Option.map_some]⟩
    · rintro ⟨b, hb⟩
      obtain ⟨m, hm, -⟩ := Option.map_eq_some_iff.mp hb
      exact (List.getElem?_eq_some_iff.mp hm).1
  · intro i b hb t
    obtain ⟨m, hm, rfl⟩ := Option.map_eq_some_iff.mp hb
    exact (h.deadline i m hm).eq_some_iff
  · intro i k b b' hdescends hb hb' hexceeded
    rw [h.isExceeded_iff hb'] at hexceeded
    rw [h.isExceeded_iff hb]
    -- an ancestor of the ancestor is cancelled, or the deadline of the ancestor has passed
    rcases hexceeded with ⟨j, hj, hcancel⟩ | ⟨t, hleast, hle⟩
    · exact .inl ⟨j, hdescends.trans hj, hcancel⟩
    · obtain ⟨m', hm', hbudget⟩ := Option.map_eq_some_iff.mp hb'
      have ht : b'.deadline = some t := by
        rw [← hbudget]
        exact (h.deadline k m' hm').eq_some_iff.mpr hleast
      obtain ⟨t', ht', hle'⟩ := h.exists_deadline_le hb hb' hdescends ht
      obtain ⟨m, hm, rfl⟩ := Option.map_eq_some_iff.mp hb
      exact .inr ⟨t', (h.deadline i m hm).eq_some_iff.mp ht', le_trans hle' hle⟩
  · intro i k b b' d hdescends hb hb' hd
    obtain ⟨t, ht, rfl⟩ := Option.map_eq_some_iff.mp hd
    obtain ⟨t', ht', hle⟩ := h.exists_deadline_le hb hb' hdescends ht
    exact ⟨t' - s.now, by rw [remaining, ht', Option.map_some], Nat.sub_le_sub_right hle s.now⟩
  · intro i j s' hact hne hrelated
    rcases hrelated with hancestor | ⟨birth, birth', hi, hj, hparent⟩
    · refine h.budget?_of_cancel hact fun hback => hne ?_
      have hle := hancestor.le h.ordered
      have hge := hback.le h.ordered
      omega
    · exact h.budget?_of_cancel hact (not_descends_of_sibling h.ordered hi hj hparent hne)

/-- A budget of two seconds is cancelled under one that has a timeout beyond the end of the clock.  A
third one is derived from it afterwards, and its sibling comes to its own deadline. -/
def siblingsRun : List FamilyAct :=
  [.withTimeout Clock.limit, .child 0 (some (2 * Clock.second)), .cancel 1,
    .child 1 none, .child 0 (some Clock.second), .wait Clock.second]

theorem budget_tree_siblings :
    ∃ s, (Moment.mk 7 .empty).run? siblingsRun = some s ∧
      (s.family.members.map fun m => m.budget.isExceeded s.now) = [false, true, true, true] ∧
      Lawful (birthsFrom 7 siblingsRun) siblingsRun s :=
  ⟨_, rfl, by decide, (budget_tree 7 siblingsRun _ rfl).2⟩

end Playground.Budget
