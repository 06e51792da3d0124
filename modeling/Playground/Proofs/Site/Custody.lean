import Playground.Proofs.Queue
import Playground.Proofs.Site.Standing
/-!
# Who has the locks

The lock of a package goes to those who stand in line for it, first come first served, and a lock file
to one party at a time.  Both agree with where the parties stand: the line of a package is made of the
builds and callers that want it, the first of them may go on to the door of the directory, and a lock
file is held by those who have gone through that door, and by guests from outside.
-/

namespace Playground.Site

open Slots (Lines Leads)

variable {s s' : Site} {a : Act} {i j : PartyId} {id : PackageId} {st : Standing} {file : Nat}

/-! ## 1. The invariant -/

/-- The locks and the lock files agree with where the parties stand. -/
structure Custody (s : Site) : Prop where
  fair : ∀ l ∈ s.locks, l.Fair
  /-- Those in line for a lock are those who stand there or have come further. -/
  lines : ∀ id i, Lines s.locks id i ↔ ∃ st, s.standing? i = some st ∧ st.package? = some id
  /-- Who has come further than the line is the first in it. -/
  leads : ∀ id i st, s.standing? i = some st → st.package? = some id → st ≠ .inLine id →
    Leads s.locks id i
  /-- Those who hold a lock file are those who are inside, and guests. -/
  holders : ∀ i, (∃ file, (file, i) ∈ s.held) ↔ ∃ st, s.standing? i = some st ∧ st.hasFile = true
  files : (s.held.map (·.1)).Nodup
  parties : (s.held.map (·.2)).Nodup

theorem not_mem_of_isHeld (h : s.isHeld file = false) : file ∉ s.held.map (·.1) := by
  intro hmem
  obtain ⟨x, hx, rfl⟩ := List.mem_map.mp hmem
  have hany : s.isHeld x.1 = true := List.any_eq_true.mpr ⟨x, hx, beq_self_eq_true _⟩
  rw [h] at hany
  cases hany

namespace Custody

/-- Who is inside is the first in line. -/
theorem leads_inside (hs : Custody s) (hi : s.standing? i = some (.inside id)) :
    Leads s.locks id i :=
  hs.leads id i _ hi rfl (by intro h; cases h)

theorem empty (epoch : Nat) (tree : FileTree) : Custody (.empty epoch tree) where
  fair l hl := by cases hl
  lines id i := by
    constructor
    · rintro ⟨l, hl, -⟩
      cases hl
    · rintro ⟨st, hst, -⟩
      cases hst
  leads id i st hst := by cases hst
  holders i := by
    constructor
    · rintro ⟨file, hfile⟩
      cases hfile
    · rintro ⟨st, hst, -⟩
      cases hst
  files := List.nodup_nil
  parties := List.nodup_nil

/-! ## 2. The lock files -/

/-- What becomes of the lock files when one party comes to stand elsewhere, or nowhere: that party has
one if it is inside then, and the others have what they had. -/
structure HeldStep (s s' : Site) (i : PartyId) (new : Option Standing) : Prop where
  holders : ∀ j, (∃ file, (file, j) ∈ s'.held) ↔
    if j = i then ∃ st, new = some st ∧ st.hasFile = true else ∃ file, (file, j) ∈ s.held
  files : (s'.held.map (·.1)).Nodup
  parties : (s'.held.map (·.2)).Nodup

/-- A party that has no lock file, and gets none. -/
theorem heldStep_keep {new : Option Standing} (hs : Custody s) (hheld : s'.held = s.held)
    (hi : ∀ st, s.standing? i = some st → st.hasFile = false)
    (hnew : ∀ st, new = some st → st.hasFile = false) : HeldStep s s' i new where
  holders j := by
    rw [hheld]
    split
    · rename_i hj
      rw [hj, hs.holders]
      constructor
      · rintro ⟨st, hst, hfile⟩
        exact absurd hfile (by simp [hi st hst])
      · rintro ⟨st, hst, hfile⟩
        exact absurd hfile (by simp [hnew st hst])
    · rfl
  files := hheld ▸ hs.files
  parties := hheld ▸ hs.parties

/-- A party that has no lock file gets one that nobody has. -/
theorem heldStep_take {new : Standing} (hs : Custody s) (hfree : s.isHeld file = false)
    (hheld : s'.held = (file, i) :: s.held)
    (hi : ∀ st, s.standing? i = some st → st.hasFile = false) (hnew : new.hasFile = true) :
    HeldStep s s' i (some new) where
  holders j := by
    rw [hheld]
    split
    · rename_i hj
      rw [hj]
      exact ⟨fun _ => ⟨new, rfl, hnew⟩, fun _ => ⟨file, List.mem_cons_self⟩⟩
    · rename_i hj
      simp [hj]
  files := by
    rw [hheld]
    exact List.nodup_cons.mpr ⟨not_mem_of_isHeld hfree, hs.files⟩
  parties := by
    rw [hheld]
    refine List.nodup_cons.mpr ⟨fun hmem => ?_, hs.parties⟩
    obtain ⟨x, hx, hxi⟩ := List.mem_map.mp hmem
    obtain rfl : x.2 = i := hxi
    obtain ⟨st, hst, hfile⟩ := (hs.holders x.2).mp ⟨x.1, hx⟩
    rw [hi st hst] at hfile
    cases hfile

/-- A party that leaves has no lock file any more. -/
theorem heldStep_release (hs : Custody s) (hheld : s'.held = s.held.filter (·.2 != i)) :
    HeldStep s s' i none where
  holders j := by
    rw [hheld]
    split
    · rename_i hj
      simp [hj]
    · rename_i hj
      simp [hj]
  files := by
    rw [hheld]
    exact hs.files.sublist (List.filter_sublist.map _)
  parties := by
    rw [hheld]
    exact hs.parties.sublist (List.filter_sublist.map _)

/-! ## 3. Steps -/

/-- One party takes a step, and the locks and the lock files follow. -/
theorem of_update {new : Option Standing} (hs : Custody s)
    (hstanding : s'.standing? = Function.update s.standing? i new)
    (hfair : ∀ l ∈ s'.locks, l.Fair)
    (hlines : ∀ id j, Lines s'.locks id j ↔
      if j = i then ∃ st, new = some st ∧ st.package? = some id else Lines s.locks id j)
    (hleads : ∀ id j, j ≠ i → Leads s.locks id j → Leads s'.locks id j)
    (hnew : ∀ id st, new = some st → st.package? = some id → st ≠ .inLine id → Leads s'.locks id i)
    (hheld : HeldStep s s' i new) : Custody s' where
  fair := hfair
  lines id j := by
    rw [hlines, hstanding, Function.update_apply]
    split
    · rfl
    · exact hs.lines id j
  leads id j st hst hid hne := by
    rw [hstanding, Function.update_apply] at hst
    split at hst
    · rename_i hj
      exact hj ▸ hnew id st hst hid hne
    · rename_i hj
      exact hleads id j hj (hs.leads id j st hst hid hne)
  holders j := by
    rw [hheld.holders, hstanding, Function.update_apply]
    split
    · rfl
    · exact hs.holders j
  files := hheld.files
  parties := hheld.parties

/-- A party that comes to stand elsewhere, but in the same line as before, if in any, changes no line.
Where it comes further than the line it has to be the first there. -/
theorem of_same_line {new : Option Standing} (hs : Custody s) (hlocks : s'.locks = s.locks)
    (hstanding : s'.standing? = Function.update s.standing? i new)
    (hpackage : new.bind Standing.package? = (s.standing? i).bind Standing.package?)
    (hnew : ∀ id st, new = some st → st.package? = some id → st ≠ .inLine id → Leads s.locks id i)
    (hheld : HeldStep s s' i new) : Custody s' := by
  refine hs.of_update hstanding (hlocks ▸ hs.fair) (fun id j => ?_) ?_ (hlocks ▸ hnew) hheld
  · rw [hlocks]
    split
    · rename_i hj
      simp only [hj, hs.lines, ← Option.bind_eq_some_iff, hpackage]
    · rfl
  · rw [hlocks]
    exact fun _ _ _ h => h

/-- Packages come with locks that nobody has or waits for. -/
theorem found {new : List Slots} (hs : Custody s) (hnew : ∀ l ∈ new, l = .lock)
    (hstanding : s'.standing? = s.standing?) (hlocks : s'.locks = s.locks ++ new)
    (hheld : s'.held = s.held) : Custody s' where
  fair l hl := by
    rw [hlocks] at hl
    rcases List.mem_append.mp hl with hl | hl
    · exact hs.fair l hl
    · exact hnew l hl ▸ Slots.fair_lock
  lines id i := by
    rw [hlocks, Slots.lines_append hnew, hstanding]
    exact hs.lines id i
  leads id i st := by
    rw [hlocks, Slots.leads_append hnew, hstanding]
    exact hs.leads id i st
  holders i := by
    rw [hheld, hstanding]
    exact hs.holders i
  files := hheld ▸ hs.files
  parties := hheld ▸ hs.parties

/-- A party that stands nowhere is in no line. -/
theorem not_lines (hs : Custody s) (hi : s.standing? i = none) (id : PackageId) :
    ¬ Lines s.locks id i := by
  rw [hs.lines, hi]
  rintro ⟨st, hst, -⟩
  cases hst

/-- A party that stands nowhere goes to the end of a line. -/
theorem queue (hs : Custody s) (hi : s.standing? i = none) (hid : id < s.locks.length)
    (hstanding : s'.standing? = Function.update s.standing? i (some (.inLine id)))
    (hlocks : s'.locks = s.locks.modify id (·.enter i)) (hheld : s'.held = s.held) :
    Custody s' := by
  have hfair : ∀ l, s.locks[id]? = some l → (l.enter i).Fair := fun l hl =>
    (hs.fair l (List.mem_of_getElem? hl)).enter fun hmem => hs.not_lines hi id ⟨l, hl, hmem⟩
  refine hs.of_update hstanding ?_ ?_ ?_ ?_ ?_
  · rw [hlocks]
    exact Slots.fair_modify hs.fair hfair
  · intro k j
    rw [hlocks, Slots.lines_enter hs.fair hid]
    split
    · rename_i hj
      rw [hj]
      simp [hs.not_lines hi, Standing.package?, eq_comm]
    · rename_i hj
      simp [hj]
  · intro k j _ hleads
    rw [hlocks]
    exact hleads.enter hs.fair
  · -- it is no further than the line
    rintro k _ ⟨⟩ ⟨⟩ hne
    exact absurd rfl hne
  · exact hs.heldStep_keep hheld (fun _ hst => nomatch hi.symm.trans hst) fun _ hst => by
      cases hst
      rfl

/-- A party gives up all it has of a package.  New packages may come in the same step. -/
theorem leave {new : List Slots} (hs : Custody s) (hnew : ∀ l ∈ new, l = .lock)
    (hi : ∀ st, s.standing? i = some st → st.package? = some id)
    (hstanding : s'.standing? = Function.update s.standing? i none)
    (hlocks : s'.locks = s.locks.modify id (·.leave i) ++ new)
    (hheld : s'.held = s.held.filter (·.2 != i)) : Custody s' := by
  refine hs.of_update hstanding ?_ ?_ ?_ nofun (hs.heldStep_release hheld)
  · rw [hlocks]
    intro l hl
    rcases List.mem_append.mp hl with hl | hl
    · exact Slots.fair_modify hs.fair
        (fun l hl => (hs.fair l (List.mem_of_getElem? hl)).leave i) l hl
    · exact hnew l hl ▸ Slots.fair_lock
  · intro k j
    rw [hlocks, Slots.lines_append hnew, Slots.lines_leave hs.fair]
    split
    · -- it is in the line of this package only
      rename_i hj
      rw [hj]
      refine ⟨fun h => ?_, nofun⟩
      obtain ⟨st, hst, hk⟩ := (hs.lines k i).mp h.1
      exact absurd ⟨Option.some.inj (hk.symm.trans (hi st hst)), rfl⟩ h.2
    · rename_i hj
      simp [hj]
  · intro k j hne hleads
    rw [hlocks, Slots.leads_append hnew]
    exact hleads.leave hs.fair fun _ => hne

theorem step (hs : Custody s) (h : LockStep s s') : Custody s' := by
  cases h with
  | rest new hnew hstanding hlocks hheld => exact hs.found hnew hstanding hlocks hheld
  | queue i id hi hid hstanding hlocks hheld => exact hs.queue hi hid hstanding hlocks hheld
  | approach i id hi hfirst hstanding hlocks hheld =>
    obtain ⟨l, hl, hheldBy⟩ := hfirst
    have hleads : Leads s.locks id i :=
      ⟨l, hl, (hs.fair l (List.mem_of_getElem? hl)).isHeldBy_iff.mp hheldBy⟩
    refine hs.of_same_line hlocks hstanding (by rw [hi]; rfl) ?_ (hs.heldStep_keep hheld ?_ ?_)
    · rintro k _ ⟨⟩ ⟨⟩ -
      exact hleads
    · rw [hi]
      rintro _ ⟨⟩
      rfl
    · rintro _ ⟨⟩
      rfl
  | unlatch i p id file hi hp hopen hstanding hlocks hheld =>
    refine hs.of_same_line hlocks hstanding (by rw [hi]; rfl) ?_ (hs.heldStep_keep hheld ?_ ?_)
    · rintro k _ ⟨⟩ ⟨⟩ -
      exact hs.leads id i _ hi rfl nofun
    · rw [hi]
      rintro _ ⟨⟩
      rfl
    · rintro _ ⟨⟩
      rfl
  | enter i id file hi hfree hstanding hlocks hheld =>
    refine hs.of_same_line hlocks hstanding (by rw [hi]; rfl) ?_
      (hs.heldStep_take hfree hheld ?_ rfl)
    · rintro k _ ⟨⟩ ⟨⟩ -
      exact hs.leads id i _ hi rfl nofun
    · rw [hi]
      rintro _ ⟨⟩
      rfl
  | leave i id new hnew hi hstanding hlocks hheld => exact hs.leave hnew hi hstanding hlocks hheld
  -- guests stand in no line
  | visit i directory file hi hopen hfree hstanding hlocks hheld =>
    refine hs.of_same_line hlocks hstanding (by rw [hi]; rfl) ?_
      (hs.heldStep_take hfree hheld (fun _ hst => nomatch hi.symm.trans hst) rfl)
    rintro k _ ⟨⟩ hk
    cases hk
  | depart i directory hi hstanding hlocks hheld =>
    exact hs.of_same_line hlocks hstanding (by rw [hi]; rfl) nofun (hs.heldStep_release hheld)

theorem act (hs : Custody s) (h : s.act? a = some s') : Custody s' := hs.step (act?_lockStep h)

end Custody

theorem custody_of_run {epoch : Nat} {tree : FileTree} {acts : List Act}
    (h : (Site.empty epoch tree).run? acts = some s) : Custody s :=
  run?_preserves (fun hact hs => hs.act hact) h (.empty epoch tree)

end Playground.Site
