import Mathlib.Data.List.Basic
import Playground.Proofs.Site.Run
/-!
# Serving calls is a run

The machine of a site chooses who moves next, and when the clock jumps.  All that it does is a run
of acts, so what holds of every run holds of every site that has served calls.
-/

namespace Playground

/-! ## 1. Machines -/

namespace Clock.Machine

variable {σ : Type} {m : Machine σ} {s s' : σ}

/-- A machine takes a step, or sets its clock forward. -/
theorem advance?_cases (h : m.advance? s = some s') :
    m.step? s = some s' ∨ ∃ t, m.now s < t ∧ s' = m.moveTo s t := by
  unfold advance? at h
  simp only [Option.orElse_eq_orElse, Option.orElse_eq_or, Option.or_eq_some_iff] at h
  refine h.imp_right fun ⟨_, h⟩ => ?_
  obtain ⟨t, ht, rfl⟩ := Option.map_eq_some_iff.mp h
  have hwake := List.min?_mem ht
  exact ⟨t, of_decide_eq_true (List.mem_filter.mp hwake).2, rfl⟩

/-- What a machine keeps whenever it advances, it keeps as long as it runs. -/
theorem runUntil_preserves {P : σ → Prop} (hadvance : ∀ {s s'}, m.advance? s = some s' → P s → P s')
    (done : σ → Bool) (fuel : Nat) (hs : P s) : P (m.runUntil done fuel s) := by
  induction fuel generalizing s with
  | zero => exact hs
  | succ fuel ih =>
    unfold runUntil
    split
    · exact hs
    · split
      · rename_i s₁ hadvanced
        exact ih (hadvance hadvanced hs)
      · exact hs

end Clock.Machine

/-! ## 2. The machine of a site -/

namespace Site

variable {s s' : Site} {i : PartyId} {party : Party}

theorem act?_of_move? (hi : s.parties[i]? = some party) (h : s.move? i party = some s') :
    s.act? (.move i) = some s' := by
  rw [act?, hi]
  exact h

theorem act?_of_revoke? (hi : s.parties[i]? = some party) (h : s.revoke? i party = some s') :
    s.act? (.cancel i) = some s' := by
  cases party with
  | call c =>
    obtain ⟨allowance', hrevoke, hs'⟩ := Option.map_eq_some_iff.mp h
    obtain ⟨allowance, hallowance, hrevoke⟩ := Option.bind_eq_some_iff.mp hrevoke
    unfold Budget.Allowance.revoke? at hrevoke
    split at hrevoke
    · rw [act?, cancelCall?, call?_eq_some.mpr hi, Option.bind_some, hallowance, Option.map_some,
        Option.some.inj hrevoke]
      exact congrArg some hs'
    · cases hrevoke
  | _ => cases h

/-- The machine moves one of the parties, or cancels the budget of one. -/
theorem exists_act_of_step? (h : s.step? = some s') : ∃ a, s.act? a = some s' := by
  have hmem : ∀ {p : Party × PartyId → Bool} {x : Party × PartyId},
      x ∈ (s.parties.zipIdx.partition p).1 ∨ x ∈ (s.parties.zipIdx.partition p).2 →
        s.parties[x.2]? = some x.1 :=
    fun hx => List.mk_mem_zipIdx_iff_getElem?.mp (List.mem_partition.mpr hx)
  unfold step? at h
  simp only [Option.orElse_eq_orElse, Option.orElse_eq_or, Option.or_eq_some_iff] at h
  rcases h with h | ⟨-, h | ⟨-, h | ⟨-, h⟩⟩⟩
  · obtain ⟨⟨party, i⟩, hx, h⟩ := List.exists_of_findSome?_eq_some h
    dsimp only at h
    split at h
    · exact ⟨_, act?_of_move? (hmem (.inr hx)) h⟩
    · cases h
  · obtain ⟨⟨party, i⟩, hx, h⟩ := List.exists_of_findSome?_eq_some h
    exact ⟨_, act?_of_move? (hmem (.inl hx)) h⟩
  · obtain ⟨⟨party, i⟩, hx, h⟩ := List.exists_of_findSome?_eq_some h
    exact ⟨_, act?_of_revoke? (hmem (.inl hx)) h⟩
  · obtain ⟨⟨party, i⟩, hx, h⟩ := List.exists_of_findSome?_eq_some h
    exact ⟨_, act?_of_move? (hmem (.inr hx)) h⟩

theorem exists_run?_of_advance? {wakes : Site → List Instant} {s₀ : Site}
    (h : ({ machine with wakes } : Clock.Machine Site).advance? s = some s')
    (hrun : ∃ acts, s₀.run? acts = some s) : ∃ acts, s₀.run? acts = some s' := by
  obtain ⟨acts, hrun⟩ := hrun
  obtain ⟨a, ha⟩ : ∃ a, s.act? a = some s' := by
    rcases Clock.Machine.advance?_cases h with h | ⟨t, hlater, rfl⟩
    · exact exists_act_of_step? h
    · have hlater : s.now < t := hlater
      refine ⟨.wait (t - s.now), ?_⟩
      rw [act?, Nat.add_sub_cancel' (Nat.le_of_lt hlater)]
      rfl
  refine ⟨acts ++ [a], ?_⟩
  rw [run?_append, hrun, Option.bind_some, run?, ha]
  rfl

theorem run?_enroll (s : Site) {calls : List Call} (h : ∀ c ∈ calls, c.stage = .coming) :
    s.run? (calls.map fun c => .come c.package c.start c.terms c.wish) =
      some (s.enroll calls).1 := by
  induction calls generalizing s with
  | nil =>
    have hparties : s.parties ++ [] = s.parties := List.append_nil _
    exact congrArg (fun parties => some { s with parties }) hparties.symm
  | cons c calls ih =>
    have hc : (⟨c.package, c.start, c.terms, c.wish, .coming⟩ : Call) = c := by
      rw [← h c List.mem_cons_self]
    rw [List.map_cons, run?, act?, hc, Option.bind_some,
      ih _ fun c' hc' => h c' (List.mem_cons_of_mem c hc'), enroll, enroll, addParty, List.map_cons,
      List.append_assoc]
    rfl

/-- Serving calls is a run of acts. -/
theorem exists_run?_serve (s : Site) {calls : List Call} (h : ∀ c ∈ calls, c.stage = .coming) :
    ∃ acts, s.run? acts = some (s.serve calls).1 :=
  Clock.Machine.runUntil_preserves exists_run?_of_advance? _ _ ⟨_, run?_enroll s h⟩

/-- Letting time pass is a run of acts. -/
theorem exists_run?_pass (s : Site) (d : Duration) : ∃ acts, s.run? acts = some (s.pass d) :=
  Clock.Machine.runUntil_preserves exists_run?_of_advance? _ _ ⟨[], rfl⟩

end Site

end Playground
