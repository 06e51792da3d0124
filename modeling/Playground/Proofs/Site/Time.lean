import Playground.Proofs.Site.Overrun
import Playground.Proofs.Site.Turns
/-!
# Time at a site

Whatever the parties do takes no time; time passes only when everybody waits.  So the clock never
goes back, and a budget that has run out stays so.
-/

namespace Playground

/-- A budget that has run out stays so as time passes. -/
theorem Budget.isExceeded_mono {b : Budget} {t t' : Instant} (h : b.isExceeded t = true)
    (ht : t ≤ t') : b.isExceeded t' = true := by
  rw [isExceeded, Bool.or_eq_true, isDue] at h ⊢
  refine h.imp_right fun hdue => ?_
  obtain ⟨deadline, hdeadline, hle⟩ := (Option.any_eq_true _ _).mp hdue
  rw [hdeadline]
  exact decide_eq_true (Nat.le_trans (of_decide_eq_true hle) ht)

namespace Site

variable {s s' : Site} {a : Act} {i : PartyId} {id : PackageId} {b : Build} {c : Call} {p : Package}

theorem now_demand (s : Site) (id : PackageId) (p : Package) : (s.demand id p).1.now = s.now := by
  unfold demand
  dsimp only
  split <;> rfl

theorem now_mark (s : Site) (p : Package) (a : Artifact) : (s.mark p a).now = s.now := by
  unfold mark
  split <;> rfl

theorem now_conclude (s : Site) (o : Outcome) : (s.conclude i b p o).now = s.now := rfl

theorem now_afterOutcome (a : Budget.Allowance) (o : Outcome) :
    (s.afterOutcome i c a o).now = s.now := by
  unfold afterOutcome
  split <;> rfl

theorem now_answerDemand {a : Budget.Allowance} (outcome : Site × Demand) :
    (answerDemand i c a outcome).now = outcome.1.now := by
  obtain ⟨s, demand⟩ := outcome
  cases demand with
  | settled o => exact now_afterOutcome a o
  | _ => rfl

theorem BuildTurn.now {stage : BuildStage} (h : BuildTurn s i b p stage s') : s'.now = s.now := by
  cases h with
  | approach budget grip grip' s₁ h => exact h.now s₁ rfl
  | enter budget grip s₁ h => exact h.now s₁ rfl
  | giveUp budget grip s₁ e h => exact h.now s₁ rfl
  | mark a => exact (now_conclude (s.mark p a) (.ok a)).trans (now_mark s p a)
  | _ => rfl

theorem CallTurn.now {stage : CallStage} (h : CallTurn s i c p stage s') : s'.now = s.now := by
  cases h with
  | ask a => exact (now_answerDemand _).trans (now_demand s c.package p)
  | get stage a n o h ho => exact now_afterOutcome a o
  | approach a order grip grip' s₁ h => exact h.now s₁ rfl
  | enter a order grip s₁ h => exact h.now s₁ rfl
  | expire a order grip s₁ e h => exact h.now s₁ rfl
  | fail a order grip s₁ e h => exact h.now s₁ rfl
  | finish a order worker result h =>
    unfold afterCopy
    split <;> rfl
  | _ => rfl

theorem now_moveBuild? (h : s.moveBuild? i b = some s') : s'.now = s.now := by
  obtain ⟨p, -, hturn⟩ := moveBuild?_turn h
  exact hturn.now

theorem now_moveCall? (h : s.moveCall? i c = some s') : s'.now = s.now := by
  obtain ⟨p, -, hturn⟩ := moveCall?_turn h
  exact hturn.now

/-- Whoever moves, a move takes no time. -/
theorem now_of_move (h : s.act? (.move i) = some s') : s'.now = s.now := by
  cases act?_turn h with
  | build _ b _ hi h => exact now_moveBuild? h
  | call _ c _ hi h => exact now_moveCall? h
  | _ => rfl

/-- The clock never goes back. -/
theorem now_le_of_act (h : s.act? a = some s') : s.now ≤ s'.now := by
  cases act?_turn h with
  | build i b _ hi h => exact Nat.le_of_eq (now_moveBuild? h).symm
  | call i c _ hi h => exact Nat.le_of_eq (now_moveCall? h).symm
  | wait d => exact Nat.le_add_right s.now d
  | _ => exact Nat.le_refl s.now

end Site

end Playground
