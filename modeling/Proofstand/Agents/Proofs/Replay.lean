/-
What the two replays of a Venus account can come to.

`noAction_cases` says it of the unguarded one: either no step of the path
takes the health factor below 1 and nothing is lost, or one does and the
penalty is. `guardStep_cases` is the guarded loop's inversion lemma;
whole guarded replays return, and the gas they spend is not negative.
Two plans are compared step by step (`usdSaved_of_sameCall`).

# Sentinels and tops

The unguarded replay starts its minimum at infinity and has an index of
the liquidation that may be none. `noAction_cases` has the two outcomes
side by side, each with all the fields, so that no proof about a loss has
to unfold the loop. The penalty may be zero, and then nothing is lost
though the account was under; `loss_eq_zero_iff` keeps the two apart.

# One step of the guard

`guardStep_cases` is the inversion lemma of the loop's body: a step leaves
all but the minimum, or repays and counts. Division enters at one place,
by the recovery target, and a target that can be divided by makes every
step return (`guardStep_total`), so a guarded replay of a path returns.
-/
import Proofstand.Agents.VenusGuard.Replay
import Proofstand.Lib.Fallible

namespace Proofstand

namespace VenusGuard

open Fallible

variable {K : Type} [Field K] [LinearOrder K]

-- ============================================================ no action

/-- No step of the path takes the account's health factor below 1. -/
def NeverUnder (pos : Position K) (path : List K) : Prop :=
  ∀ k ∈ path, 1 ≤ pos.hfAt k pos.borrowUsd

/-- An account that is never under loses nothing, and its factor stays at 1
or above. -/
theorem noActionFrom_safe {pos : Position K} {path : List K}
    (h : NeverUnder pos path) (step : Nat) {m : WithTop K} (hm : 1 ≤ m) :
    (noActionFrom pos step m path).liquidationLossUsd = 0
      ∧ 1 ≤ (noActionFrom pos step m path).minHf := by
  induction path generalizing step m with
  | nil => exact ⟨rfl, hm⟩
  | cons k ks ih =>
      have hk : 1 ≤ pos.hfAt k pos.borrowUsd := h k List.mem_cons_self
      rw [noActionFrom, if_neg (not_lt.2 hk)]
      apply ih
      · intro k' hk'
        exact h k' (List.mem_cons_of_mem k hk')
      · exact le_min hm hk

/-- One that is under somewhere loses the penalty, and its factor falls below
1. -/
theorem noActionFrom_under {pos : Position K} {path : List K}
    (h : ¬ NeverUnder pos path) (step : Nat) (m : WithTop K) :
    (noActionFrom pos step m path).liquidationLossUsd = pos.penalty
      ∧ (noActionFrom pos step m path).minHf < 1 := by
  induction path generalizing step m with
  | nil => exact absurd (fun k hk => absurd hk List.not_mem_nil) h
  | cons k ks ih =>
      rw [noActionFrom]
      by_cases hk : pos.hfAt k pos.borrowUsd < 1
      · rw [if_pos hk]
        exact ⟨rfl, min_lt_of_right_lt hk⟩
      · rw [if_neg hk]
        apply ih
        intro hks
        apply h
        intro k' hk'
        rcases List.mem_cons.1 hk' with rfl | hmem
        · exact not_lt.1 hk
        · exact hks k' hmem

/-- Nothing lost and never under 1, or the penalty lost and once under. -/
theorem noAction_cases (pos : Position K) (path : List K) :
    (NeverUnder pos path
        ∧ (replayNoAction pos path).liquidationLossUsd = 0
        ∧ 1 ≤ (replayNoAction pos path).minHf)
      ∨ (¬ NeverUnder pos path
        ∧ (replayNoAction pos path).liquidationLossUsd = pos.penalty
        ∧ (replayNoAction pos path).minHf < 1) := by
  by_cases h : NeverUnder pos path
  · exact Or.inl ⟨h, noActionFrom_safe h 0 le_top⟩
  · exact Or.inr ⟨h, noActionFrom_under h 0 ⊤⟩

/-- So nothing is lost where it is never under, or there is no penalty. -/
theorem loss_eq_zero_iff (pos : Position K) (path : List K) :
    (replayNoAction pos path).liquidationLossUsd = 0
      ↔ NeverUnder pos path ∨ pos.penalty = 0 := by
  rcases noAction_cases pos path with ⟨h, hloss, -⟩ | ⟨h, hloss, -⟩
  · simp [h, hloss]
  · simp [h, hloss]

-- ============================================================= one step

/-- A step of the guarded loop looks, or looks and repays. -/
theorem guardStep_cases {pos : Position K} {plan : GuardPlan K}
    {s s' : GuardState K} {k : K} {step : Nat}
    (h : guardStep pos plan s (k, step) = .ok s') :
    s' = s.see (pos.hfAt k s.borrow)
      ∨ ∃ x, 0 < x ∧ fires plan s (pos.hfAt k s.borrow) = true
        ∧ s' = (s.see (pos.hfAt k s.borrow)).repay pos plan step k x := by
  unfold guardStep at h
  by_cases hfires : fires plan s (pos.hfAt k s.borrow) = true
  · simp only [hfires, if_true] at h
    obtain ⟨x, -, hx⟩ := bind_eq_ok.1 h
    by_cases hpos : x ≤ 0
    · rw [if_pos hpos] at hx
      cases hx
      exact Or.inl rfl
    · rw [if_neg hpos] at hx
      cases hx
      exact Or.inr ⟨x, not_le.1 hpos, hfires, rfl⟩
  · simp only [hfires] at h
    cases h
    exact Or.inl rfl

/-- With a recovery target that can be divided by, a step returns. -/
theorem guardStep_total {pos : Position K} {plan : GuardPlan K}
    (hrec : plan.recoveryHf ≠ 0) (s : GuardState K) (p : K × Nat) :
    ∃ s', guardStep pos plan s p = .ok s' := by
  obtain ⟨k, step⟩ := p
  simp only [guardStep, repayment, pyDiv, if_neg hrec, ok_bind, pure_eq_ok]
  split
  · split
    · exact ⟨_, rfl⟩
    · exact ⟨_, rfl⟩
  · exact ⟨_, rfl⟩

-- ========================================================= whole replays

/-- `replay_guarded` is its loop, and what it makes of the state it ends in. -/
theorem replayGuarded_eq_ok {pos : Position K} {path : List K}
    {plan : GuardPlan K} {g : GuardedResult K}
    (h : replayGuarded pos path plan = .ok g) :
    ∃ s, path.zipIdx.foldlM (guardStep pos plan) (GuardState.start pos plan)
        = .ok s
      ∧ g.liquidated = guardVerdict pos path s
      ∧ g.gasUsd = s.gas
      ∧ g.usdSaved
        = (if guardVerdict pos path s then 0
            else (replayNoAction pos path).liquidationLossUsd) - s.gas := by
  unfold replayGuarded at h
  obtain ⟨s, hs, h⟩ := bind_eq_ok.1 h
  refine ⟨s, hs, ?_⟩
  cases hlast : path.getLast? with
  | none =>
      rw [hlast] at h
      cases h
  | some last =>
      rw [hlast] at h
      cases h
      exact ⟨rfl, rfl, rfl⟩

/-- The loop over a path returns. -/
theorem run_total {pos : Position K} {plan : GuardPlan K}
    (hrec : plan.recoveryHf ≠ 0) (l : List (K × Nat)) (s : GuardState K) :
    ∃ s', l.foldlM (guardStep pos plan) s = .ok s' := by
  obtain ⟨s', hs', -⟩ := foldlM_total (P := fun _ => True) (s := s)
    (f := guardStep pos plan) (l := l)
    (fun s p _ _ => by
      obtain ⟨s', hs'⟩ := guardStep_total hrec s p
      exact ⟨s', hs', trivial⟩) trivial
  exact ⟨s', hs'⟩

/-- The guarded replay of a non-empty path returns. -/
theorem replayGuarded_total {pos : Position K} {path : List K}
    {plan : GuardPlan K} (hpath : path ≠ []) (hrec : plan.recoveryHf ≠ 0) :
    ∃ g, replayGuarded pos path plan = .ok g := by
  obtain ⟨s, hs⟩ :=
    run_total hrec path.zipIdx (GuardState.start pos plan)
  unfold replayGuarded
  rw [hs, ok_bind, List.getLast?_eq_some_getLast hpath]
  exact ⟨_, rfl⟩

/-- The gas a guarded replay spends is not negative. -/
theorem gas_nonneg [IsStrictOrderedRing K] {pos : Position K}
    {path : List K} {plan : GuardPlan K} {g : GuardedResult K}
    (hgas : 0 ≤ plan.gasUsdPerRepay)
    (h : replayGuarded pos path plan = .ok g) : 0 ≤ g.gasUsd := by
  obtain ⟨s, hs, -, hg, -⟩ := replayGuarded_eq_ok h
  rw [hg]
  refine foldlM_keeps (P := fun s : GuardState K => 0 ≤ s.gas) ?_
    (le_refl (0 : K)) hs
  intro s p
  obtain ⟨k, step⟩ := p
  intro s' _ hnonneg hstep
  rcases guardStep_cases hstep with rfl | ⟨x, -, -, rfl⟩
  · exact hnonneg
  · exact add_nonneg hnonneg hgas

-- ============================================================ two plans

/-- At this step the two plans look at repaying together, and if they do,
with one recovery target. -/
def SameCall (pos : Position K) (plan plan' : GuardPlan K)
    (s : GuardState K) (p : K × Nat) : Prop :=
  fires plan s (pos.hfAt p.1 s.borrow) = fires plan' s (pos.hfAt p.1 s.borrow)
    ∧ (fires plan s (pos.hfAt p.1 s.borrow) = true →
        plan.recoveryHf = plan'.recoveryHf)

/-- At such a step the two guards do the same. -/
theorem guardStep_of_sameCall {pos : Position K} {plan plan' : GuardPlan K}
    {s : GuardState K} {p : K × Nat} (h : SameCall pos plan plan' s p)
    (hgas : plan.gasUsdPerRepay = plan'.gasUsdPerRepay) :
    guardStep pos plan s p = guardStep pos plan' s p := by
  obtain ⟨k, step⟩ := p
  obtain ⟨hfires, hrecovery⟩ := h
  unfold guardStep
  simp only at hfires hrecovery ⊢
  rw [← hfires]
  by_cases hlook : fires plan s (pos.hfAt k s.borrow) = true
  · simp only [hlook, if_true]
    unfold repayment GuardState.repay
    rw [hrecovery hlook, hgas]
  · simp only [hlook]
    rfl

/-- Two plans that call alike along the first one's replay save the
same. -/
theorem usdSaved_of_sameCall {pos : Position K} {path : List K}
    {plan plan' : GuardPlan K} {g g' : GuardedResult K}
    (hbuffer : plan.bufferUsd = plan'.bufferUsd)
    (hgas : plan.gasUsdPerRepay = plan'.gasUsdPerRepay)
    (halong : AlongRun (guardStep pos plan) (SameCall pos plan plan')
      (GuardState.start pos plan) path.zipIdx)
    (h : replayGuarded pos path plan = .ok g)
    (h' : replayGuarded pos path plan' = .ok g') :
    g.usdSaved = g'.usdSaved := by
  obtain ⟨s, hs, -, -, hsaved⟩ := replayGuarded_eq_ok h
  obtain ⟨s', hs', -, -, hsaved'⟩ := replayGuarded_eq_ok h'
  have hstart : GuardState.start pos plan = GuardState.start pos plan' := by
    unfold GuardState.start
    rw [hbuffer]
  have hss : s = s' := by
    refine foldlM_rel (R := Eq) ?_ halong hstart hs hs'
    intro t _ p u u' hcall heq
    subst heq
    intro hu hu'
    rw [guardStep_of_sameCall hcall hgas] at hu
    exact Except.ok.inj (hu.symm.trans hu')
  rw [hsaved, hsaved', hss]

end VenusGuard

end Proofstand
