/-
When the guarded replay ends in a liquidation, and what each of its
repayments is.

# The two facts of a step

`guardStep_under`: with a trigger and a recovery target of at least 1, a
step that leaves the health factor below 1 leaves an empty buffer.
`guardStep_spent`: from an empty buffer nothing is repaid any more. So
the debt such a step leaves is the debt at the end, and the final test at
the path's lowest ratio speaks of it: the verdict is that some step was
still under 1 after its own repayment (`verdict_iff_under`).

# The closed form

What has been repaid is what the buffer has lost (`Budget`), so an empty
buffer means the debt is `borrow - buffer`, whatever the order in which
the repayments came (`liquidated_iff_lowest`).

# The repayments

A firing step repays what restores the recovery target, and the least such
amount is the solution of one linear equation (`least_repayment`). What the
step does repay is the least of that, the buffer and the debt. So each
repayment is either sufficient or the whole rest of the buffer, and the
sums are kept by the budget.

# Prices read from the path

`arrival` is the state in which the price at a position is met, so "the
step at `i`" is a term and not an index into a log. The lemmas about whole
runs stop the loop at that position (`run_at`) and start it again from
there.
-/
import Proofstand.Agents.Proofs.Replay

namespace Proofstand

namespace VenusGuard

open Fallible

variable {K : Type} [Field K] [LinearOrder K]

-- ===================================================== statement vocabulary

/-- The loop's variables when the price at position `i` arrives; at
`i + 1`, those the step at `i` leaves. -/
def arrival (pos : Position K) (plan : GuardPlan K) (path : List K) (i : Nat) :
    Py (GuardState K) :=
  (path.zipIdx.take i).foldlM (guardStep pos plan) (GuardState.start pos plan)

/-- The accounts and plans the guard is run with: collateral that is not
negative, a debt, a recovery target past a trigger of at least 1. -/
structure Guardable (pos : Position K) (plan : GuardPlan K) : Prop where
  stable : 0 ≤ pos.stableAdjUsd
  volatile : 0 ≤ pos.volatileAdjUsd
  borrow : 0 < pos.borrowUsd
  buffer : 0 ≤ plan.bufferUsd
  trigger : 1 ≤ plan.triggerHf
  recovery : plan.triggerHf ≤ plan.recoveryHf

-- ======================================================= the health factor

section Health

variable [IsStrictOrderedRing K]

/-- The health factor is below a number where there is a debt, and the
collateral is below that much of it; -/
theorem hfAt_lt_iff {pos : Position K} {k b c : K} :
    pos.hfAt k b < (c : WithTop K) ↔ 0 < b ∧ pos.adjAt k < c * b := by
  unfold Position.hfAt
  by_cases hb : 0 < b
  · rw [if_pos hb, WithTop.coe_lt_coe, div_lt_iff₀ hb]
    exact (and_iff_right hb).symm
  · rw [if_neg hb]
    simp [hb]

/-- below 1 where the debt exceeds it. -/
theorem hfAt_lt_one_iff {pos : Position K} {k b : K} :
    pos.hfAt k b < 1 ↔ 0 < b ∧ pos.adjAt k < b := by
  rw [← WithTop.coe_one, hfAt_lt_iff, one_mul]

/-- It is at least a number where there is no debt, or collateral for that
much of it. -/
theorem le_hfAt_iff {pos : Position K} {k b c : K} :
    (c : WithTop K) ≤ pos.hfAt k b ↔ b ≤ 0 ∨ c * b ≤ pos.adjAt k := by
  rw [← not_lt, hfAt_lt_iff, not_and_or, not_lt, not_lt]

/-- More debt is no healthier. -/
theorem hfAt_lt_one_of_le {pos : Position K} {k b b' : K} (hb : b ≤ b')
    (h : pos.hfAt k b < 1) : pos.hfAt k b' < 1 := by
  rw [hfAt_lt_one_iff] at h ⊢
  exact ⟨h.1.trans_le hb, h.2.trans_le hb⟩

theorem adjAt_mono {pos : Position K} (hvol : 0 ≤ pos.volatileAdjUsd)
    {k k' : K} (h : k ≤ k') : pos.adjAt k ≤ pos.adjAt k' := by
  unfold Position.adjAt
  gcongr

end Health

-- ============================================================= one step

/-- What the step at ratio `k` repays once it fires. -/
def due (pos : Position K) (plan : GuardPlan K) (s : GuardState K) (k : K) :
    K :=
  min (min (max 0 (s.borrow - pos.adjAt k / plan.recoveryHf))
    s.remainingBuffer) s.borrow

/-- A step repays what is due, or looks and leaves all but the minimum. -/
theorem guardStep_inv {pos : Position K} {plan : GuardPlan K}
    {s s' : GuardState K} {k : K} {step : Nat} (hrec : plan.recoveryHf ≠ 0)
    (h : guardStep pos plan s (k, step) = .ok s') :
    (fires plan s (pos.hfAt k s.borrow) = true ∧ 0 < due pos plan s k
        ∧ s' = (s.see (pos.hfAt k s.borrow)).repay pos plan step k
            (due pos plan s k))
      ∨ (s' = s.see (pos.hfAt k s.borrow)
        ∧ (fires plan s (pos.hfAt k s.borrow) = true →
            due pos plan s k ≤ 0)) := by
  simp only [guardStep, repayment, pyDiv, if_neg hrec, ok_bind, pure_eq_ok]
    at h
  by_cases hfires : fires plan s (pos.hfAt k s.borrow) = true
  · rw [if_pos hfires] at h
    change (if due pos plan s k ≤ 0 then _ else _) = _ at h
    by_cases hdue : due pos plan s k ≤ 0
    · rw [if_pos hdue] at h
      cases h
      exact Or.inr ⟨rfl, fun _ => hdue⟩
    · rw [if_neg hdue] at h
      cases h
      exact Or.inl ⟨hfires, not_le.1 hdue, rfl⟩
  · rw [if_neg hfires] at h
    cases h
    exact Or.inr ⟨rfl, fun hf => absurd hf hfires⟩

/-- The guard looks at repaying below the trigger, while there is debt and
buffer. -/
theorem fires_iff {plan : GuardPlan K} {s : GuardState K} {hf : WithTop K} :
    fires plan s hf = true
      ↔ hf < (plan.triggerHf : WithTop K) ∧ 0 < s.borrow
        ∧ 0 < s.remainingBuffer := by
  unfold fires
  exact decide_eq_true_iff

/-- From an empty buffer nothing is repaid. -/
theorem guardStep_spent {pos : Position K} {plan : GuardPlan K}
    {s s' : GuardState K} {p : K × Nat}
    (h : guardStep pos plan s p = .ok s') (hspent : s.remainingBuffer ≤ 0) :
    s'.remainingBuffer ≤ 0 ∧ s'.borrow = s.borrow := by
  obtain ⟨k, step⟩ := p
  rcases guardStep_cases h with rfl | ⟨x, -, hfires, -⟩
  · exact ⟨hspent, rfl⟩
  · exact absurd (fires_iff.1 hfires).2.2 (not_lt.2 hspent)

/-- The minimum seen only falls, and is at most what the step sees. -/
theorem guardStep_minHf {pos : Position K} {plan : GuardPlan K}
    {s s' : GuardState K} {k : K} {step : Nat}
    (h : guardStep pos plan s (k, step) = .ok s') :
    s'.minHf = min s.minHf (pos.hfAt k s.borrow) := by
  rcases guardStep_cases h with rfl | ⟨x, -, -, rfl⟩
  · rfl
  · rfl

/-- Where a run stands against the debt and the buffer it began with. -/
structure Budget (pos : Position K) (plan : GuardPlan K) (s : GuardState K) :
    Prop where
  spent : pos.borrowUsd - s.borrow = plan.bufferUsd - s.remainingBuffer
  repaid : s.repaid = pos.borrowUsd - s.borrow
  gas : s.gas = plan.gasUsdPerRepay * s.nRepays
  logged : s.actions.length = s.nRepays

omit [LinearOrder K] in
/-- What is repaid is what the buffer and the debt have lost: so it is at the
start, -/
theorem Budget.start (pos : Position K) (plan : GuardPlan K) :
    Budget pos plan (GuardState.start pos plan) where
  spent := by
    show pos.borrowUsd - pos.borrowUsd = plan.bufferUsd - plan.bufferUsd
    rw [sub_self, sub_self]
  repaid := (sub_self pos.borrowUsd).symm
  gas := by
    show (0 : K) = plan.gasUsdPerRepay * ((0 : Nat) : K)
    rw [Nat.cast_zero, mul_zero]
  logged := rfl

/-- and so it is after every step. -/
theorem Budget.step {pos : Position K} {plan : GuardPlan K}
    {s s' : GuardState K} {p : K × Nat} (hs : Budget pos plan s)
    (h : guardStep pos plan s p = .ok s') : Budget pos plan s' := by
  obtain ⟨k, step⟩ := p
  rcases guardStep_cases h with rfl | ⟨x, -, -, rfl⟩
  · exact ⟨hs.spent, hs.repaid, hs.gas, hs.logged⟩
  · constructor
    · show pos.borrowUsd - (s.borrow - x)
        = plan.bufferUsd - (s.remainingBuffer - x)
      linear_combination hs.spent
    · show s.repaid + x = pos.borrowUsd - (s.borrow - x)
      linear_combination hs.repaid
    · show s.gas + plan.gasUsdPerRepay
        = plan.gasUsdPerRepay * ((s.nRepays + 1 : Nat) : K)
      push_cast
      linear_combination hs.gas
    · show (s.actions ++ [_]).length = s.nRepays + 1
      rw [List.length_append, List.length_singleton, hs.logged]

section Steps

variable [IsStrictOrderedRing K]

omit [IsStrictOrderedRing K] in
/-- A repayment that covers neither the need nor the debt is all that was
left. -/
theorem buffer_le_due {pos : Position K} {plan : GuardPlan K}
    {s : GuardState K} {k : K}
    (hneed : due pos plan s k
      < max 0 (s.borrow - pos.adjAt k / plan.recoveryHf))
    (hdebt : due pos plan s k ≠ s.borrow) :
    s.remainingBuffer ≤ due pos plan s k := by
  rcases min_choice (min (max 0 (s.borrow - pos.adjAt k / plan.recoveryHf))
    s.remainingBuffer) s.borrow with hmin | hmin
  · rcases min_choice (max 0 (s.borrow - pos.adjAt k / plan.recoveryHf))
      s.remainingBuffer with hmin' | hmin'
    · exact absurd (hmin.trans hmin') hneed.ne
    · exact (hmin.trans hmin').ge
  · exact absurd hmin hdebt

/-- A step that leaves the account under 1 leaves no buffer. -/
theorem guardStep_under {pos : Position K} {plan : GuardPlan K}
    {s s' : GuardState K} {k : K} {step : Nat}
    (htrigger : 1 ≤ plan.triggerHf) (hrecovery : 1 ≤ plan.recoveryHf)
    (h : guardStep pos plan s (k, step) = .ok s')
    (hunder : pos.hfAt k s'.borrow < 1) : s'.remainingBuffer ≤ 0 := by
  have hrec : 0 < plan.recoveryHf := zero_lt_one.trans_le hrecovery
  obtain ⟨hpos, hadj⟩ := hfAt_lt_one_iff.1 hunder
  rcases guardStep_inv hrec.ne' h with ⟨-, -, rfl⟩ | ⟨rfl, hnodue⟩
  · -- repaid: not the debt, not enough, so all that was left
    change 0 < s.borrow - due pos plan s k at hpos
    change pos.adjAt k < s.borrow - due pos plan s k at hadj
    show s.remainingBuffer - due pos plan s k ≤ 0
    have hdebt : due pos plan s k ≠ s.borrow := by
      intro hall
      rw [hall, sub_self] at hpos
      exact lt_irrefl 0 hpos
    have hneed : due pos plan s k
        < max 0 (s.borrow - pos.adjAt k / plan.recoveryHf) := by
      apply lt_max_of_lt_right
      have hgoal : pos.adjAt k / plan.recoveryHf
          < s.borrow - due pos plan s k := by
        rw [div_lt_iff₀ hrec]
        exact hadj.trans_le (le_mul_of_one_le_right hpos.le hrecovery)
      linarith
    have hbuffer := buffer_le_due hneed hdebt
    linarith
  · -- not repaid: nothing was left to repay with
    by_contra hleft
    have hfires : fires plan s (pos.hfAt k s.borrow) = true := by
      refine fires_iff.2 ⟨?_, hpos, not_le.1 hleft⟩
      exact hunder.trans_le (WithTop.coe_le_coe.2 htrigger)
    have hneed : 0 < s.borrow - pos.adjAt k / plan.recoveryHf := by
      rw [sub_pos, div_lt_iff₀ hrec]
      exact hadj.trans_le (le_mul_of_one_le_right hpos.le hrecovery)
    apply not_lt.2 (hnodue hfires)
    exact lt_min (lt_min (lt_max_of_lt_right hneed) (not_le.1 hleft)) hpos

/-- The debt only falls. -/
theorem guardStep_borrow_le {pos : Position K} {plan : GuardPlan K}
    {s s' : GuardState K} {p : K × Nat}
    (h : guardStep pos plan s p = .ok s') : s'.borrow ≤ s.borrow := by
  obtain ⟨k, step⟩ := p
  rcases guardStep_cases h with rfl | ⟨x, hx, -, rfl⟩
  · exact le_refl s.borrow
  · exact sub_le_self s.borrow hx.le

end Steps

-- ============================================================ whole runs

/-- A run of the loop, stopped at the price of position `i`. -/
theorem run_at {pos : Position K} {plan : GuardPlan K} {path : List K}
    {s : GuardState K}
    (hrun : path.zipIdx.foldlM (guardStep pos plan) (GuardState.start pos plan)
      = .ok s) {i : Nat} {k : K} (hk : path[i]? = some k) :
    ∃ t t', arrival pos plan path i = .ok t
      ∧ guardStep pos plan t (k, i) = .ok t'
      ∧ arrival pos plan path (i + 1) = .ok t'
      ∧ (path.zipIdx.drop (i + 1)).foldlM (guardStep pos plan) t' = .ok s := by
  apply foldlM_at hrun
  rw [List.getElem?_zipIdx, hk]
  simp

/-- The budget holds after every run. -/
theorem run_budget {pos : Position K} {plan : GuardPlan K}
    {l : List (K × Nat)} {s s' : GuardState K} (hs : Budget pos plan s)
    (hrun : l.foldlM (guardStep pos plan) s = .ok s') : Budget pos plan s' :=
  foldlM_keeps (fun _ _ _ _ hs h => hs.step h) hs hrun

theorem run_spent {pos : Position K} {plan : GuardPlan K}
    {l : List (K × Nat)} {s s' : GuardState K}
    (hspent : s.remainingBuffer ≤ 0)
    (hrun : l.foldlM (guardStep pos plan) s = .ok s') :
    s'.borrow = s.borrow := by
  refine (foldlM_keeps (P := fun t : GuardState K =>
    t.remainingBuffer ≤ 0 ∧ t.borrow = s.borrow) ?_ ⟨hspent, rfl⟩ hrun).2
  intro t p t' _ h
  obtain ⟨ht, hborrow⟩ := h
  intro hstep
  obtain ⟨ht', hkept⟩ := guardStep_spent hstep ht
  exact ⟨ht', hkept.trans hborrow⟩

theorem run_minHf_le {pos : Position K} {plan : GuardPlan K}
    {l : List (K × Nat)} {s s' : GuardState K}
    (hrun : l.foldlM (guardStep pos plan) s = .ok s') :
    s'.minHf ≤ s.minHf := by
  refine foldlM_keeps (P := fun t : GuardState K => t.minHf ≤ s.minHf) ?_
    (le_refl _) hrun
  intro t p
  obtain ⟨k, step⟩ := p
  intro t' _ ht hstep
  rw [guardStep_minHf hstep]
  exact min_le_of_left_le ht

theorem run_borrow_le [IsStrictOrderedRing K] {pos : Position K}
    {plan : GuardPlan K} {l : List (K × Nat)} {s s' : GuardState K}
    (hrun : l.foldlM (guardStep pos plan) s = .ok s') :
    s'.borrow ≤ s.borrow := by
  refine foldlM_keeps (P := fun t : GuardState K => t.borrow ≤ s.borrow) ?_
    (le_refl _) hrun
  intro t p t' _ ht hstep
  exact (guardStep_borrow_le hstep).trans ht

/-- A guarded replay that returned, field by field. -/
theorem replayGuarded_of_run {pos : Position K} {plan : GuardPlan K}
    {path : List K} {s : GuardState K} (hpath : path ≠ [])
    (hrun : path.zipIdx.foldlM (guardStep pos plan) (GuardState.start pos plan)
      = .ok s) :
    ∃ g, replayGuarded pos path plan = .ok g
      ∧ g.liquidated = guardVerdict pos path s
      ∧ g.penaltyAvoidedUsd = (if guardVerdict pos path s then 0
          else (replayNoAction pos path).liquidationLossUsd)
      ∧ g.repaidUsd = s.repaid ∧ g.nRepays = s.nRepays ∧ g.gasUsd = s.gas
      ∧ g.actions = s.actions := by
  unfold replayGuarded
  rw [hrun, ok_bind, List.getLast?_eq_some_getLast hpath]
  exact ⟨_, rfl, rfl, rfl, rfl, rfl, rfl, rfl⟩

-- ========================================================== the verdict

/-- The code's verdict: the lowest factor seen and the one at the lowest
price are both below 1. -/
theorem guardVerdict_iff {pos : Position K} {path : List K} {m : K}
    (hm : path.min? = some m) (s : GuardState K) :
    guardVerdict pos path s = true
      ↔ s.minHf < 1 ∧ pos.hfAt m s.borrow < 1 := by
  unfold guardVerdict
  rw [hm, Bool.and_eq_true_iff, decide_eq_true_iff, decide_eq_true_iff]

/-- What the loop has seen by its end is at most what a step saw. -/
theorem minHf_le_at {pos : Position K} {plan : GuardPlan K} {path : List K}
    {s t : GuardState K} {i : Nat} {k : K}
    (hrun : path.zipIdx.foldlM (guardStep pos plan) (GuardState.start pos plan)
      = .ok s) (hk : path[i]? = some k)
    (ht : arrival pos plan path i = .ok t) : s.minHf ≤ pos.hfAt k t.borrow := by
  obtain ⟨t₁, t', ht₁, hstep, -, hrest⟩ := run_at hrun hk
  obtain rfl : t₁ = t := Except.ok.inj (ht₁.symm.trans ht)
  calc s.minHf ≤ t'.minHf := run_minHf_le hrest
    _ = min t₁.minHf (pos.hfAt k t₁.borrow) := guardStep_minHf hstep
    _ ≤ pos.hfAt k t₁.borrow := min_le_right _ _

/-- The step the unguarded account is liquidated at. -/
theorem noActionFrom_liqStep {pos : Position K} {path : List K} {step i : Nat}
    {m : WithTop K} (h : (noActionFrom pos step m path).liqStep = some i) :
    ∃ j k, i = step + j ∧ path[j]? = some k
      ∧ pos.hfAt k pos.borrowUsd < 1 := by
  induction path generalizing step m with
  | nil => cases h
  | cons k ks ih =>
      rw [noActionFrom] at h
      by_cases hk : pos.hfAt k pos.borrowUsd < 1
      · rw [if_pos hk] at h
        exact ⟨0, k, (Option.some.inj h).symm, rfl, hk⟩
      · rw [if_neg hk] at h
        obtain ⟨j, k', hj, hk', hunder⟩ := ih h
        exact ⟨j + 1, k', by omega, hk', hunder⟩

/-- While nothing has been repaid the debt is the one it began with. -/
theorem borrow_of_no_repay {pos : Position K} {plan : GuardPlan K}
    {path : List K} {i : Nat} {t : GuardState K}
    (ht : arrival pos plan path i = .ok t) (hnone : t.nRepays = 0) :
    t.borrow = pos.borrowUsd := by
  refine foldlM_keeps (P := fun t : GuardState K =>
    t.nRepays = 0 → t.borrow = pos.borrowUsd) ?_ (fun _ => rfl) ht hnone
  intro t p
  obtain ⟨k, step⟩ := p
  intro t' _ hkeep hstep hzero
  rcases guardStep_cases hstep with rfl | ⟨x, -, -, rfl⟩
  · exact hkeep hzero
  · exact absurd hzero (Nat.succ_ne_zero t.nRepays)

section Verdict

variable [IsStrictOrderedRing K]

/-- Under 1 after its own repayment, the account keeps that debt. -/
theorem final_of_under {pos : Position K} {plan : GuardPlan K}
    {path : List K} {s t : GuardState K} {i : Nat} {k : K}
    (htrigger : 1 ≤ plan.triggerHf) (hrecovery : 1 ≤ plan.recoveryHf)
    (hrun : path.zipIdx.foldlM (guardStep pos plan) (GuardState.start pos plan)
      = .ok s) (hk : path[i]? = some k)
    (ht : arrival pos plan path (i + 1) = .ok t)
    (hunder : pos.hfAt k t.borrow < 1) :
    t.remainingBuffer ≤ 0 ∧ s.borrow = t.borrow := by
  obtain ⟨t₀, t', -, hstep, ht', hrest⟩ := run_at hrun hk
  obtain rfl : t' = t := Except.ok.inj (ht'.symm.trans ht)
  have hspent : t'.remainingBuffer ≤ 0 :=
    guardStep_under htrigger hrecovery hstep hunder
  exact ⟨hspent, run_spent hspent hrest⟩

/-- At some step of the path the account is under 1 after that step's
repayment. -/
def UnderAfterRepaying (pos : Position K) (plan : GuardPlan K)
    (path : List K) : Prop :=
  ∃ i k t, path[i]? = some k ∧ arrival pos plan path (i + 1) = .ok t
    ∧ pos.hfAt k t.borrow < 1

/-- It is liquidated exactly when it is under after repaying somewhere. -/
theorem verdict_iff_under {pos : Position K} {plan : GuardPlan K}
    {path : List K} {s : GuardState K} (hvol : 0 ≤ pos.volatileAdjUsd)
    (htrigger : 1 ≤ plan.triggerHf) (hrecovery : 1 ≤ plan.recoveryHf)
    (hpath : path ≠ [])
    (hrun : path.zipIdx.foldlM (guardStep pos plan) (GuardState.start pos plan)
      = .ok s) :
    guardVerdict pos path s = true ↔ UnderAfterRepaying pos plan path := by
  obtain ⟨m, hm⟩ := Option.isSome_iff_exists.1 (List.isSome_min?_of_ne_nil hpath)
  obtain ⟨hmem, hlow⟩ := List.min?_eq_some_iff.1 hm
  rw [guardVerdict_iff hm]
  constructor
  · -- the final debt is too much at the lowest ratio, so the debt there was
    intro h
    obtain ⟨-, hlowest⟩ := h
    obtain ⟨i, hi⟩ := List.getElem?_of_mem hmem
    obtain ⟨t, t', -, -, ht', hrest⟩ := run_at hrun hi
    exact ⟨i, m, t', hi, ht', hfAt_lt_one_of_le (run_borrow_le hrest) hlowest⟩
  · intro h
    obtain ⟨i, k, t, hk, ht, hunder⟩ := h
    obtain ⟨-, hfinal⟩ :=
      final_of_under htrigger hrecovery hrun hk ht hunder
    obtain ⟨t₀, t', ht₀, hstep, ht', -⟩ := run_at hrun hk
    obtain rfl : t' = t := Except.ok.inj (ht'.symm.trans ht)
    constructor
    · -- and before it repaid the account was no better
      apply (minHf_le_at hrun hk ht₀).trans_lt
      exact hfAt_lt_one_of_le (guardStep_borrow_le hstep) hunder
    · rw [hfinal]
      obtain ⟨hpos, hadj⟩ := hfAt_lt_one_iff.1 hunder
      have hkm : m ≤ k := hlow k (List.mem_of_getElem? hk)
      exact hfAt_lt_one_iff.2 ⟨hpos, (adjAt_mono hvol hkm).trans_lt hadj⟩

/-- A survived replay is one in which every step left the account at 1 or
above, and only a repayment by the step at which the unguarded account is
liquidated can save it. -/
theorem survived_iff_covered {pos : Position K} {plan : GuardPlan K}
    {path : List K} (hvol : 0 ≤ pos.volatileAdjUsd)
    (htrigger : 1 ≤ plan.triggerHf) (hrecovery : 1 ≤ plan.recoveryHf)
    (hpath : path ≠ []) :
    ∃ g, replayGuarded pos path plan = .ok g
      ∧ (g.liquidated = false →
          g.penaltyAvoidedUsd
            = (replayNoAction pos path).liquidationLossUsd)
      ∧ (g.liquidated = false ↔
          ∀ i k, path[i]? = some k →
            ∃ t, arrival pos plan path (i + 1) = .ok t
              ∧ 1 ≤ pos.hfAt k t.borrow)
      ∧ (∀ i t, (replayNoAction pos path).liqStep = some i →
          arrival pos plan path (i + 1) = .ok t → t.nRepays = 0 →
          g.liquidated = true) := by
  have hrec : plan.recoveryHf ≠ 0 := (zero_lt_one.trans_le hrecovery).ne'
  obtain ⟨s, hrun⟩ :=
    run_total hrec path.zipIdx (GuardState.start pos plan)
  obtain ⟨g, hg, hliq, hpen, -⟩ := replayGuarded_of_run hpath hrun
  have hiff : g.liquidated = true ↔ UnderAfterRepaying pos plan path := by
    rw [hliq]
    exact verdict_iff_under hvol htrigger hrecovery hpath hrun
  refine ⟨g, hg, ?_, ?_, ?_⟩
  · intro hsafe
    rw [hpen, ← hliq, hsafe]
    rfl
  · rw [← Bool.not_eq_true, hiff]
    constructor
    · intro hsafe i k hk
      obtain ⟨t, t', -, -, ht', -⟩ := run_at hrun hk
      refine ⟨t', ht', not_lt.1 fun hunder => ?_⟩
      exact hsafe ⟨i, k, t', hk, ht', hunder⟩
    · intro hall h
      obtain ⟨i, k, t, hk, ht, hunder⟩ := h
      obtain ⟨t', ht', hsafe⟩ := hall i k hk
      obtain rfl : t' = t := Except.ok.inj (ht'.symm.trans ht)
      exact hsafe.not_gt hunder
  · intro i t hstep ht hnone
    obtain ⟨j, k, hj, hk, hunder⟩ := noActionFrom_liqStep hstep
    obtain rfl : i = j := by omega
    rw [← borrow_of_no_repay ht hnone] at hunder
    exact hiff.2 ⟨i, k, t, hk, ht, hunder⟩

end Verdict

/-- An account at 1.38 whose collateral is mostly volatile. -/
def gapPosition : Position ℚ where
  borrowUsd := 3000
  volatileAdjUsd := 4000
  stableAdjUsd := 150
  closeFactor := 1 / 2
  liquidationIncentive := 11 / 10

def gapPlan : GuardPlan ℚ where
  triggerHf := 23 / 20
  recoveryHf := 5 / 4
  bufferUsd := 2000
  gasUsdPerRepay := 1 / 20

/-- Replays that survive with the account under 1 after the first step's
repayment: a trigger below 1, a recovery target below 1, collateral that
counts against the account. -/
def offReplays : List (Position ℚ × GuardPlan ℚ × List ℚ) :=
  [(⟨4 / 5, 1, 0, 1 / 2, 11 / 10⟩, ⟨3 / 5, 1, 1, 0⟩, [7 / 10, 2 / 5]),
   (⟨4 / 5, 1, 0, 1 / 2, 11 / 10⟩, ⟨1, 1 / 2, 1, 0⟩, [3 / 5, 0]),
   (⟨3 / 5, -1, 2, 1 / 2, 11 / 10⟩, ⟨1, 1, 0, 0⟩, [3 / 2, 1])]

/-- One candle takes the price from 1 to 0.6: the unguarded account is
liquidated there, the guarded one has repaid nothing before, is at 0.85
when the price arrives, and is counted as survived. Off the guard's own
plans and accounts, even the repaid health factor may be under 1. -/
theorem gap_counted_survived :
    (∃ g t, replayGuarded gapPosition [1, 3 / 5] gapPlan = .ok g
      ∧ arrival gapPosition gapPlan [1, 3 / 5] 1 = .ok t
      ∧ g.liquidated = false ∧ 0 < g.penaltyAvoidedUsd
      ∧ (replayNoAction gapPosition [1, 3 / 5]).liqStep = some 1
      ∧ t.nRepays = 0 ∧ gapPosition.hfAt (3 / 5) t.borrow < 1)
    ∧ ∀ c ∈ offReplays, ∃ g t, replayGuarded c.1 c.2.2 c.2.1 = .ok g
        ∧ arrival c.1 c.2.1 c.2.2 1 = .ok t
        ∧ g.liquidated = false ∧ c.1.hfAt (c.2.2.headD 0) t.borrow < 1 := by
  constructor
  · obtain ⟨g, hg, hfacts⟩ := exists_of_okAnd
      (x := replayGuarded gapPosition [1, 3 / 5] gapPlan)
      (p := fun g => okAnd (arrival gapPosition gapPlan [1, 3 / 5] 1) fun t =>
        decide (g.liquidated = false ∧ 0 < g.penaltyAvoidedUsd
          ∧ (replayNoAction gapPosition [1, 3 / 5]).liqStep = some 1
          ∧ t.nRepays = 0 ∧ gapPosition.hfAt (3 / 5) t.borrow < 1))
      (by decide +kernel)
    obtain ⟨t, ht, hfacts⟩ := exists_of_okAnd hfacts
    exact ⟨g, t, hg, ht, of_decide_eq_true hfacts⟩
  · have hall : ∀ c ∈ offReplays,
        okAnd (replayGuarded c.1 c.2.2 c.2.1) (fun g =>
          okAnd (arrival c.1 c.2.1 c.2.2 1) fun t =>
            decide (g.liquidated = false
              ∧ c.1.hfAt (c.2.2.headD 0) t.borrow < 1)) = true := by
      decide +kernel
    intro c hc
    obtain ⟨g, hg, hfacts⟩ := exists_of_okAnd (hall c hc)
    obtain ⟨t, ht, hfacts⟩ := exists_of_okAnd hfacts
    exact ⟨g, t, hg, ht, of_decide_eq_true hfacts⟩

theorem gapPlan_guardable : Guardable gapPosition gapPlan where
  stable := by decide +kernel
  volatile := by decide +kernel
  borrow := by decide +kernel
  buffer := by decide +kernel
  trigger := by decide +kernel
  recovery := by decide +kernel

/-- On that gap the step itself leaves the account at 1 or above. -/
theorem survived_iff_covered_gap :
    ∃ g t, replayGuarded gapPosition [1, 3 / 5] gapPlan = .ok g
      ∧ g.liquidated = false
      ∧ arrival gapPosition gapPlan [1, 3 / 5] 2 = .ok t
      ∧ 1 ≤ gapPosition.hfAt (3 / 5) t.borrow := by
  obtain ⟨g, hg, -, hiff, -⟩ :=
    survived_iff_covered gapPlan_guardable.volatile
      gapPlan_guardable.trigger (by decide +kernel)
      (List.cons_ne_nil 1 [3 / 5])
  have hsafe : g.liquidated = false := by
    obtain ⟨g', hg', hfacts⟩ := exists_of_okAnd
      (x := replayGuarded gapPosition [1, 3 / 5] gapPlan)
      (p := fun g => g.liquidated == false) (by decide +kernel)
    obtain rfl : g = g' := Except.ok.inj (hg.symm.trans hg')
    exact beq_iff_eq.1 hfacts
  obtain ⟨t, ht, hcovered⟩ := hiff.1 hsafe 1 (3 / 5) rfl
  exact ⟨g, t, hg, hsafe, ht, hcovered⟩

-- ========================================================= the closed form

/-- Neither the buffer nor the debt is overdrawn. -/
def Solvent (s : GuardState K) : Prop :=
  0 ≤ s.remainingBuffer ∧ 0 ≤ s.borrow

theorem Guardable.one_le_recovery {pos : Position K} {plan : GuardPlan K}
    (h : Guardable pos plan) : 1 ≤ plan.recoveryHf :=
  h.trigger.trans h.recovery

/-- The budget holds on arrival at a step. -/
theorem arrival_budget {pos : Position K} {plan : GuardPlan K}
    {path : List K} {i : Nat} {t : GuardState K}
    (ht : arrival pos plan path i = .ok t) : Budget pos plan t :=
  run_budget (Budget.start pos plan) ht

/-- The state after the last price is the loop's result. -/
theorem arrival_length (pos : Position K) (plan : GuardPlan K)
    (path : List K) :
    arrival pos plan path path.length
      = path.zipIdx.foldlM (guardStep pos plan) (GuardState.start pos plan) := by
  unfold arrival
  rw [List.take_of_length_le (by rw [List.length_zipIdx])]

section Closed

variable [IsStrictOrderedRing K]

/-- The recovery target is positive, -/
theorem Guardable.recovery_pos {pos : Position K} {plan : GuardPlan K}
    (h : Guardable pos plan) : 0 < plan.recoveryHf :=
  zero_lt_one.trans_le h.one_le_recovery

/-- the collateral is not negative, -/
theorem Guardable.adjAt_nonneg {pos : Position K} {plan : GuardPlan K}
    (h : Guardable pos plan) {k : K} (hk : 0 ≤ k) : 0 ≤ pos.adjAt k :=
  add_nonneg h.stable (mul_nonneg h.volatile hk)

/-- and a step leaves a solvent guard solvent, -/
theorem guardStep_solvent {pos : Position K} {plan : GuardPlan K}
    {s s' : GuardState K} {p : K × Nat} (hrec : plan.recoveryHf ≠ 0)
    (h : guardStep pos plan s p = .ok s') (hs : Solvent s) : Solvent s' := by
  obtain ⟨k, step⟩ := p
  rcases guardStep_inv hrec h with ⟨-, -, rfl⟩ | ⟨rfl, -⟩
  · constructor
    · show 0 ≤ s.remainingBuffer - due pos plan s k
      exact sub_nonneg.2 ((min_le_left _ _).trans (min_le_right _ _))
    · show 0 ≤ s.borrow - due pos plan s k
      exact sub_nonneg.2 (min_le_right _ _)
  · exact hs

/-- so it arrives solvent. -/
theorem arrival_solvent {pos : Position K} {plan : GuardPlan K}
    {path : List K} {i : Nat} {t : GuardState K} (h : Guardable pos plan)
    (ht : arrival pos plan path i = .ok t) : Solvent t :=
  foldlM_keeps (P := Solvent)
    (fun _ _ _ _ hs hstep => guardStep_solvent h.recovery_pos.ne' hstep hs)
    ⟨h.buffer, h.borrow.le⟩ ht

/-- It is liquidated exactly when at the lowest price the whole buffer leaves
a debt above the collateral. -/
theorem verdict_iff_lowest {pos : Position K} {plan : GuardPlan K}
    {path : List K} {s : GuardState K} {m : K} (h : Guardable pos plan)
    (hratio : ∀ k ∈ path, 0 ≤ k) (hm : path.min? = some m)
    (hrun : path.zipIdx.foldlM (guardStep pos plan) (GuardState.start pos plan)
      = .ok s) :
    guardVerdict pos path s = true
      ↔ pos.adjAt m < pos.borrowUsd - plan.bufferUsd := by
  have hmem : m ∈ path := (List.min?_eq_some_iff.1 hm).1
  have hpath : path ≠ [] := List.ne_nil_of_mem hmem
  have hs : Solvent s := by
    rw [← arrival_length] at hrun
    exact arrival_solvent h hrun
  constructor
  · intro hliq
    -- liquidated, so at some step the buffer had run out
    obtain ⟨i, k, t, hk, ht, hunder⟩ :=
      (verdict_iff_under h.volatile h.trigger h.one_le_recovery hpath hrun).1
        hliq
    obtain ⟨hempty, hfinal⟩ :=
      final_of_under h.trigger h.one_le_recovery hrun hk ht hunder
    have hzero : t.remainingBuffer = 0 :=
      le_antisymm hempty (arrival_solvent h ht).1
    have hdebt : s.borrow = pos.borrowUsd - plan.bufferUsd := by
      have hspent := (arrival_budget ht).spent
      rw [hzero, sub_zero] at hspent
      rw [hfinal]
      linarith
    rw [← hdebt]
    exact (hfAt_lt_one_iff.1 ((guardVerdict_iff hm s).1 hliq).2).2
  · intro hlow
    have hadj : 0 ≤ pos.adjAt m := h.adjAt_nonneg (hratio m hmem)
    -- the debt never falls below what the buffer cannot reach
    have hunder : ∀ b, pos.borrowUsd - plan.bufferUsd ≤ b →
        pos.hfAt m b < 1 := by
      intro b hb
      have hlt : pos.adjAt m < b := hlow.trans_le hb
      exact hfAt_lt_one_iff.2 ⟨hadj.trans_lt hlt, hlt⟩
    rw [guardVerdict_iff hm]
    constructor
    · obtain ⟨i, hi⟩ := List.getElem?_of_mem hmem
      obtain ⟨t, -, ht, -⟩ := run_at hrun hi
      apply (minHf_le_at hrun hi ht).trans_lt
      apply hunder
      linarith [(arrival_budget ht).spent, (arrival_solvent h ht).1]
    · apply hunder
      linarith [(run_budget (Budget.start pos plan) hrun).spent, hs.1]

/-- The guard's outcome: liquidated exactly when the collateral at the
path's lowest ratio is below what of the debt the buffer cannot repay. -/
theorem liquidated_iff_lowest {pos : Position K} {plan : GuardPlan K}
    {path : List K} (h : Guardable pos plan) (hpath : path ≠ [])
    (hratio : ∀ k ∈ path, 0 ≤ k) :
    ∃ g m, replayGuarded pos path plan = .ok g ∧ path.min? = some m
      ∧ (g.liquidated = true
          ↔ pos.adjAt m < pos.borrowUsd - plan.bufferUsd)
      ∧ (g.liquidated = true ↔ UnderAfterRepaying pos plan path)
      ∧ (∀ plan' path', Guardable pos plan' → (∀ k ∈ path', 0 ≤ k) →
          path'.min? = some m → plan'.bufferUsd = plan.bufferUsd →
          ∃ g', replayGuarded pos path' plan' = .ok g'
            ∧ g'.liquidated = g.liquidated)
      ∧ (∀ plan', Guardable pos plan' → plan.bufferUsd ≤ plan'.bufferUsd →
          ∃ g', replayGuarded pos path plan' = .ok g'
            ∧ (g.liquidated = false → g'.liquidated = false)) := by
  obtain ⟨m, hm⟩ := Option.isSome_iff_exists.1 (List.isSome_min?_of_ne_nil hpath)
  -- the closed form, of any plan and any path that could take its place
  have hclosed : ∀ plan' path', Guardable pos plan' → (∀ k ∈ path', 0 ≤ k) →
      path'.min? = some m →
      ∃ g', replayGuarded pos path' plan' = .ok g'
        ∧ (g'.liquidated = true
            ↔ pos.adjAt m < pos.borrowUsd - plan'.bufferUsd)
        ∧ (g'.liquidated = true ↔ UnderAfterRepaying pos plan' path') := by
    intro plan' path' h' hratio' hm'
    have hpath' : path' ≠ [] :=
      List.ne_nil_of_mem (List.min?_eq_some_iff.1 hm').1
    obtain ⟨s', hrun'⟩ := run_total h'.recovery_pos.ne' path'.zipIdx
      (GuardState.start pos plan')
    obtain ⟨g', hg', hliq', -⟩ := replayGuarded_of_run hpath' hrun'
    refine ⟨g', hg', ?_, ?_⟩
    · rw [hliq']
      exact verdict_iff_lowest h' hratio' hm' hrun'
    · rw [hliq']
      exact verdict_iff_under h'.volatile h'.trigger h'.one_le_recovery hpath'
        hrun'
  obtain ⟨g, hg, hlow, hunder⟩ := hclosed plan path h hratio hm
  refine ⟨g, m, hg, hm, hlow, hunder, ?_, ?_⟩
  · intro plan' path' h' hratio' hm' hbuffer
    obtain ⟨g', hg', hlow', -⟩ := hclosed plan' path' h' hratio' hm'
    refine ⟨g', hg', ?_⟩
    rw [Bool.eq_iff_iff, hlow', hlow, hbuffer]
  · intro plan' h' hbuffer
    obtain ⟨g', hg', hlow', -⟩ := hclosed plan' path h' hratio hm
    refine ⟨g', hg', ?_⟩
    rw [← Bool.not_eq_true, ← Bool.not_eq_true, hlow, hlow']
    intro hsafe hliq
    apply hsafe
    linarith

-- ========================================================== the repayments

/-- On the gap path 2550 of collateral covers the 1000 the buffer leaves. -/
theorem liquidated_iff_lowest_gap :
    ∃ g, replayGuarded gapPosition [1, 3 / 5] gapPlan = .ok g
      ∧ g.liquidated = false := by
  obtain ⟨g, m, hg, hm, hlow, -⟩ :=
    liquidated_iff_lowest gapPlan_guardable
      (List.cons_ne_nil 1 [3 / 5]) (by decide +kernel)
  have hm' : ([1, 3 / 5] : List ℚ).min? = some (3 / 5) := by decide +kernel
  obtain rfl : m = 3 / 5 := Option.some.inj (hm.symm.trans hm')
  refine ⟨g, hg, ?_⟩
  rw [← Bool.not_eq_true, hlow]
  decide +kernel

/-- The least repayment that restores the recovery target. -/
theorem least_repayment {pos : Position K} {plan : GuardPlan K} {k : K}
    (h : Guardable pos plan) (hk : 0 ≤ k) (b : K) :
    IsLeast {x | (plan.recoveryHf : WithTop K) ≤ pos.hfAt k (b - x)}
      (b - pos.adjAt k / plan.recoveryHf) := by
  constructor
  · show (plan.recoveryHf : WithTop K)
      ≤ pos.hfAt k (b - (b - pos.adjAt k / plan.recoveryHf))
    rw [sub_sub_cancel, le_hfAt_iff, mul_div_cancel₀ _ h.recovery_pos.ne']
    exact Or.inr (le_refl _)
  · intro x hx
    rcases le_hfAt_iff.1 hx with hall | henough
    · have hgoal : 0 ≤ pos.adjAt k / plan.recoveryHf :=
        div_nonneg (h.adjAt_nonneg hk) h.recovery_pos.le
      linarith
    · have hgoal : b - x ≤ pos.adjAt k / plan.recoveryHf := by
        rw [le_div_iff₀ h.recovery_pos]
        linarith
      linarith

/-- What a firing step repays: the least repayment, as far as the buffer
reaches. -/
theorem due_eq {pos : Position K} {plan : GuardPlan K} {s : GuardState K}
    {k : K} (h : Guardable pos plan) (hk : 0 ≤ k)
    (hlow : pos.hfAt k s.borrow < (plan.triggerHf : WithTop K)) :
    0 < s.borrow - pos.adjAt k / plan.recoveryHf
      ∧ due pos plan s k
        = min (s.borrow - pos.adjAt k / plan.recoveryHf)
            s.remainingBuffer := by
  have hbelow : pos.hfAt k s.borrow < (plan.recoveryHf : WithTop K) :=
    hlow.trans_le (WithTop.coe_le_coe.2 h.recovery)
  obtain ⟨-, hadj⟩ := hfAt_lt_iff.1 hbelow
  have hneed : 0 < s.borrow - pos.adjAt k / plan.recoveryHf := by
    rw [sub_pos, div_lt_iff₀ h.recovery_pos]
    linarith
  refine ⟨hneed, ?_⟩
  unfold due
  rw [max_eq_right hneed.le, min_eq_left]
  -- no more than the debt is ever needed
  apply min_le_of_left_le
  exact sub_le_self _ (div_nonneg (h.adjAt_nonneg hk) h.recovery_pos.le)

/-- A step below the trigger repays the least sufficient amount, or all
that is left of the buffer. -/
theorem guardStep_below {pos : Position K} {plan : GuardPlan K}
    {s s' : GuardState K} {k : K} {step : Nat} (h : Guardable pos plan)
    (hk : 0 ≤ k) (hs : Solvent s)
    (hlow : pos.hfAt k s.borrow < (plan.triggerHf : WithTop K))
    (hstep : guardStep pos plan s (k, step) = .ok s') :
    s.borrow - s'.borrow
        = min (s.borrow - pos.adjAt k / plan.recoveryHf) s.remainingBuffer
      ∧ s'.actions = s.actions ++
          (if 0 < s.remainingBuffer then
            [⟨step, pos.hfAt k s.borrow, s.borrow - s'.borrow,
              pos.hfAt k s'.borrow⟩]
          else []) := by
  obtain ⟨hneed, hdue⟩ := due_eq h hk hlow
  rcases guardStep_inv h.recovery_pos.ne' hstep with
    ⟨hfires, -, rfl⟩ | ⟨rfl, hnodue⟩
  · have hamount : s.borrow - (s.borrow - due pos plan s k)
        = due pos plan s k := sub_sub_cancel _ _
    rw [if_pos (fires_iff.1 hfires).2.2]
    constructor
    · exact hamount.trans hdue
    · show s.actions ++ [⟨step, pos.hfAt k s.borrow, due pos plan s k,
          pos.hfAt k (s.borrow - due pos plan s k)⟩]
        = s.actions ++ [⟨step, pos.hfAt k s.borrow,
          s.borrow - (s.borrow - due pos plan s k),
          pos.hfAt k (s.borrow - due pos plan s k)⟩]
      rw [hamount]
  · -- below the trigger with a debt: only an empty buffer stops it
    have hempty : s.remainingBuffer = 0 := by
      apply le_antisymm _ hs.1
      by_contra hleft
      have hpos : 0 < s.remainingBuffer := not_le.1 hleft
      have hfires : fires plan s (pos.hfAt k s.borrow) = true :=
        fires_iff.2 ⟨hlow, (hfAt_lt_iff.1 hlow).1, hpos⟩
      apply not_lt.2 (hnodue hfires)
      rw [hdue]
      exact lt_min hneed hpos
    rw [hempty, if_neg (lt_irrefl 0), min_eq_right hneed.le, List.append_nil]
    exact ⟨sub_self s.borrow, rfl⟩

omit [IsStrictOrderedRing K] in
/-- A step at or above the trigger repays nothing. -/
theorem guardStep_above {pos : Position K} {plan : GuardPlan K}
    {s s' : GuardState K} {k : K} {step : Nat}
    (hhigh : (plan.triggerHf : WithTop K) ≤ pos.hfAt k s.borrow)
    (hstep : guardStep pos plan s (k, step) = .ok s') :
    s'.borrow = s.borrow ∧ s'.actions = s.actions := by
  rcases guardStep_cases hstep with rfl | ⟨x, -, hfires, -⟩
  · exact ⟨rfl, rfl⟩
  · exact absurd (fires_iff.1 hfires).1 hhigh.not_gt

/-- Every repayment of a guarded replay, and the account they add up
to. -/
theorem repays_least {pos : Position K} {plan : GuardPlan K} {path : List K}
    (h : Guardable pos plan) (hpath : path ≠ [])
    (hratio : ∀ k ∈ path, 0 ≤ k) :
    (∀ i k, path[i]? = some k →
      ∃ t t' least, arrival pos plan path i = .ok t
        ∧ arrival pos plan path (i + 1) = .ok t'
        ∧ t.remainingBuffer = plan.bufferUsd - (pos.borrowUsd - t.borrow)
        ∧ IsLeast {x | (plan.recoveryHf : WithTop K)
            ≤ pos.hfAt k (t.borrow - x)} least
        ∧ ((plan.triggerHf : WithTop K) ≤ pos.hfAt k t.borrow →
            t'.borrow = t.borrow ∧ t'.actions = t.actions)
        ∧ (pos.hfAt k t.borrow < (plan.triggerHf : WithTop K) →
            0 < least
              ∧ (least ≤ t.remainingBuffer → t.borrow - t'.borrow = least)
              ∧ (t.remainingBuffer < least →
                  t.borrow - t'.borrow = t.remainingBuffer)
              ∧ t'.actions = t.actions ++
                  (if 0 < t.remainingBuffer then
                    [⟨i, pos.hfAt k t.borrow, t.borrow - t'.borrow,
                      pos.hfAt k t'.borrow⟩]
                  else []))
        ∧ t'.borrow ≤ t.borrow ∧ 0 ≤ t'.borrow)
      ∧ ∃ g s, replayGuarded pos path plan = .ok g
        ∧ arrival pos plan path path.length = .ok s
        ∧ g.repaidUsd = pos.borrowUsd - s.borrow
        ∧ g.repaidUsd ≤ plan.bufferUsd
        ∧ g.gasUsd = plan.gasUsdPerRepay * g.nRepays
        ∧ g.nRepays = g.actions.length ∧ g.actions = s.actions := by
  obtain ⟨s, hrun⟩ :=
    run_total h.recovery_pos.ne' path.zipIdx (GuardState.start pos plan)
  constructor
  · intro i k hk
    obtain ⟨t, t', ht, hstep, ht', -⟩ := run_at hrun hk
    have hk0 : 0 ≤ k := hratio k (List.mem_of_getElem? hk)
    have hleast := least_repayment h hk0 t.borrow
    refine ⟨t, t', _, ht, ht', ?_, hleast, ?_, ?_, guardStep_borrow_le hstep,
      (arrival_solvent h ht').2⟩
    · linarith [(arrival_budget ht).spent]
    · exact fun hhigh => guardStep_above hhigh hstep
    · intro hlow
      obtain ⟨hamount, hlog⟩ :=
        guardStep_below h hk0 (arrival_solvent h ht) hlow hstep
      refine ⟨(due_eq h hk0 hlow).1, ?_, ?_, hlog⟩
      · intro hreach
        rw [hamount, min_eq_left hreach]
      · intro hshort
        rw [hamount, min_eq_right hshort.le]
  · obtain ⟨g, hg, -, -, hrepaid, hn, hgas, hactions⟩ :=
      replayGuarded_of_run hpath hrun
    have hs : arrival pos plan path path.length = .ok s := by
      rw [arrival_length]
      exact hrun
    have hbudget := arrival_budget hs
    refine ⟨g, s, hg, hs, ?_, ?_, ?_, ?_, hactions⟩
    · rw [hrepaid, hbudget.repaid]
    · rw [hrepaid, hbudget.repaid]
      linarith [hbudget.spent, (arrival_solvent h hs).1]
    · rw [hgas, hn, hbudget.gas]
    · rw [hn, hactions, hbudget.logged]

/-- The gap's one repayment: 960, from the buffer of 2000. -/
theorem repays_least_gap :
    ∃ g t t', replayGuarded gapPosition [1, 3 / 5] gapPlan = .ok g
      ∧ arrival gapPosition gapPlan [1, 3 / 5] 1 = .ok t
      ∧ arrival gapPosition gapPlan [1, 3 / 5] 2 = .ok t'
      ∧ IsLeast {x | (gapPlan.recoveryHf : WithTop ℚ)
          ≤ gapPosition.hfAt (3 / 5) (t.borrow - x)} (t.borrow - t'.borrow)
      ∧ g.nRepays = g.actions.length := by
  obtain ⟨hsteps, g, s, hg, -, -, -, -, hn, -⟩ :=
    repays_least gapPlan_guardable (List.cons_ne_nil 1 [3 / 5])
      (by decide +kernel)
  obtain ⟨t, t', least, ht, ht', hleft, hleast, -, hbelow, -⟩ :=
    hsteps 1 (3 / 5) rfl
  obtain ⟨t₁, ht₁, hfacts⟩ := exists_of_okAnd
    (x := arrival gapPosition gapPlan [1, 3 / 5] 1)
    (p := fun t => decide (t.borrow = 3000)) (by decide +kernel)
  obtain rfl : t = t₁ := Except.ok.inj (ht.symm.trans ht₁)
  have hborrow : t.borrow = 3000 := of_decide_eq_true hfacts
  have hlow : gapPosition.hfAt (3 / 5) t.borrow
      < (gapPlan.triggerHf : WithTop ℚ) := by
    rw [hborrow]
    decide +kernel
  have hreach : least ≤ t.remainingBuffer := by
    have hamount : least = 960 := by
      apply hleast.unique
      rw [hborrow]
      exact (show (3000 : ℚ) - gapPosition.adjAt (3 / 5) / gapPlan.recoveryHf
        = 960 by decide +kernel) ▸
          least_repayment gapPlan_guardable (by decide +kernel) 3000
    rw [hleft, hborrow, hamount]
    decide +kernel
  refine ⟨g, t, t', hg, ht, ht', ?_, hn⟩
  rw [(hbelow hlow).2.1 hreach]
  exact hleast

end Closed

end VenusGuard

end Proofstand
