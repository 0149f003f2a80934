/-
The number venus-guard's receipt publishes.

The guarded replay's `usd_saved` already counts the avoided penalty, and
`baseline_no_action` counts the same penalty once more as a loss, so the
delta is the difference of the two losses plus the unguarded one
(`delta_eq`). It is that difference exactly when nothing would have been
lost.

# Where it comes from

`observe` replays the account with nobody acting and puts its loss into
the data; `act` replays it with the plan, and the agent reports what that
saved, which is the avoided penalty less gas. The baseline reads the loss
off the data and negates it. The harness subtracts, and the penalty of the
unguarded account is counted twice.

`Ready` is the state after `decide`, from which the rest of the run is
followed to its receipt (`conclude_of_ready`).
-/
import Proofstand.Agents.Proofs.Observe
import Proofstand.Agents.Proofs.Replay
import Proofstand.Orchestrator.Proofs.Harness

namespace Proofstand

namespace VenusGuard

open Fallible Harness

variable {K : Type} [Field K] [LinearOrder K]

-- =========================================================== the baseline

omit [Field K] in
/-- The code's comparison of floats, where the right side can be infinite. -/
theorem le_ofTop (x : K) (m : WithTop K) :
    PyFloat.le (.fin x) (PyFloat.ofTop m) = true ↔ (x : WithTop K) ≤ m := by
  cases m with
  | top => simp [PyFloat.ofTop, PyFloat.le, PyFloat.lt]
  | coe y =>
      simp [PyFloat.ofTop, PyFloat.le, PyFloat.lt, PyFloat.eq, le_iff_lt_or_eq]

/-- What the account loses when nobody acts. -/
def Data.unguardedLoss (d : Data K) : K :=
  (replayNoAction d.position d.ratioPath).liquidationLossUsd

/-- The no-action baseline is the unguarded loss, negated. -/
theorem noAction_of_replayed {d : Data K} (hd : d.Replayed)
    (m : Manifest K) :
    Baselines.noAction d.toVal m
      = .ok (m.result (-d.unguardedLoss)) := by
  obtain ⟨hmin, hloss⟩ := hd
  have hread : Baselines.noAction d.toVal m
      = if PyFloat.le (.fin 1) (PyFloat.ofTop d.minHf) then
          .ok (m.result 0)
        else .ok (m.result (-d.liquidationLossUsd)) := rfl
  rw [hread, hmin, hloss, Data.unguardedLoss]
  rcases noAction_cases d.position d.ratioPath with ⟨-, hzero, hge⟩ | ⟨-, -, hlt⟩
  · rw [if_pos ((le_ofTop 1 _).2 hge), hzero, neg_zero]
  · rw [if_neg fun hle => absurd ((le_ofTop 1 _).1 hle) (not_le.2 hlt)]

-- ============================================================== the delta

/-- The state a prepared run is in after `observe()` and `decide()`. -/
structure Ready (p : Prepared K (State K) (Data K) (Params K)) : Prop where
  kept : p.state.obsData = some p.data
  replayed : p.data.Replayed
  context : ∃ signer, ExecContext.forTier p.tier signer = .ok p.ctx

/-- Every run of venus-guard that reaches its decision is such a run. -/
theorem ready_of_prepare [FloorRing K] {sha : PyVal K → String}
    {a : VenusGuardAgent K} {lib : Libm K} {tier : Nat} {raw : Dict K}
    {signer : Option String} {w : World K}
    {p : Prepared K (State K) (Data K) (Params K)}
    (h : prepare sha (a.agent lib) tier raw signer w = .ok p) : Ready p := by
  obtain ⟨inputs, -, hobserve, -, hctx, htier, -, -⟩ := prepare_eq_ok h
  obtain ⟨hreplayed, hkept, -⟩ := observe_eq_ok hobserve
  exact ⟨hkept, hreplayed, ⟨signer, htier ▸ hctx⟩⟩

/-- `act()` keeps the guarded replay's result. -/
theorem act_of_ready {p : Prepared K (State K) (Data K) (Params K)}
    (hp : Ready p) {g : GuardedResult K}
    (hg : replayGuarded p.data.position p.data.ratioPath
      (VenusGuardAgent.planOf p.data p.decision.params) = .ok g) :
    ∃ state, VenusGuardAgent.act p.state p.decision p.ctx = .ok ({}, state)
      ∧ state.guarded = some g := by
  obtain ⟨signer, hctx⟩ := hp.context
  unfold VenusGuardAgent.act
  rw [hp.kept]
  simp only [hg, ok_bind]
  obtain ⟨htier, ⟨hlow, -⟩ | ⟨hhigh, hsigner⟩⟩ := forTier_cases hctx
  · rw [htier, if_pos hlow]
    exact ⟨_, rfl, rfl⟩
  · have hsign : p.ctx.requireSigner = .ok p.ctx.signer := by
      unfold ExecContext.requireSigner ExecContext.canSign
      simp [htier, hhigh, hsigner]
    rw [htier, if_neg (by omega), hsign]
    exact ⟨_, rfl, rfl⟩

/-- What such a run publishes: the guard's savings and the unguarded
loss, added up. -/
theorem conclude_of_ready [FloorRing K] (sha : PyVal K → String)
    (lib : Libm K) (a : VenusGuardAgent K)
    {p : Prepared K (State K) (Data K) (Params K)} (hp : Ready p)
    {g : GuardedResult K}
    (hg : replayGuarded p.data.position p.data.ratioPath
      (VenusGuardAgent.planOf p.data p.decision.params) = .ok g)
    (w : World K) :
    ∃ out, conclude sha lib (a.agent lib) p w = .ok out
      ∧ out.delta = g.usdSaved + p.data.unguardedLoss
      ∧ (out.favorable = true → 0 < out.delta) := by
  obtain ⟨state, hact, hguarded⟩ := act_of_ready hp hg
  have hunsigned : ¬ (p.tier < 2 ∧ (({} : Actions).txHashes ≠ []
      ∨ p.ctx.signer.isSome = true)) := by
    obtain ⟨signer, hctx⟩ := hp.context
    obtain ⟨-, ⟨-, hnone⟩ | ⟨hhigh, -⟩⟩ := forTier_cases hctx
    · simp [hnone]
    · omega
  have hreport : VenusGuardAgent.report state
      = .ok (manifest.result g.usdSaved) := by
    unfold VenusGuardAgent.report
    rw [hguarded]
  have hbaseline : Baselines.runBaseline lib (manifest (K := K)).baseline
      p.data.toVal manifest w = Baselines.noAction p.data.toVal manifest := rfl
  unfold conclude
  simp only [VenusGuardAgent.agent, hact, ok_bind, if_neg hunsigned, hreport,
    settle, hbaseline, noAction_of_replayed hp.replayed]
  refine ⟨_, rfl, ?_, ?_⟩
  · exact sub_neg_eq_add _ _
  · intro hfav
    unfold favorable at hfav
    split at hfav
    · cases hfav
    · exact of_decide_eq_true hfav

/-- For every position, non-empty path, plan, buffer and gas price, the
delta is the difference between what the account loses without the guard
and with it, and no run that ends liquidated is favorable, exactly when
the path never takes the unguarded account under 1 or its liquidation
would cost nothing. -/
theorem delta_eq_loss_difference_iff [FloorRing K] [IsStrictOrderedRing K]
    (sha : PyVal K → String) (lib : Libm K) (a : VenusGuardAgent K)
    (p : Prepared K (State K) (Data K) (Params K)) (w : World K)
    (hp : Ready p) (hpath : p.data.ratioPath ≠ [])
    (htrigger : 1 ≤ p.decision.params.triggerHf)
    (hrecovery : p.decision.params.triggerHf
      ≤ p.decision.params.recoveryHf) :
    let pos := p.data.position
    ∃ g out, replayGuarded pos p.data.ratioPath
          (VenusGuardAgent.planOf p.data p.decision.params) = .ok g
      ∧ conclude sha lib (a.agent lib) p w = .ok out
      ∧ ((out.delta = p.data.unguardedLoss
              - ((if g.liquidated then p.data.unguardedLoss else 0)
                + g.gasUsd)
            ∧ (0 ≤ p.data.gasPerRepayUsd → g.liquidated = true
              → out.favorable = false))
          ↔ NeverUnder pos p.data.ratioPath
            ∨ pos.closeFactor * pos.borrowUsd
                * (pos.liquidationIncentive - 1) = 0) := by
  intro pos
  have hrec : p.decision.params.recoveryHf ≠ 0 := by
    have hone : (1 : K) ≤ p.decision.params.recoveryHf :=
      htrigger.trans hrecovery
    exact ne_of_gt (lt_of_lt_of_le one_pos hone)
  have hreturns : ∃ g, replayGuarded pos p.data.ratioPath
      (VenusGuardAgent.planOf p.data p.decision.params) = .ok g :=
    replayGuarded_total hpath hrec
  obtain ⟨g, hg⟩ := hreturns
  obtain ⟨out, hout, hdelta, hfavorable⟩ :=
    conclude_of_ready sha lib a hp hg w
  refine ⟨g, out, hg, hout, ?_⟩
  -- the penalty the guard's savings already count is counted once more
  obtain ⟨s, -, hliq, hgasUsd, hsaved⟩ := replayGuarded_eq_ok hg
  have hexcess : out.delta
      = p.data.unguardedLoss
          - ((if g.liquidated then p.data.unguardedLoss else 0) + g.gasUsd)
        + p.data.unguardedLoss := by
    rw [hdelta, hsaved, hgasUsd, hliq, Data.unguardedLoss]
    cases guardVerdict pos p.data.ratioPath s with
    | true =>
        simp only [if_true]
        ring
    | false =>
        simp only [Bool.false_eq_true, if_false]
        ring
  have hzero : p.data.unguardedLoss = 0 ↔ NeverUnder pos p.data.ratioPath
      ∨ pos.closeFactor * pos.borrowUsd
          * (pos.liquidationIncentive - 1) = 0 :=
    loss_eq_zero_iff pos p.data.ratioPath
  rw [← hzero]
  constructor
  · intro h
    obtain ⟨heq, -⟩ := h
    rw [hexcess] at heq
    exact add_eq_left.1 heq
  · intro hloss
    refine ⟨by rw [hexcess, hloss, add_zero], ?_⟩
    intro hgas _
    by_contra hfav
    have hpos : 0 < out.delta := hfavorable (by simpa using hfav)
    have hspent : 0 ≤ g.gasUsd := gas_nonneg hgas hg
    rw [hexcess, hloss] at hpos
    simp only [ite_self, zero_add, zero_sub, add_zero] at hpos
    exact absurd hpos (not_lt.2 (neg_nonpos.2 hspent))

-- ========================================================== two accounts

/-- Two days of flat candles and a last one at `low`; one account, 3000
of adjusted vBNB collateral against a debt of `borrow`. -/
def crashWorld (borrow low : ℚ) : World ℚ :=
  let candle := fun (price : ℚ) =>
    ({ openTimeMs := 0, openPrice := price, high := price, low := price,
       close := price, volume := 1 } : Kline ℚ)
  { World.offline with
    gasPriceWei := .ok 1000000000
    spotPrice := fun _ => .ok 600
    getKlines := fun _ _ _ =>
      .ok (List.replicate 47 (candle 1) ++ [candle low])
    accountHealth := fun _ => .ok
      { markets := [⟨"vBNB", 3 / 4, 4000⟩]
        totalSupplyUsd := 4000
        totalBorrowUsd := borrow
        collateralAdjustedUsd := 3000
        liquidityUsd := 0 }
    closeFactorMantissa := .ok (5 * 10 ^ 17) }

def guardInputs : Dict ℚ :=
  [("account", .str "0x00000000000000000000000000000000000000aa"),
   ("buffer_amount", .int 50)]

/-- A guard with no volatility term. -/
def plainGuard : VenusGuardAgent ℚ := ⟨0, 6, 365, 1 / 20⟩

/-- A fifth off the price: the guard repays its 50, the account is
liquidated all the same, and the receipt records the run as favorable. -/
theorem still_liquidated_favorable :
    ∃ p g out,
      prepare (fun _ => "") (plainGuard.agent ratMath) 1 guardInputs none
          (crashWorld 2700 (4 / 5)) = .ok p
      ∧ replayGuarded p.data.position p.data.ratioPath
          (VenusGuardAgent.planOf p.data p.decision.params) = .ok g
      ∧ conclude (fun _ => "") ratMath (plainGuard.agent ratMath) p
          (crashWorld 2700 (4 / 5)) = .ok out
      ∧ p.data.ratioPath ≠ [] ∧ 1 ≤ p.decision.params.triggerHf
      ∧ p.decision.params.triggerHf ≤ p.decision.params.recoveryHf
      ∧ g.liquidated = true ∧ out.favorable = true
      ∧ out.delta ≠ p.data.unguardedLoss
          - (p.data.unguardedLoss + g.gasUsd) := by
  obtain ⟨p, hp, hp'⟩ := exists_of_okAnd
    (x := prepare (fun _ => "") (plainGuard.agent ratMath) 1 guardInputs
      none (crashWorld 2700 (4 / 5)))
    (p := fun p => okAnd (replayGuarded p.data.position p.data.ratioPath
        (VenusGuardAgent.planOf p.data p.decision.params)) fun g =>
      okAnd (conclude (fun _ => "") ratMath (plainGuard.agent ratMath) p
          (crashWorld 2700 (4 / 5))) fun out =>
        decide (p.data.ratioPath ≠ [] ∧ 1 ≤ p.decision.params.triggerHf
          ∧ p.decision.params.triggerHf ≤ p.decision.params.recoveryHf
          ∧ g.liquidated = true ∧ out.favorable = true
          ∧ out.delta ≠ p.data.unguardedLoss
              - (p.data.unguardedLoss + g.gasUsd)))
    (by decide +kernel)
  obtain ⟨g, hg, hg'⟩ := exists_of_okAnd hp'
  obtain ⟨out, hout, hfacts⟩ := exists_of_okAnd hg'
  exact ⟨p, g, out, hp, hg, hout, of_decide_eq_true hfacts⟩

/-- The rule at a run the account survives on its own. -/
theorem delta_of_mild_decline :
    ∃ p, prepare (fun _ => "") (plainGuard.agent ratMath) 1 guardInputs
          none (crashWorld 2700 (19 / 20)) = .ok p
      ∧ NeverUnder p.data.position p.data.ratioPath
      ∧ ∃ g out, replayGuarded p.data.position p.data.ratioPath
            (VenusGuardAgent.planOf p.data p.decision.params) = .ok g
        ∧ conclude (fun _ => "") ratMath (plainGuard.agent ratMath) p
            (crashWorld 2700 (19 / 20)) = .ok out
        ∧ out.delta = p.data.unguardedLoss
            - ((if g.liquidated then p.data.unguardedLoss else 0)
              + g.gasUsd) := by
  obtain ⟨p, hp, hfacts⟩ := exists_of_okAnd
    (x := prepare (fun _ => "") (plainGuard.agent ratMath) 1 guardInputs
      none (crashWorld 2700 (19 / 20)))
    (p := fun p => decide (p.data.ratioPath ≠ []
      ∧ 1 ≤ p.decision.params.triggerHf
      ∧ p.decision.params.triggerHf ≤ p.decision.params.recoveryHf
      ∧ ∀ k ∈ p.data.ratioPath,
          1 ≤ p.data.position.hfAt k p.data.position.borrowUsd))
    (by decide +kernel)
  obtain ⟨hpath, htrigger, hrecovery, hsafe⟩ := of_decide_eq_true hfacts
  obtain ⟨g, out, hg, hout, hiff⟩ :=
    delta_eq_loss_difference_iff (fun _ => "") ratMath plainGuard p
      (crashWorld 2700 (19 / 20)) (ready_of_prepare hp) hpath htrigger hrecovery
  exact ⟨p, hp, hsafe, g, out, hg, hout, (hiff.2 (Or.inl hsafe)).1⟩

end VenusGuard

end Proofstand
