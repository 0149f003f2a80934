/-
How long the rebalancer and its baseline earn fees.

The replay accrues an hour's fees for each candle of the sim window at
most, the full-range baseline a horizon's fees that the constructor set.
The window is cut by other parameters (`windowHours`), so the two are one
duration exactly when the horizon happens to be as long.

# How it goes

The length of the sim window is computed from the cut (`simWindow_length`,
`poolCandles_length`), and the horizon is a field of the observation that
no candle changes. Both ends are put into one statement about any
observation that comes to be made, with the settings and the history of
prices left free.

A replay may earn for fewer hours than its window has candles, where the
price is out of range; what the two sides have in common is the time over
which they may earn.
-/
import Proofstand.Agents.Proofs.Observe
import Proofstand.Agents.Proofs.RangeStep
import Proofstand.Orchestrator.Proofs.Baselines

namespace Proofstand.PcsRebalancer

open Fallible Calibrate Baselines

variable {K : Type} [Field K] [LinearOrder K]

-- ======================================================== the replay's hours

/-- Fees at the concentrations `cs`, an hour each, have been added. -/
def EarnedOver (p : SimParams K) (s s' : SimState K) (cs : List K) : Prop :=
  s'.inRangeHours = s.inRangeHours + cs.length
    ∧ s'.accruedFees
      = s.accruedFees + p.capitalUsd * p.feeAprBase * cs.sum / 8760

/-- A step of the replay earns at one concentration at most; -/
theorem simStep_earns [FloorRing K] {lib : Libm K} {p : SimParams K}
    {initial : RangeConfig K} {closes : List K} {q : Candle K × Nat}
    {s s' : SimState K} (h : simStep lib p initial closes s q = .ok s') :
    ∃ cs, cs.length ≤ 1 ∧ EarnedOver p s s' cs := by
  obtain ⟨r, idx⟩ := q
  obtain ⟨s₁, haccrue, hrule⟩ := simStep_eq_ok h
  have hearned : ∃ cs, cs.length ≤ 1 ∧ EarnedOver p s s₁ cs := by
    rcases accrue_eq_ok haccrue with ⟨-, rfl⟩ | ⟨-, c, -, rfl⟩
    · exact ⟨[], by simp, by simp [EarnedOver]⟩
    · refine ⟨[c], by simp, rfl, ?_⟩
      simp only [SimState.accrued, List.sum_singleton]
      ring
  obtain ⟨cs, hlen, hhours, hfees⟩ := hearned
  rcases hrule with ⟨-, rfl⟩ | ⟨-, hdecide⟩
  · exact ⟨cs, hlen, hhours, hfees⟩
  · obtain ⟨rng, dec, -, -, rfl⟩ := decideAt_eq_ok hdecide
    obtain ⟨hsame, hsame'⟩ := s₁.decided_fees p idx r rng dec
    exact ⟨cs, hlen, hsame'.trans hhours, hsame.trans hfees⟩

/-- so the loop earns at most an hour for each candle. -/
theorem simSteps_earn [FloorRing K] {lib : Libm K} {p : SimParams K}
    {initial : RangeConfig K} {closes : List K}
    {qs : List (Candle K × Nat)} {s s' : SimState K}
    (h : qs.foldlM (simStep lib p initial closes) s = .ok s') :
    ∃ cs, cs.length ≤ qs.length ∧ EarnedOver p s s' cs := by
  induction qs generalizing s with
  | nil =>
      cases h
      exact ⟨[], by simp, by simp [EarnedOver]⟩
  | cons q qs ih =>
      rw [List.foldlM_cons, bind_eq_ok] at h
      obtain ⟨s₁, hstep, hrest⟩ := h
      obtain ⟨cs, hlen, hhours, hfees⟩ := simStep_earns hstep
      obtain ⟨ds, hlen', hhours', hfees'⟩ := ih hrest
      refine ⟨cs ++ ds, ?_, ?_, ?_⟩
      · simp only [List.length_append, List.length_cons]
        omega
      · rw [hhours', hhours, List.length_append]
        omega
      · rw [hfees', hfees, List.sum_append]
        ring

/-- The replay earns over its candles, one hour each at most. -/
theorem simulateRebalancer_earns [FloorRing K] {lib : Libm K}
    {rows : List (Candle K)} {initial : RangeConfig K} {p : SimParams K}
    {r : SimResult K} (h : simulateRebalancer lib rows initial p = .ok r) :
    ∃ cs : List K, cs.length ≤ rows.length
      ∧ r.accruedFeesUsd = p.capitalUsd * p.feeAprBase * cs.sum / 8760
      ∧ r.inRangeFraction = cs.length / rows.length := by
  obtain ⟨s, hs, h⟩ := bind_eq_ok.1 h
  obtain ⟨frac, -, h⟩ := bind_eq_ok.1 h
  cases h
  obtain ⟨cs, hlen, hhours, hfees⟩ := simSteps_earn hs
  have hstart : (SimState.start p initial).inRangeHours = 0
      ∧ (SimState.start p initial).accruedFees = 0 := ⟨rfl, rfl⟩
  rw [List.length_zipIdx] at hlen
  refine ⟨cs, hlen, ?_, ?_⟩
  · rw [hfees, hstart.2, zero_add]
  · rw [hhours, hstart.1, zero_add]

-- ======================================================= the baseline's days

/-- The full-range position earns over the observation's horizon. -/
theorem staticRangeGross_horizon {lib : Libm K} {d : Data K} {g : K}
    (h : staticRangeGross lib d.toVal = .ok g) :
    ∃ capital il, numberAt (.dict d.inputs) "capital_usd" = .ok capital
      ∧ ilEstimate lib d.volAnnual d.horizonDays (999999 / 1000000) = .ok il
      ∧ g = capital * d.feeApr * d.horizonDays / 365 - capital * il := by
  obtain ⟨-, -, h⟩ := bind_eq_ok.1 h
  obtain ⟨inputs, hinputs, h⟩ := bind_eq_ok.1 h
  obtain ⟨capital, hcapital, h⟩ := bind_eq_ok.1 h
  obtain ⟨horizon, hhorizon, h⟩ := bind_eq_ok.1 h
  obtain ⟨apr, hapr, h⟩ := bind_eq_ok.1 h
  obtain ⟨vol, hvol, h⟩ := bind_eq_ok.1 h
  obtain ⟨il, hil, h⟩ := bind_eq_ok.1 h
  cases h
  cases hinputs
  cases hhorizon
  cases hapr
  cases hvol
  exact ⟨capital, il, hcapital, hil, rfl⟩

-- ============================================================ the two ends

namespace PcsRebalancerAgent

/-- The candles of the cut: from `since_ms` on, or of the last
`default_window_days`. -/
def cutHours (a : PcsRebalancerAgent K) (calib : List (Kline K)) : Nat :=
  match a.sinceMs with
  | some cutoff => calib.countP fun k => cutoff ≤ k.openTimeMs
  | none =>
      if 0 ≤ a.defaultWindowDays then
        min (a.defaultWindowDays * 24).toNat calib.length
      else calib.length - (-(a.defaultWindowDays * 24)).toNat

/-- The candles of the sim window: those of the cut, or the last two days
where the cut has fewer than 26. -/
def windowHours (a : PcsRebalancerAgent K) (calib : List (Kline K)) : Nat :=
  if a.cutHours calib < 26 then min 48 calib.length else a.cutHours calib

omit [Field K] [LinearOrder K] in
theorem simWindow_length (a : PcsRebalancerAgent K)
    (calib : List (Kline K)) :
    (a.simWindow calib).length = a.windowHours calib := by
  have htail : (tailRows 48 calib).length = min 48 calib.length := by
    show (calib.drop (calib.length - 48)).length = _
    rw [List.length_drop]
    omega
  have hcut : ∀ sim : List (Kline K), sim.length = a.cutHours calib →
      (if sim.length < 26 then tailRows 48 calib else sim).length
        = a.windowHours calib := by
    intro sim hsim
    unfold windowHours
    rw [hsim]
    split
    · exact htail
    · exact hsim
  unfold simWindow
  cases hsince : a.sinceMs with
  | some cutoff =>
      apply hcut
      simp only [cutHours, hsince, List.countP_eq_length_filter]
  | none =>
      apply hcut
      simp only [cutHours, hsince, tailRows]
      by_cases hdays : 0 ≤ a.defaultWindowDays
      · rw [if_pos hdays, if_pos (by omega), List.length_drop]
        omega
      · rw [if_neg hdays, if_neg (by omega), List.length_drop]

theorem poolCandles_length {candles simPool : List (Candle K)}
    {invert : Bool} (h : poolCandles candles invert = .ok simPool) :
    simPool.length = candles.length := by
  unfold poolCandles at h
  split at h
  · exact mapM_length h
  · cases h
    rfl

/-- The horizon and the window an observation was built with. -/
theorem observe_window {a : PcsRebalancerAgent K} {lib : Libm K}
    {s s' : State K} {inputs : Dict K} {w : World K} {d : Data K}
    (h : a.observe lib s inputs w = .ok (d, s')) :
    ∃ calib, (w.readKlines "BNB-USDT" a.calibDays).read = .ok calib
      ∧ d.horizonDays = a.horizonDays
      ∧ d.simPoolKlines.length = a.windowHours calib := by
  obtain ⟨-, -, hhorizon, calib, hcalib, hsim⟩ := observe_eq_ok h
  refine ⟨calib, hcalib, hhorizon, ?_⟩
  rw [poolCandles_length hsim, List.length_map, simWindow_length]

/-- An observation is made where each of its reads returns. -/
theorem observe_returns {a : PcsRebalancerAgent K} {lib : Libm K}
    {s : State K} {inputs : Dict K} {w : World K} {pool : String}
    {st : PoolState} {calib : List (Kline K)} {closes : List K}
    {simPool : List (Candle K)} {apr : K × String} {vol q : K}
    (hpool : (PyVal.dict inputs).item "pool" = .ok (.str pool))
    (hst : (w.poolState pool).read = .ok st)
    (hbnb : wbnb = st.token0.toLower ∨ wbnb = st.token1.toLower)
    (hstable : st.token0.toLower ∈ stables ∨ st.token1.toLower ∈ stables)
    (hcalib : (w.readKlines "BNB-USDT" a.calibDays).read = .ok calib)
    (hcloses : pricesFromKlines calib (stables.contains st.token0.toLower)
      = .ok closes)
    (hsim : poolCandles ((a.simWindow calib).map Kline.toCandle)
      (stables.contains st.token0.toLower) = .ok simPool)
    (hapr : feeAprFromDefillama w st.token0 st.token1 st.fee = .ok apr)
    (hvol : realizedVol lib (calib.map (·.close)) 720 = .ok vol)
    (hquote : quote w = .ok q) :
    ∃ d s', a.observe lib s inputs w = .ok (d, s') := by
  have hgas : ∀ op gas, gasUnits.lookup op = some gas →
      gasCostUsd w op = .ok (priced gas q) := by
    intro op gas hop
    rw [gasCostUsd_eq op gas hop, hquote, ok_bind]
  unfold observe
  rw [hpool, ok_bind]
  simp only [PyVal.asText?, Option.getD_some, hst, ok_bind]
  rw [if_neg (by simp [hbnb, hstable]), hcalib, ok_bind, hcloses, ok_bind,
    hsim, ok_bind, hapr, ok_bind, hvol, ok_bind, hgas "v3_mint" _ rfl,
    ok_bind, hgas "v3_decrease_liquidity" _ rfl, ok_bind,
    hgas "v3_collect" _ rfl, ok_bind, hgas "v3_burn" _ rfl, ok_bind]
  exact ⟨_, _, rfl⟩

end PcsRebalancerAgent

/-- Agent and baseline earn over one duration: the horizon is as many
hours as the window has candles. -/
def SameDuration (d : Data K) : Prop :=
  24 * d.horizonDays = d.simPoolKlines.length

/-- Of an observation: the replay earns over its candles, the baseline
over its horizon, and the two are as long exactly when the constructor's
horizon is as long as the cut the other parameters make. -/
theorem sameDuration_iff [FloorRing K] {a : PcsRebalancerAgent K}
    {lib : Libm K} {s s' : State K} {inputs : Dict K} {w : World K}
    {d : Data K} (h : a.observe lib s inputs w = .ok (d, s')) :
    (∀ rng p r, simulateRebalancer lib d.simPoolKlines rng p = .ok r →
        ∃ cs : List K, cs.length ≤ d.simPoolKlines.length
          ∧ r.accruedFeesUsd = p.capitalUsd * p.feeAprBase * cs.sum / 8760
          ∧ r.inRangeFraction = cs.length / d.simPoolKlines.length)
      ∧ (∀ g, staticRangeGross lib d.toVal = .ok g →
        ∃ capital il, numberAt (.dict d.inputs) "capital_usd" = .ok capital
          ∧ ilEstimate lib d.volAnnual d.horizonDays (999999 / 1000000)
            = .ok il
          ∧ g = capital * d.feeApr * d.horizonDays / 365 - capital * il)
      ∧ ∃ calib, (w.readKlines "BNB-USDT" a.calibDays).read = .ok calib
        ∧ (SameDuration d ↔ 24 * a.horizonDays = a.windowHours calib) := by
  obtain ⟨calib, hcalib, hhorizon, hwindow⟩ :=
    PcsRebalancerAgent.observe_window h
  refine ⟨?_, ?_, calib, hcalib, ?_⟩
  · intro rng p r hr
    exact simulateRebalancer_earns hr
  · intro g hg
    exact staticRangeGross_horizon hg
  · rw [SameDuration, hhorizon, hwindow]

-- ========================================================= two hires, run

def usdt : String := "0x55d398326f99059ff775485246999027b3197955"

def wbnbUsdt : LlamaPool ℚ where
  pool := "wbnb-usdt"
  symbol := "WBNB-USDT"
  tvlUsd := some 1000000
  apy := some 20
  apyBase := some 18
  underlyingTokens := some [wbnb, usdt]
  poolMeta := some "0.05%"

def flatHours (hours : Nat) : List (Kline ℚ) :=
  (List.range hours).map fun (h : Nat) =>
    { openTimeMs := (h : Int) * 3600000, openPrice := 600, high := 600
      low := 600, close := 600, volume := 1 }

/-- A WBNB/USDT pool, its yield, and hours of flat candles. -/
def poolWorld (hours : Nat) : World ℚ :=
  { World.offline with
    gasPriceWei := .ok 1000000000
    spotPrice := fun _ => .ok 600
    readKlines := fun _ _ => .ok (flatHours hours)
    poolState := fun _ => .ok
      { token0 := usdt, token1 := wbnb, fee := 500, tickSpacing := 10
        tick := 0 }
    llamaPools := .ok [wbnbUsdt] }

def poolInputs : Dict ℚ :=
  [("pool", .str "0x36696169C63e42cd08ce11f5deeBbCeBae652050"),
   ("capital_usd", .int 1000)]

/-- The constructor's defaults, past a deployment's start or without one. -/
def rebalancerSince (sinceMs : Option Int) : PcsRebalancerAgent ℚ :=
  ⟨sinceMs, 30, 7, 24, 7⟩

/-- The pool's reads, where the candles' prices invert and have a
volatility. -/
theorem poolWorld_observed {since : Option Int} {hours : Nat}
    (h : okAnd (PcsRebalancerAgent.pricesFromKlines (flatHours hours) true)
        (fun _ => true)
      ∧ okAnd (PcsRebalancerAgent.poolCandles
          (((rebalancerSince since).simWindow (flatHours hours)).map
            Kline.toCandle) true) (fun _ => true)
      ∧ okAnd (realizedVol ratMath ((flatHours hours).map (·.close)) 720)
          (fun _ => true)) :
    ∃ d s', (rebalancerSince since).observe ratMath ⟨none, none⟩ poolInputs
      (poolWorld hours) = .ok (d, s') := by
  obtain ⟨hcloses, hsim, hvol⟩ := h
  obtain ⟨closes, hcloses, -⟩ := exists_of_okAnd hcloses
  obtain ⟨simPool, hsim, -⟩ := exists_of_okAnd hsim
  obtain ⟨vol, hvol, -⟩ := exists_of_okAnd hvol
  have husdt : usdt.toLower = usdt := by decide +kernel
  have hwbnb : wbnb.toLower = wbnb := by decide +kernel
  have hlists : stables.contains usdt = true := by decide +kernel
  have hapr : feeAprFromDefillama (poolWorld hours) usdt wbnb 500
      = .ok (18 / 100, "wbnb-usdt") := by
    have hmine : [wbnbUsdt].filter (pairsWith usdt wbnb) = [wbnbUsdt] := by
      have hpair : pairsWith usdt wbnb wbnbUsdt = true := by decide +kernel
      rw [List.filter_cons_of_pos hpair, List.filter_nil]
    unfold feeAprFromDefillama
    rw [show (poolWorld hours).llamaPools.read = .ok [wbnbUsdt] from rfl,
      ok_bind, husdt, hwbnb, hmine]
    rfl
  have hst : ((poolWorld hours).poolState
      "0x36696169C63e42cd08ce11f5deeBbCeBae652050").read
        = .ok ⟨usdt, wbnb, 500, 10, 0⟩ := rfl
  have hinvert : stables.contains usdt.toLower = true := by
    rw [husdt, hlists]
  have hstable : usdt.toLower ∈ stables := by
    rw [husdt]
    exact List.mem_cons_self
  have hquote : quote (poolWorld hours)
      = .ok (((1000000000 : Int) : ℚ) * 600) := rfl
  exact PcsRebalancerAgent.observe_returns rfl hst (Or.inr hwbnb.symm)
    (Or.inl hstable) rfl (hinvert.symm ▸ hcloses) (hinvert.symm ▸ hsim)
    hapr hvol hquote

/-- A deployment three days old: the replay earns over 72 hours, the
baseline over seven days. -/
theorem horizon_of_another_duration :
    ∃ d s', (rebalancerSince (some 0)).observe ratMath ⟨none, none⟩
        poolInputs (poolWorld 72) = .ok (d, s')
      ∧ d.simPoolKlines.length = 72 ∧ d.horizonDays = 7
      ∧ ¬ SameDuration d := by
  obtain ⟨d, s', hobs⟩ : ∃ d s', (rebalancerSince (some 0)).observe ratMath
      ⟨none, none⟩ poolInputs (poolWorld 72) = .ok (d, s') := by
    apply poolWorld_observed
    decide +kernel
  obtain ⟨calib, hcalib, hhorizon, hwindow⟩ :=
    PcsRebalancerAgent.observe_window hobs
  cases hcalib
  have hlen : (rebalancerSince (some 0)).windowHours (flatHours 72) = 72 := by
    decide +kernel
  rw [hlen] at hwindow
  refine ⟨d, s', hobs, hwindow, hhorizon, ?_⟩
  rw [SameDuration, hwindow, hhorizon]
  norm_num [rebalancerSince]

/-- Without a start, seven days of candles stand against seven days. -/
theorem sameDuration_by_default :
    ∃ d s', (rebalancerSince none).observe ratMath ⟨none, none⟩
        poolInputs (poolWorld 200) = .ok (d, s')
      ∧ SameDuration d := by
  obtain ⟨d, s', hobs⟩ : ∃ d s', (rebalancerSince none).observe ratMath
      ⟨none, none⟩ poolInputs (poolWorld 200) = .ok (d, s') := by
    apply poolWorld_observed
    decide +kernel
  obtain ⟨-, -, calib, hcalib, hiff⟩ := sameDuration_iff hobs
  cases hcalib
  have hlen : (rebalancerSince none).windowHours (flatHours 200) = 168 := by
    decide +kernel
  refine ⟨d, s', hobs, hiff.2 ?_⟩
  show (24 : ℚ) * 7 = ((rebalancerSince none).windowHours (flatHours 200) : ℕ)
  rw [hlen]
  norm_num

end Proofstand.PcsRebalancer
