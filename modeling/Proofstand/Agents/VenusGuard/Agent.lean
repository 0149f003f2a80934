/-
`venus_guard/health.py` and `venus_guard/agent.py`: the account read from
the chain, the worst decline replayed, the vol-scaled trigger, the plan.

`observe()` reads the account and the candles of its largest collateral,
takes the worst stretch of these as the stress path, and runs the
unguarded replay on it at once: its results stand in the data. A
collateral that has no pair in the table is given BNB's candles.
`decide()` makes the trigger, the one asked for or the one scaled by the
volatility, whichever is greater, and a target above it; `act()` runs both
replays on what was kept, and at tier 2 asks for a signer after that. Two
parameters of the instance, the response window and the pad, enter the
plan and are not in the data.
-/
import Proofstand.Agents.Base
import Proofstand.Agents.VenusGuard.Replay
import Proofstand.Data.Calibrate

namespace Proofstand

namespace VenusGuard

open Calibrate

variable {K : Type} [Field K] [LinearOrder K]

/-- `vol_scaled_trigger`: `1 + z * sigma * sqrt(window / 8760)`. -/
def volScaledTrigger (lib : Libm K) (volAnnual z responseWindowHours : K) :
    Py K := do
  let root ← lib.mathSqrt (responseWindowHours / 8760)
  pure (1 + z * volAnnual * root)

-- ========================================================= the manifest

/-- The manifest in `agents/venus_guard/manifest.yaml`. -/
def manifest : Manifest K where
  id := "venus-guard"
  tiers := [1, 2]
  inputs :=
    [("account", { type := .address, required := true }),
     ("trigger_hf",
      { type := .number, min := some (.fin (101 / 100)), max := some (.fin 3),
        default := .float (.fin (115 / 100)) }),
     ("buffer_token",
      { type := .enum, values := [.str "USDT", .str "USDC", .str "WBNB"],
        default := .str "USDT", required := true }),
     ("buffer_amount",
      { type := .number, min := some (.fin 10), max := some (.fin 1000000),
        required := true })]
  baseline := "no_action"
  advantageMetric :=
    { name := "usd_saved", unit := "USD", higherIsBetter := true }
  maxLossPct := some 5

-- ===================================================== the stress path

/-- `STABLE_VSYMBOLS`: the markets that do not move. -/
def stableVsymbols : List String :=
  ["vUSDT", "vUSDC", "vBUSD", "vFDUSD", "vTUSD", "vDAI", "vUSDD"]

/-- `VSYMBOL_TO_BINANCE`: the pair each market's price is read from. -/
def vsymbolToBinance : List (String × String) :=
  [("vBNB", "BNB-USDT"), ("vETH", "ETH-USDT"), ("vBTC", "BTC-USDT"),
   ("vBTCB", "BTC-USDT"), ("vCAKE", "CAKE-USDT"), ("vXVS", "XVS-USDT"),
   ("vLINK", "LINK-USDT"), ("vADA", "ADA-USDT"), ("vDOT", "DOT-USDT"),
   ("vMATIC", "MATIC-USDT"), ("vLTC", "LTC-USDT"), ("vXRP", "XRP-USDT"),
   ("vDOGE", "DOGE-USDT"), ("vSOL", "SOL-USDT")]

/-- The index of the first smallest entry, past a best one so far. -/
def argminFrom (best : Nat) (bestVal : K) (idx : Nat) : List K → Nat × K
  | [] => (best, bestVal)
  | x :: xs =>
      if x < bestVal then argminFrom idx x (idx + 1) xs
      else argminFrom best bestVal (idx + 1) xs

/-- The loop's `best_i, best_dd, best_j`. -/
structure Drawdown (K : Type) where
  start : Nat
  drawdown : K
  trough : Nat

/-- The loop over start candles: the closes from candle `i` on. -/
def worstFrom (best : Drawdown K) (i : Nat) : List K → Py (Drawdown K)
  | [] => .ok best
  | [_] => .ok best
  | c :: cs => do
      let (j, low) := argminFrom 0 c 1 cs
      let dd ← pyDiv low c
      if dd < best.drawdown then worstFrom ⟨i, dd, i + j⟩ (i + 1) cs
      else worstFrom best (i + 1) cs

/-- `_worst_drawdown_path`: the ratio path over the worst peak-to-trough
decline, where it starts, and the drawdown. -/
def worstDrawdownPath (closes : List K) : Py (List K × Nat × K) :=
  if closes.length < 48 then .ok ([1], 0, 0)
  else do
    let best ← worstFrom ⟨0, 1, 0⟩ 0 closes
    let peak := closes.getD best.start 0
    let path ← ((closes.drop best.start).take (best.trough + 2 - best.start)).mapM
      fun c => pyDiv c peak
    pure (path, best.start, best.drawdown)

-- ======================================================== the observation

/-- The observation's data. -/
structure Data (K : Type) where
  inputs : Dict K
  account : String
  currentHf : WithTop K
  totalSupplyUsd : K
  totalBorrowUsd : K
  collateralAdjustedUsd : K
  liquidityUsd : K
  dominantCollateral : String
  stressPair : String
  stressDdStartIdx : Nat
  stressWorstDrawdown : K
  ratioPath : List K
  volAnnual : K
  volatileAdjUsd : K
  stableAdjUsd : K
  closeFactor : K
  liquidationIncentive : K
  bufferUsd : K
  gasPerRepayUsd : K
  minHf : WithTop K
  liquidationLossUsd : K

namespace Data

/-- The position the replays run on. -/
def position (d : Data K) : Position K where
  borrowUsd := d.totalBorrowUsd
  volatileAdjUsd := d.volatileAdjUsd
  stableAdjUsd := d.stableAdjUsd
  closeFactor := d.closeFactor
  liquidationIncentive := d.liquidationIncentive

/-- The dict the data is. -/
def toVal (d : Data K) : PyVal K :=
  .dict
    [("inputs", .dict d.inputs),
     ("account", .str d.account),
     ("current_hf", .float (.ofTop d.currentHf)),
     ("total_supply_usd", .float (.fin d.totalSupplyUsd)),
     ("total_borrow_usd", .float (.fin d.totalBorrowUsd)),
     ("collateral_adjusted_usd", .float (.fin d.collateralAdjustedUsd)),
     ("liquidity_usd", .float (.fin d.liquidityUsd)),
     ("dominant_collateral", .str d.dominantCollateral),
     ("stress_pair", .str d.stressPair),
     ("stress_dd_start_idx", .int d.stressDdStartIdx),
     ("stress_worst_drawdown", .float (.fin d.stressWorstDrawdown)),
     ("ratio_path", .list (d.ratioPath.map fun k => .float (.fin k))),
     ("vol_annual", .float (.fin d.volAnnual)),
     ("volatile_adj_usd", .float (.fin d.volatileAdjUsd)),
     ("stable_adj_usd", .float (.fin d.stableAdjUsd)),
     ("close_factor", .float (.fin d.closeFactor)),
     ("liquidation_incentive", .float (.fin d.liquidationIncentive)),
     ("buffer_usd", .float (.fin d.bufferUsd)),
     ("gas_per_repay_usd", .float (.fin d.gasPerRepayUsd)),
     ("min_hf", .float (.ofTop d.minHf)),
     ("liquidation_loss_usd", .float (.fin d.liquidationLossUsd))]

end Data

-- ============================================================= the agent

/-- The constructor's parameters. -/
structure VenusGuardAgent (K : Type) where
  z : K
  responseWindowHours : K
  stressDays : Int
  recoveryPad : K

/-- The instance's state: what `observe()` and `act()` leave in it. -/
structure State (K : Type) where
  obsData : Option (Data K)
  guarded : Option (GuardedResult K)
  noAction : Option (NoActionResult K)

/-- `guard_plan`'s parameters. -/
structure Params (K : Type) where
  triggerHf : K
  recoveryHf : K
  currentHf : WithTop K
  deriving DecidableEq

namespace VenusGuardAgent

/-- The buffer's worth: stables at par, anything else at spot. -/
def bufferPrice (inputs : Dict K) (w : World K) : Py K :=
  let token := ((((inputs.lookup "buffer_token").getD (.str "USDT")).asText?).getD
    "").toUpper
  if token ∈ ["USDT", "USDC", "BUSD", "DAI"] then .ok 1
  else (w.spotPrice (token ++ "-USDT")).read

/-- The sum of the adjusted collateral in the selected markets. -/
def adjustedSum (h : AccountHealth K) (select : String → Bool) : K :=
  ((h.markets.filter fun m => select m.symbol ∧ 0 < m.supplyUsd).map
    MarketPosition.collateralAdjustedUsd).sum

/-- `observe()`: the account, the stress path of its largest volatile
collateral's candles, the buffer and the gas, all kept for `act()`. -/
def observe [FloorRing K] (a : VenusGuardAgent K) (lib : Libm K)
    (s : State K) (inputs : Dict K) (w : World K) : Py (Data K × State K) := do
  let accountVal ← (PyVal.dict inputs).item "account"
  let account := accountVal.asText?.getD ""
  let h ← (w.accountHealth account).read
  if h.totalBorrowUsd ≤ 0 then
    raise .NotAtRisk s!"account {account} has no Venus borrow"
  else
    let volatileAdj := adjustedSum h fun sym => !stableVsymbols.contains sym
    let stableAdj := adjustedSum h stableVsymbols.contains
    if volatileAdj ≤ 0 then
      raise .NotAtRisk
        s!"account {account} has only stable collateral — not at market risk"
    else
      match h.dominantCollateral with
      | none =>
          raise .AttributeError "'NoneType' object has no attribute 'symbol'"
      | some dom =>
          let pair := (vsymbolToBinance.lookup dom.symbol).getD "BNB-USDT"
          let startMs := PyVal.truncate ((w.now - a.stressDays * 86400) * 1000)
          let kl ← (w.getKlines pair (a.stressDays * 24) startMs).read
          let closes := kl.map (·.close)
          let volAnnual ← realizedVol lib closes 720
          let (ratioPath, ddStart, worstDd) ← worstDrawdownPath closes
          let bufPrice ← bufferPrice inputs w
          let amountVal ← (PyVal.dict inputs).item "buffer_amount"
          let amount ← amountVal.number
          let mantissa ← w.closeFactorMantissa.read
          let pos : Position K :=
            { borrowUsd := h.totalBorrowUsd
              volatileAdjUsd := volatileAdj
              stableAdjUsd := stableAdj
              closeFactor := mantissa / 10 ^ 18
              liquidationIncentive := 11 / 10 }
          let noAct := replayNoAction pos ratioPath
          -- `except Exception`: no gas price, no gas
          let gasPerRepay :=
            match gasCostUsd w "venus_repay_borrow" with
            | .ok g => g
            | .error _ => 0
          let data : Data K :=
            { inputs := inputs
              account := account
              currentHf := h.healthFactor
              totalSupplyUsd := h.totalSupplyUsd
              totalBorrowUsd := h.totalBorrowUsd
              collateralAdjustedUsd := h.collateralAdjustedUsd
              liquidityUsd := h.liquidityUsd
              dominantCollateral := dom.symbol
              stressPair := pair
              stressDdStartIdx := ddStart
              stressWorstDrawdown := worstDd
              ratioPath := ratioPath
              volAnnual := volAnnual
              volatileAdjUsd := volatileAdj
              stableAdjUsd := stableAdj
              closeFactor := pos.closeFactor
              liquidationIncentive := pos.liquidationIncentive
              bufferUsd := amount * bufPrice
              gasPerRepayUsd := gasPerRepay
              minHf := noAct.minHf
              liquidationLossUsd := noAct.liquidationLossUsd }
          pure (data, { s with obsData := some data })

/-- `decide()`'s trigger. -/
def trigger (a : VenusGuardAgent K) (lib : Libm K) (d : Data K) : Py K := do
  let asked ← ((d.inputs.lookup "trigger_hf").getD
    (.float (.fin (105 / 100)))).number
  let scaled ← volScaledTrigger lib d.volAnnual a.z a.responseWindowHours
  pure (max asked scaled)

/-- `decide()`: the trigger, and the target that much above it. -/
def decide (a : VenusGuardAgent K) (lib : Libm K) (d : Data K) :
    Py (Decision (Params K)) := do
  let trigger ← a.trigger lib d
  pure
    { kind := "guard_plan"
      params := ⟨trigger, trigger + a.recoveryPad, d.currentHf⟩ }

/-- The replay `act()` runs on the data it kept. -/
def planOf (d : Data K) (p : Params K) : GuardPlan K where
  triggerHf := p.triggerHf
  recoveryHf := p.recoveryHf
  bufferUsd := d.bufferUsd
  gasUsdPerRepay := d.gasPerRepayUsd

/-- `act()`: the two replays on what was kept, and nothing signed. -/
def act (s : State K) (dec : Decision (Params K)) (ctx : ExecContext) :
    Py (Actions × State K) :=
  match s.obsData with
  | none => raise .KeyError "'total_borrow_usd'"
  | some d => do
      let noAct := replayNoAction d.position d.ratioPath
      let guarded ← replayGuarded d.position d.ratioPath
        (planOf d dec.params)
      let s : State K := { s with guarded := some guarded, noAction := some noAct }
      if ctx.tier < 2 then pure ({}, s)
      else do
        let _ ← ctx.requireSigner
        pure ({}, s)

/-- `report()`: what the guard saved, once `act()` has run. -/
def report (s : State K) : Py (Result K) :=
  match s.guarded with
  | none => raise .AttributeError "'NoneType' object has no attribute 'usd_saved'"
  | some g => .ok (manifest.result g.usdSaved)

/-- The agent an instance is. -/
def agent [FloorRing K] (a : VenusGuardAgent K) (lib : Libm K) :
    Agent K (State K) (Data K) (Params K) where
  manifest := manifest
  init := ⟨none, none, none⟩
  snapshot := Data.toVal
  observe := a.observe lib
  decide := a.decide lib
  act := act
  report := fun s _ _ => report s

end VenusGuardAgent

end VenusGuard

end Proofstand
