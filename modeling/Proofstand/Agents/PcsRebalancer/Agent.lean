/-
`pcs_rebalancer/agent.py`: the pool and the candles in, a v3 range, the
paper simulation's net fees out. Tier 2's on-chain opening is left out:
it changes no value of the result.

`observe()` turns the candles into the pool's own unit of price, which
inverts them where the stable is `token0`, column by column: the high of an
inverted candle is the inverse of its high, and so the lower of the two, as
in the source. The fee APR is read from DefiLlama, of the highest-ranked
pool of the pair; the ranking is by a label and then by TVL, and a fold
that moves only to what ranks higher is the head of the source's stable
sort.

What `act()` replays is the observation's own copy of the sim window, with
the checkpoint period of the instance, which is no part of the data.
-/
import Proofstand.Agents.Base
import Proofstand.Agents.PcsRebalancer.Sim

namespace Proofstand

namespace PcsRebalancer

open Calibrate

variable {K : Type} [Field K] [LinearOrder K]

/-- The manifest in `agents/pcs_rebalancer/manifest.yaml`. -/
def manifest : Manifest K where
  id := "pcs-rebalancer"
  tiers := [1, 2]
  inputs :=
    [("pool", { type := .address, required := true }),
     ("capital_usd",
      { type := .number, min := some (.fin 50), max := some (.fin 100000),
        required := true }),
     ("risk",
      { type := .enum,
        values := [.str "tight", .str "balanced", .str "wide"],
        default := .str "balanced" })]
  baseline := "static_range"
  advantageMetric :=
    { name := "net_fees_usd", unit := "USD", higherIsBetter := true }
  maxLossPct := some 5

-- =================================================== the pool's fee APR

/-- `WBNB`, in lower case. -/
def wbnb : String := "0xbb4cdb9cbd36b01bd1cbaebf2de08d9173bc095c"

/-- USDT, USDC and BUSD. -/
def stables : List String :=
  ["0x55d398326f99059ff775485246999027b3197955",
   "0x8ac76a51cc950d9822d68b83fe1ad97b32cd580d",
   "0xe9e7cea3dedca5984780bafc599bd69add087d56"]

/-- `f"{fee_tier / 10000:.2%}"`. -/
def feeTierText (feeTier : Int) : String :=
  let n := feeTier.natAbs
  (if feeTier < 0 then "-" else "") ++ toString (n / 100) ++ "."
    ++ (if n % 100 < 10 then "0" else "") ++ toString (n % 100) ++ "%"

/-- Whether the pool's tokens are the two wanted, as sets. -/
def pairsWith (t0 t1 : String) (p : LlamaPool K) : Bool :=
  match p.underlyingTokens with
  | none => false
  | some [] => false
  | some ts =>
      let ts := ts.map String.toLower
      ts.all (fun t => t = t0 ∨ t = t1) && ts.contains t0 && ts.contains t1

/-- `sort`'s order: the tier's own pools above the others, then by TVL. -/
def rankBelow (tierText : String) (p q : LlamaPool K) : Bool :=
  let mine := fun r : LlamaPool K => r.poolMeta = some tierText
  if mine p ↔ mine q then (p.tvlUsd.getD 0) < (q.tvlUsd.getD 0)
  else mine q

/-- The fee APR of the highest-ranked pool of the pair, the first of
equals, and its id. -/
def feeAprFromDefillama (w : World K) (token0 token1 : String)
    (feeTier : Int) : Py (K × String) := do
  let pools ← w.llamaPools.read
  let cands := pools.filter (pairsWith token0.toLower token1.toLower)
  match cands with
  | [] => raise .UnsupportedPool "DefiLlama has no PancakeSwap BSC pool"
  | p :: ps =>
      let top := ps.foldl
        (fun best q =>
          if rankBelow (feeTierText feeTier) best q then q else best) p
      let apr := (top.apyBase.or top.apy).getD 0
      pure (apr / 100, top.pool)

-- ======================================================== the observation

/-- The observation's data. -/
structure Data (K : Type) where
  inputs : Dict K
  pool : String
  token0 : String
  token1 : String
  feeTier : Int
  tickSpacing : Int
  tick : Int
  invert : Bool
  rawPrice : K
  feeApr : K
  defillamaPoolId : String
  volAnnual : K
  horizonDays : K
  gasOpenUsd : K
  gasCloseUsd : K
  calibPoolClose : List K
  calibOpenTimeMs : List Int
  simPoolKlines : List (Candle K)

/-- The dict the data is. -/
def Data.toVal (d : Data K) : PyVal K :=
  .dict
    [("inputs", .dict d.inputs),
     ("pool", .str d.pool), ("token0", .str d.token0),
     ("token1", .str d.token1), ("fee_tier", .int d.feeTier),
     ("tick_spacing", .int d.tickSpacing), ("tick", .int d.tick),
     ("invert", .bool d.invert), ("raw_price", .float (.fin d.rawPrice)),
     ("fee_apr", .float (.fin d.feeApr)),
     ("defillama_pool_id", .str d.defillamaPoolId),
     ("vol_annual", .float (.fin d.volAnnual)),
     ("horizon_days", .float (.fin d.horizonDays)),
     ("gas_open_usd", .float (.fin d.gasOpenUsd)),
     ("gas_close_usd", .float (.fin d.gasCloseUsd)),
     ("calib_pool_close",
      .list (d.calibPoolClose.map fun x => .float (.fin x))),
     ("calib_open_time_ms", .list (d.calibOpenTimeMs.map .int)),
     ("sim_pool_klines", .list (d.simPoolKlines.map Candle.toVal))]

-- ============================================================= the agent

/-- The constructor's parameters. -/
structure PcsRebalancerAgent (K : Type) where
  sinceMs : Option Int
  calibDays : Int
  horizonDays : K
  checkpointHours : Int
  defaultWindowDays : Int

/-- The instance's state. -/
structure State (K : Type) where
  obsData : Option (Data K)
  sim : Option (SimResult K)

namespace PcsRebalancerAgent

/-- The candles of the sim window, too short ones widened to two days. -/
def simWindow (a : PcsRebalancerAgent K) (calib : List (Kline K)) :
    List (Kline K) :=
  let sim :=
    match a.sinceMs with
    | some cutoff => calib.filter fun k => cutoff ≤ k.openTimeMs
    | none => tailRows (a.defaultWindowDays * 24) calib
  if sim.length < 26 then tailRows 48 calib else sim

/-- A candle of the inverse price, column by column. -/
def invertCandle (c : Candle K) : Py (Candle K) := do
  let openPrice ← pyDiv 1 c.openPrice
  let high ← pyDiv 1 c.high
  let low ← pyDiv 1 c.low
  let close ← pyDiv 1 c.close
  pure { openTimeMs := c.openTimeMs, openPrice, high, low, close }

/-- `_prices_from_klines`: the closes in pool units. -/
def pricesFromKlines (klines : List (Kline K)) (invert : Bool) :
    Py (List K) :=
  if invert then klines.mapM fun k => npDiv 1 k.close
  else .ok (klines.map (·.close))

/-- The sim window's candles in pool units. -/
def poolCandles (candles : List (Candle K)) (invert : Bool) :
    Py (List (Candle K)) :=
  if invert then candles.mapM invertCandle else .ok candles

/-- `observe()`: the pool's state, its fees, and the price history of the
pair turned into the pool's own prices, all kept for `act()`. -/
def observe (a : PcsRebalancerAgent K) (lib : Libm K) (s : State K)
    (inputs : Dict K) (w : World K) : Py (Data K × State K) := do
  let poolVal ← (PyVal.dict inputs).item "pool"
  let pool := poolVal.asText?.getD ""
  let st ← (w.poolState pool).read
  let t0 := st.token0.toLower
  let t1 := st.token1.toLower
  if ¬ (wbnb = t0 ∨ wbnb = t1) ∨ ¬ (t0 ∈ stables ∨ t1 ∈ stables) then
    raise .UnsupportedPool
      s!"pool {pool}: only WBNB/<USD stable> pools are supported"
  else
    let invert := stables.contains t0
    let calib ← (w.readKlines "BNB-USDT" a.calibDays).read
    let sim := (a.simWindow calib).map Kline.toCandle
    let calibPoolClose ← pricesFromKlines calib invert
    let simPool ← poolCandles sim invert
    let (feeApr, dlPool) ← feeAprFromDefillama w st.token0 st.token1 st.fee
    let volAnnual ← realizedVol lib (calib.map (·.close)) 720
    let gasOpen ← gasCostUsd w "v3_mint"
    let decrease ← gasCostUsd w "v3_decrease_liquidity"
    let collect ← gasCostUsd w "v3_collect"
    let burn ← gasCostUsd w "v3_burn"
    let data : Data K :=
      { inputs := inputs
        pool := pool
        token0 := st.token0
        token1 := st.token1
        feeTier := st.fee
        tickSpacing := st.tickSpacing
        tick := st.tick
        invert := invert
        rawPrice := tickToPrice st.tick
        feeApr := feeApr
        defillamaPoolId := dlPool
        volAnnual := volAnnual
        horizonDays := a.horizonDays
        gasOpenUsd := gasOpen
        gasCloseUsd := decrease + collect + burn
        calibPoolClose := calibPoolClose
        calibOpenTimeMs := calib.map (·.openTimeMs)
        simPoolKlines := simPool }
    pure (data, { s with obsData := some data })

/-- `decide()`: the range chosen from the observed prices. -/
def decide [FloorRing K] (lib : Libm K) (d : Data K) :
    Py (Decision (RangeConfig K)) := do
  let risk := ((d.inputs.lookup "risk").getD (.str "balanced")).asText?
  let rng ← selectRange lib d.calibPoolClose d.rawPrice (risk.getD "")
    d.feeTier d.horizonDays d.tickSpacing
  pure { kind := "v3_range", params := rng }

/-- The replay's parameters, `checkpoint_hours` from the instance. -/
def simParams (a : PcsRebalancerAgent K) (d : Data K) : Py (SimParams K) := do
  let capitalVal ← (PyVal.dict d.inputs).item "capital_usd"
  let capital ← capitalVal.number
  pure
    { capitalUsd := capital
      feeAprBase := d.feeApr
      gasOpenUsd := d.gasOpenUsd
      gasCloseUsd := d.gasCloseUsd
      checkpointHours := a.checkpointHours }

/-- `act()`: the replay of the chosen range over the kept candles. -/
def act [FloorRing K] (a : PcsRebalancerAgent K) (lib : Libm K)
    (s : State K) (dec : Decision (RangeConfig K)) (ctx : ExecContext) :
    Py (Actions × State K) :=
  match s.obsData with
  | none => raise .KeyError "'sim_pool_klines'"
  | some d =>
      if d.simPoolKlines.isEmpty then raise .KeyError "'open_time_ms'"
      else if ctx.tier < 2 then do
        let p ← a.simParams d
        let sim ← simulateRebalancer lib d.simPoolKlines dec.params p
        pure ({}, { s with sim := some sim })
      else do
        let _ ← ctx.requireSigner
        pure ({}, s)

/-- `report()`: the replay's net fees, or 0 where there was none. -/
def report (s : State K) : Py (Result K) :=
  match s.sim with
  | none => .ok (manifest.result 0)
  | some r => .ok (manifest.result r.netFeesUsd)

/-- The agent an instance is. -/
def agent [FloorRing K] (a : PcsRebalancerAgent K) (lib : Libm K) :
    Agent K (State K) (Data K) (RangeConfig K) where
  manifest := manifest
  init := ⟨none, none⟩
  snapshot := Data.toVal
  observe := a.observe lib
  decide := decide lib
  act := a.act lib
  report := fun s _ _ => report s

end PcsRebalancerAgent

end PcsRebalancer

end Proofstand
