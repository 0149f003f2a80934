/-
`bnb_grid/agent.py`: candles in, a calibrated grid, the paper ledger's
profit out.

`observe()` reads the candles and the gas of a swap, cuts the sim window
and keeps its rows and the gas; `decide()` calibrates a grid on all the
candles, the sim window included; `act()` replays that grid over the rows
that were kept. `report()` publishes the replay's net profit, and where
`act()` has left no replay it raises, as the source does on a `None`. The
rationale and the plots are texts nothing reads.
-/
import Proofstand.Agents.Base
import Proofstand.Agents.BnbGrid.Sim

namespace Proofstand

namespace BnbGrid

open Calibrate

variable {K : Type} [Field K] [LinearOrder K]

/-- The manifest in `agents/bnb_grid/manifest.yaml`. -/
def manifest : Manifest K where
  id := "bnb-grid"
  tiers := [1, 2]
  inputs :=
    [("pair",
      { type := .enum, values := [.str "BNB-USDT"],
        default := .str "BNB-USDT", required := true }),
     ("capital_usd",
      { type := .number, min := some (.fin 50), max := some (.fin 100000),
        required := true }),
     ("grid_levels",
      { type := .number, min := some (.fin 5), max := some (.fin 30),
        default := .int 12 }),
     ("risk",
      { type := .enum,
        values := [.str "tight", .str "balanced", .str "wide"],
        default := .str "balanced" })]
  baseline := "hodl"
  advantageMetric :=
    { name := "net_pnl_usd", unit := "USD", higherIsBetter := true }
  maxLossPct := some 5

/-- The observation's data; `sim_klines` and `klines` are one list. -/
structure Data (K : Type) where
  inputs : Dict K
  sinceMs : Option Int
  gasUsdPerFill : K
  feeBps : K
  slippageBps : K
  calibKlines : List (Kline K)
  simKlines : List (Kline K)

/-- The dict the data is. -/
def Data.toVal (d : Data K) : PyVal K :=
  .dict
    [("inputs", .dict d.inputs),
     ("since_ms", match d.sinceMs with
       | some ms => .int ms
       | none => .none),
     ("gas_usd_per_fill", .float (.fin d.gasUsdPerFill)),
     ("fee_bps", .float (.fin d.feeBps)),
     ("slippage_bps", .float (.fin d.slippageBps)),
     ("calib_klines", .list (d.calibKlines.map Kline.toVal)),
     ("sim_klines", .list (d.simKlines.map Kline.toVal)),
     ("klines", .list (d.simKlines.map Kline.toVal))]

/-- The constructor's parameters. -/
structure BnbGridAgent (K : Type) where
  sinceMs : Option Int
  calibDays : Int
  defaultWindowDays : Int
  feeBps : K
  slippageBps : K

/-- The instance's state. -/
structure State (K : Type) where
  simRows : List (Kline K)
  gas : K
  sim : Option (SimResult K)

namespace BnbGridAgent

/-- The candles of the sim window. -/
def simWindow (a : BnbGridAgent K) (calib : List (Kline K)) :
    List (Kline K) :=
  let sim :=
    match a.sinceMs with
    | some cutoff => calib.filter fun k => cutoff ≤ k.openTimeMs
    | none => tailRows (a.defaultWindowDays * 24) calib
  if sim.length < 2 then tailRows 2 calib else sim

/-- `observe()`: the calibration candles, the gas of a fill, and the candles
to simulate on, all kept for `act()`. -/
def observe (a : BnbGridAgent K) (s : State K) (inputs : Dict K)
    (w : World K) : Py (Data K × State K) := do
  let pairVal ← (PyVal.dict inputs).item "pair"
  let calib ← (w.readKlines (pairVal.asText?.getD "") a.calibDays).read
  let gas ← gasCostUsd w "swap_v2"
  let rows := a.simWindow calib
  let data : Data K :=
    { inputs := inputs
      sinceMs := a.sinceMs
      gasUsdPerFill := gas
      feeBps := a.feeBps
      slippageBps := a.slippageBps
      calibKlines := calib
      simKlines := rows }
  pure (data, { s with simRows := rows, gas := gas })

/-- `decide()`: the grid calibrated to the observed candles. -/
def decide [FloorRing K] (d : Data K) : Py (Decision (GridConfig K)) := do
  if d.calibKlines.isEmpty then raise .KeyError "'open_time_ms'"
  else
    let capitalVal ← (PyVal.dict d.inputs).item "capital_usd"
    let capital ← capitalVal.number
    let levels ← ((d.inputs.lookup "grid_levels").getD (.int 12)).pyInt
    let risk := ((d.inputs.lookup "risk").getD (.str "balanced")).asText?
    let grid ← calibrateGrid d.calibKlines capital levels (risk.getD "")
    pure { kind := "grid", params := grid }

/-- The replay `act()` runs on the rows and the gas price it kept. -/
def act (a : BnbGridAgent K) (s : State K) (dec : Decision (GridConfig K)) :
    Py (Actions × State K) := do
  let sim ← simulate s.simRows dec.params
    { gasUsdPerFill := s.gas
      feeBps := a.feeBps
      slippageBps := a.slippageBps
      maxLossPct := (manifest (K := K)).maxLossPct.getD 0 }
  pure ({}, { s with sim := some sim })

/-- `report()`: the net result of the replay that `act()` ran. -/
def report (s : State K) : Py (Result K) :=
  match s.sim with
  | none => raise .AttributeError "'NoneType' object has no attribute 'win_rate'"
  | some r => .ok (manifest.result r.netPnlUsd)

/-- The agent an instance is. -/
def agent [FloorRing K] (a : BnbGridAgent K) :
    Agent K (State K) (Data K) (GridConfig K) where
  manifest := manifest
  init := ⟨[], 0, none⟩
  snapshot := Data.toVal
  observe := a.observe
  decide := decide
  act := fun s dec _ => a.act s dec
  report := fun s _ _ => report s

end BnbGridAgent

end BnbGrid

end Proofstand
