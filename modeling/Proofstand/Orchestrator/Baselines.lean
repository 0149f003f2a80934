/-
`orchestrator/baselines.py`: the counterfactual runners. A baseline
reads the observation's dict; the world it takes is the one at the
moment it runs.

# What a rule reads

Each rule is a function of the observation's dict, the manifest and the
world of that moment; `zero`, the headline rule and `no_action` do not look
at the world. `hodl` and `static_range` end in a gas price, which is read
when they run and is in no snapshot; `manual_analyst` reads a file.

# Errors

Where a key is missing that a rule needs, `need` raises
`BaselineIncomplete` with the names of those that are. An item that is not
what a rule takes it for raises where the source's `float()` or its index
would. An operation without a measured gas figure makes `hodl` incomplete,
and `static_range` counts no gas for it.
-/
import Proofstand.Agents.Base
import Proofstand.Data.Calibrate

namespace Proofstand

namespace Baselines

open Calibrate

variable {K : Type} [Field K] [LinearOrder K]

/-- `_need`: every key must be there. -/
def need (data : PyVal K) (keys : List String) : Py Unit :=
  let missing := keys.filter fun k => !data.hasKey k
  if missing.isEmpty then .ok ()
  else raise .BaselineIncomplete
    ("Observation missing " ++ reprTexts missing ++ " for this baseline")

/-- `float(d[k])`, as an operand. -/
def numberAt (data : PyVal K) (k : String) : Py K := do
  let v ← data.item k
  v.number

/-- `except GasUnitUnmeasured`. -/
def onUnmeasured {α : Type} (handler : Exc → Py α) : Py α → Py α
  | .error e => if e.cls = .GasUnitUnmeasured then handler e else .error e
  | .ok a => .ok a

-- ========================================================= the policies

/-- Zero, in the manifest's metric and unit. -/
def zero (m : Manifest K) : Py (Result K) := .ok (m.result 0)

/-- Buy the capital's worth at the first candle's open, mark it at the
last one's close, less one swap's gas. -/
def hodl (data : PyVal K) (m : Manifest K) (w : World K) :
    Py (Result K) := do
  need data ["klines", "inputs"]
  let klines ← data.item "klines"
  let inputs ← data.item "inputs"
  let capital ← numberAt inputs "capital_usd"
  let first ← klines.first
  let p0 ← numberAt first "open"
  let last ← klines.last
  let p1 ← numberAt last "close"
  let qty ← pyDiv capital p0
  let gross := qty * p1 - capital
  let gas ← onUnmeasured (fun e => raise .BaselineIncomplete e.msg)
    (gasCostUsd w "swap_v2")
  pure (m.result (gross - gas))

/-- The fee rate: the observation's own, or its pool days'. -/
def feeRate (data : PyVal K) : Py K :=
  if data.hasKey "fee_apr" then numberAt data "fee_apr"
  else do
    need data ["pool_day_datas"]
    let pdd ← data.item "pool_day_datas"
    feeApr pdd 30

/-- One full-range position held over the horizon: fees, less expected
IL, less a mint's and a burn's gas. -/
def staticRange (lib : Libm K) (data : PyVal K) (m : Manifest K)
    (w : World K) : Py (Result K) := do
  need data ["vol_annual", "inputs", "horizon_days"]
  let inputs ← data.item "inputs"
  let capital ← numberAt inputs "capital_usd"
  let horizon ← numberAt data "horizon_days"
  let apr ← feeRate data
  let fees := capital * apr * horizon / 365
  let vol ← numberAt data "vol_annual"
  let il ← ilEstimate lib vol horizon (999999 / 1000000)
  let gas ← onUnmeasured (fun _ => .ok 0) do
    let mint ← gasCostUsd w "v3_mint"
    let burn ← gasCostUsd w "v3_burn"
    pure (mint + burn)
  pure (m.result (fees - capital * il - gas))

/-- `_headline`: the advertised APR of a pool. -/
def headline (pool : PyVal K) : Py (PyFloat K) :=
  match pool with
  | .dict kvs =>
      match ["apr", "apy", "headline_apr", "headline_apr_pct"].findSome?
          (fun k => (kvs.lookup k).filter fun v => !v.isNone) with
      | some v => v.pyFloat
      | none => raise .BaselineIncomplete "pool has no apr/apy field"
  | v => raise .AttributeError
      ("'" ++ v.typeName ++ "' object has no attribute 'get'")

/-- The first pool with the highest advertised APR, past `best`. -/
def topPool (best : PyVal K) (apr : PyFloat K) :
    List (PyVal K) → Py (PyVal K)
  | [] => .ok best
  | p :: ps => do
      let a ← headline p
      if apr.lt a then topPool p a ps else topPool best apr ps

/-- `max(pools, key=_headline)`. -/
def maxPool : List (PyVal K) → Py (PyVal K)
  | [] => raise .BaselineIncomplete "no pools to rank"
  | p :: ps => do
      let a ← headline p
      topPool p a ps

/-- The naive pick's realistic yield, or its headline. -/
def topHeadlineApr (data : PyVal K) (m : Manifest K) : Py (Result K) := do
  need data ["pools"]
  let pools ← data.item "pools"
  if pools.truthy then
    let ps ← pools.elements
    let top ← maxPool ps
    let head ← headline top
    let value ←
      match (top.get? "net_apr_pct").filter fun v => !v.isNone with
      | some v => v.number
      | none => head.finite
    pure (m.result value)
  else raise .BaselineIncomplete "no pools to rank"

/-- The liquidation the replay charges when nobody acts. -/
def noAction (data : PyVal K) (m : Manifest K) : Py (Result K) := do
  need data ["min_hf"]
  let v ← data.item "min_hf"
  let minHf ← v.pyFloat
  if PyFloat.le (.fin 1) minHf then pure (m.result 0)
  else if data.hasKey "liquidation_loss_usd" then do
    let loss ← numberAt data "liquidation_loss_usd"
    pure (m.result (-loss))
  else do
    need data ["debt_usd", "liq_penalty_pct"]
    let debt ← numberAt data "debt_usd"
    let pen ← numberAt data "liq_penalty_pct"
    pure (m.result (-(debt * pen)))

/-- A human's recorded time for the target. The table's keys are
addresses, which only a text is. -/
def manualAnalyst (data : PyVal K) (m : Manifest K) (w : World K) :
    Py (Result K) := do
  need data ["inputs"]
  let inputs ← data.item "inputs"
  let given := ((inputs.getD "target" (.str "")).asText?).getD ""
  match w.manualBaselines with
  | none =>
      raise .BaselineIncomplete "fixtures/manual_baselines.json not present"
  | some table =>
      let row? := fun k => (table.get? k).filter PyVal.truthy
      match (row? given.toLower).or (row? given) with
      | none =>
          raise .BaselineIncomplete
            s!"no manual baseline recorded for target {given.toLower}"
      | some row =>
          if row.hasKey m.advantageMetric.name then do
            let value ← numberAt row m.advantageMetric.name
            pure (m.result value)
          else
            raise .BaselineIncomplete
              ("manual baseline for " ++ given.toLower ++ " has no '"
                ++ m.advantageMetric.name ++ "'")

/-- `run_baseline`. -/
def runBaseline (lib : Libm K) (baselineId : String) (data : PyVal K)
    (m : Manifest K) (w : World K) : Py (Result K) :=
  if baselineId = "hodl" then hodl data m w
  else if baselineId = "static_range" then staticRange lib data m w
  else if baselineId = "top_headline_apr" then topHeadlineApr data m
  else if baselineId = "no_action" then noAction data m
  else if baselineId = "manual_analyst" then manualAnalyst data m w
  else if baselineId = "zero" then zero m
  else raise .KeyError
    ("unknown baseline '" ++ baselineId ++ "'; one of "
      ++ reprTexts ["hodl", "manual_analyst", "no_action", "static_range",
        "top_headline_apr", "zero"])

end Baselines

end Proofstand
