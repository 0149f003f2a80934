/-
`orchestrator/report.py`: the Agent Advantage Report, from the receipts
joined to their two runs.

The market window of the newest run (it is read out of result outputs,
which are not modelled), the methodology text and the fixed notes are
left out; moments stay numbers where the payload has their ISO texts.
`ORDER BY` leaves rows of one agent and one moment in any order; here they
keep the tables'.

# A task for an agent

The rows are grouped by the agent's id and nothing else. A task's label,
`LIVE` or `BACKTEST`, goes by the highest tier of its rows and the
category; its metric and unit are those of its first row; its deltas,
times and costs are taken over all of them.

# Rounding

Where the source rounds for the payload, so does the model, with the
`pyRound` of `Python.Statistics`; means and medians are exact before that,
and what is compared (a win, a verdict) is compared unrounded.
-/
import Proofstand.Lib.Tables
import Proofstand.Orchestrator.Db
import Proofstand.Python.Statistics

namespace Proofstand

open Anchor (Uuid uuidStr)

variable {K : Type} [Field K] [LinearOrder K]

/-- The registry as the report reads it: an entry's manifest, unless it
has none. -/
abbrev Registry (K : Type) := List (String × Option (MarketManifest K))

/-- `entry.manifest if entry else None`. -/
def Registry.manifest? (reg : Registry K) (agentId : String) :
    Option (MarketManifest K) :=
  (reg.lookup agentId).join

namespace Report

/-- Categories whose runs of tier 0 or 1 are historical replays. -/
def backtestCategories : List String :=
  ["grid", "rebalancing", "health_factor"]

/-- `_REPLAY_METHOD`: how each agent's number comes about. -/
def replayMethods : List (String × String) :=
  [("grid",
      "Policy re-simulated slot-by-slot over historical Binance BNBUSDT "
        ++ "klines for the window above; the hodl baseline is marked to "
        ++ "market on the same kline snapshot. No capital deployed."),
   ("rebalancing",
      "PancakeSwap v3 position lifecycle replayed over historical klines "
        ++ "for the window; the static-range baseline is evaluated on the "
        ++ "same snapshot. Fee APR is pulled live from DefiLlama at run "
        ++ "time. No capital deployed."),
   ("health_factor",
      "Health factor recomputed along a historical price drawdown path; "
        ++ "the no_action baseline replays the liquidation on that same "
        ++ "path. No capital deployed.")]

/-- `_favorable`. -/
def favorable (delta : K) (higherIsBetter : Bool) : Bool :=
  if higherIsBetter then 0 < delta else delta < 0

-- ================================================================= rows

/-- A receipt with its two runs. -/
structure JoinedRow (K : Type) where
  receipt : ReceiptRow K
  agentRun : RunRow K
  baselineRun : RunRow K

/-- `receipts rc JOIN runs ar … JOIN runs br …`. -/
def joinRuns (db : Db K) : List (JoinedRow K) :=
  db.receipts.flatMap fun rc =>
    (db.runs.filter fun ar => ar.id = rc.agentRunId).flatMap fun ar =>
      (db.runs.filter fun br => br.id = rc.baselineRunId).map fun br =>
        ⟨rc, ar, br⟩

/-- `ORDER BY ar.agent_id, rc.created_at`. -/
def rowLe (a b : JoinedRow K) : Prop :=
  a.agentRun.agentId < b.agentRun.agentId
    ∨ a.agentRun.agentId = b.agentRun.agentId
      ∧ a.receipt.createdAt ≤ b.receipt.createdAt

instance : DecidableRel (rowLe (K := K)) := fun a b =>
  inferInstanceAs (Decidable
    (a.agentRun.agentId < b.agentRun.agentId
      ∨ a.agentRun.agentId = b.agentRun.agentId
        ∧ a.receipt.createdAt ≤ b.receipt.createdAt))

/-- `_fetch_rows`. -/
def fetchRows (db : Db K) : List (JoinedRow K) :=
  (joinRuns db).insertionSort rowLe

-- ================================================================= tasks

/-- The label of a task. -/
inductive TaskKind
  | BACKTEST | LIVE
  deriving DecidableEq, Repr

/-- How long the runs of a task took. -/
structure TaskTime (K : Type) where
  agentMedianSeconds : Option K
  agentP90Seconds : Option K
  baselineMedianSeconds : Option K
  baselineIsHuman : Bool
  speedupX : Option K

/-- What they cost. -/
structure TaskCost (K : Type) where
  onChain : Bool
  agentGasWei : K
  agentGasBnb : K
  protocolFeesUsd : K
  agentFeeUsd : K
  note : Option String

/-- How the deltas of a task stand. -/
structure OutputQuality (K : Type) where
  avgDelta : K
  medianDelta : K
  bestDelta : K
  worstDelta : K
  wins : Nat
  losses : Nat
  winRate : K
  verdict : String

/-- One receipt of a task. -/
structure TaskOutput (K : Type) where
  receiptId : String
  url : String
  delta : K
  favorable : Bool
  createdAt : Int
  outputUri : Option String
  anchored : Bool
  batchId : Option String

/-- One task of the report. -/
structure Task (K : Type) where
  agentId : String
  name : String
  category : Option String
  baseline : Option String
  metric : String
  unit : String
  higherIsBetter : Bool
  kind : TaskKind
  replayMethod : Option String
  bothWays : Bool
  n : Nat
  receiptsSpanDays : K
  firstAt : Int
  lastAt : Int
  distinctSnapshots : Nat
  time : TaskTime K
  cost : TaskCost K
  outputQuality : OutputQuality K
  outputs : List (TaskOutput K)

section

variable [FloorRing K]

/-- `sorted(walls)[max(0, int(len(walls) * 0.9) - 1)]`, where there are
any. -/
def p90 (walls : List K) : Option K :=
  (pySorted walls)[walls.length * 9 / 10 - 1]?

/-- The wall times of a group, against a human's. -/
def taskTime (m : Option (MarketManifest K)) (rows : List (JoinedRow K)) :
    TaskTime K :=
  let agentWalls := rows.filterMap fun r => r.agentRun.wallSeconds
  let baseWalls := rows.filterMap fun r => r.baselineRun.wallSeconds
  let agentMedian := Statistics.middle agentWalls
  let baseMedian := Statistics.middle baseWalls
  { agentMedianSeconds := agentMedian.map fun x => pyRound x 3
    agentP90Seconds := (p90 agentWalls).map fun x => pyRound x 3
    baselineMedianSeconds := baseMedian.map fun x => pyRound x 3
    baselineIsHuman := m.any fun m => m.baseline = "manual_analyst"
    speedupX :=
      match agentMedian, baseMedian with
      | some a, some b =>
          if a ≠ 0 ∧ b ≠ 0 ∧ 0 < a then some (pyRound (b / a) 1) else none
      | _, _ => none }

/-- The costs of a group's runs. -/
def taskCost (rows : List (JoinedRow K)) : TaskCost K :=
  let gasWei := (rows.map fun r => r.agentRun.gasWei).sum
  let feesUsd := (rows.map fun r => r.agentRun.protocolFeesUsd).sum
  let agentFeeUsd := (rows.map fun r => r.agentRun.agentFeeUsd).sum
  let onChain := 0 < gasWei ∨ 0 < feesUsd ∨ 0 < agentFeeUsd
  { onChain := onChain
    agentGasWei := if onChain then gasWei else 0
    agentGasBnb := if onChain then pyRound (gasWei / 10 ^ 18) 9 else 0
    protocolFeesUsd := pyRound feesUsd 4
    agentFeeUsd := pyRound agentFeeUsd 4
    note := if onChain then none else
      some "simulated run - no transaction sent, on-chain cost $0" }

/-- The deltas on the good side of zero, -/
def winsOf (higherIsBetter : Bool) (deltas : List K) : Nat :=
  deltas.countP fun d => favorable d higherIsBetter

/-- and those on the bad one. -/
def lossesOf (higherIsBetter : Bool) (deltas : List K) : Nat :=
  deltas.countP fun d => favorable (-d) higherIsBetter

/-- The best delta, -/
def bestOf (higherIsBetter : Bool) (deltas : List K) : Py K :=
  if higherIsBetter then pyMax deltas else pyMin deltas

/-- and the worst, by what the metric counts as good. -/
def worstOf (higherIsBetter : Bool) (deltas : List K) : Py K :=
  if higherIsBetter then pyMin deltas else pyMax deltas

/-- The deltas' mean, median, best, worst and wins, rounded. -/
def outputQuality (higherIsBetter : Bool) (deltas : List K) :
    Py (OutputQuality K) := do
  let best ← bestOf higherIsBetter deltas
  let worst ← worstOf higherIsBetter deltas
  let avg ← Statistics.fmean deltas
  let median ← Statistics.median deltas
  let wins := winsOf higherIsBetter deltas
  pure
    { avgDelta := pyRound avg 6
      medianDelta := pyRound median 6
      bestDelta := pyRound best 6
      worstDelta := pyRound worst 6
      wins := wins
      losses := lossesOf higherIsBetter deltas
      winRate := pyRound (wins / deltas.length) 3
      verdict :=
        if avg ≠ 0 ∧ favorable avg higherIsBetter then
          "agent beats baseline"
        else "no measured advantage" }

/-- One receipt, as the report lists it. -/
def taskOutput (higherIsBetter : Bool) (r : JoinedRow K) : TaskOutput K where
  receiptId := uuidStr r.receipt.id
  url := s!"/receipt/{uuidStr r.receipt.id}"
  delta := pyRound r.receipt.delta 6
  favorable := favorable r.receipt.delta higherIsBetter
  createdAt := r.receipt.createdAt
  outputUri := r.agentRun.outputUri
  anchored := r.receipt.anchoredTx.any fun tx => tx ≠ ""
  batchId := r.receipt.batchId.map uuidStr

/-- A group's rows from its newest on. -/
def newestFirst (rows : List (JoinedRow K)) : List (JoinedRow K) :=
  pySortedDesc (fun r => r.receipt.createdAt) rows

/-- `_task_for_group`. -/
def taskForGroup (agentId : String) (rows : List (JoinedRow K))
    (reg : Registry K) : Py (Task K) := do
  let m := reg.manifest? agentId
  let category := m.map fun m => m.category
  let higherIsBetter :=
    (m.map fun m => m.advantageMetric.higherIsBetter).getD true
  let firstAt ← pyMin (rows.map fun r => r.receipt.createdAt)
  let lastAt ← pyMax (rows.map fun r => r.receipt.createdAt)
  let quality ← outputQuality higherIsBetter
    (rows.map fun r => r.receipt.delta)
  let maxTier ← pyMax (rows.map fun r => r.agentRun.tier)
  let isBacktest :=
    (category.any fun c => c ∈ backtestCategories) ∧ maxTier ≤ 1
  match rows with
  | [] => raise .IndexError "list index out of range"
  | first :: _ =>
      pure
        { agentId := agentId
          name := (m.map fun m => m.name).getD agentId
          category := category
          baseline := m.map fun m => m.baseline
          metric := first.receipt.metric
          unit := first.receipt.unit
          higherIsBetter := higherIsBetter
          kind := if isBacktest then .BACKTEST else .LIVE
          replayMethod :=
            if isBacktest then category.bind fun c => replayMethods.lookup c
            else none
          bothWays := true
          n := rows.length
          receiptsSpanDays :=
            pyRound (((lastAt - firstAt : Int) : K) / 10 ^ 6 / 86400) 3
          firstAt := firstAt
          lastAt := lastAt
          distinctSnapshots :=
            (rows.map fun r => r.agentRun.dataSnapshotHash).dedup.length
          time := taskTime m rows
          cost := taskCost rows
          outputQuality := quality
          outputs := ((newestFirst rows).take 12).map
            (taskOutput higherIsBetter) }

end

-- ============================================================ the report

/-- A task the report knows of without receipts. -/
structure PlannedTask where
  agentId : String
  task : String
  baseline : String
  headline : String

/-- `_PLANNED`. -/
def planned : List PlannedTask :=
  [⟨"bnb-grid", "Grid on BNB/USDT, live window, small real capital", "hodl",
      "net PnL, win rate, max drawdown, window"⟩,
   ⟨"bsc-sentry", "Audit BSC tokens against a manual analyst",
      "manual_analyst (human, stopwatch)", "wall time + findings diff"⟩,
   ⟨"pcs-rebalancer", "PCS v3 LP, same pair / capital / window",
      "static_range", "net fees after gas + IL"⟩,
   ⟨"pcs-yield", "Yield routing across PCS v3 pools", "top_headline_apr",
      "net APR delta"⟩]

/-- `_NOT_RUN_REASON`. -/
def notRunReason : List (String × String) :=
  [("bsc-sentry",
      "No both-ways receipts yet: the baseline is a human analyst timed "
        ++ "with a stopwatch (fixtures/manual_baselines.json) and no real "
        ++ "audit has been recorded — only the sample row. Rule R2/R3: not "
        ++ "fabricated to fill the table."),
   ("pcs-yield",
      "Held (T-033): needs a working The Graph query key for the "
        ++ "PancakeSwap v3 subgraph. Rule R1 forbids inventing pool data, "
        ++ "so the agent stays parked until the key is live.")]

/-- It as a row. -/
structure PlannedRow where
  planned : PlannedTask
  status : String
  reason : Option String

/-- The report. -/
structure AdvantageReport (K : Type) where
  nTasksWithData : Nat
  meetsMin3Bothways : Bool
  hasTradingOrSecurity : Bool
  backtestedTasks : List String
  caveats : List String
  tasks : List (Task K)
  planned : List PlannedRow

/-- A planned task with what has become of it. -/
def plannedRow (withData : List String) (p : PlannedTask) : PlannedRow :=
  if p.agentId ∈ withData then ⟨p, "has receipts", none⟩
  else
    ⟨p, "not yet run", some ((notRunReason.lookup p.agentId).getD
      "no both-ways receipts recorded yet")⟩

/-- `by_agent`, and `sorted(by_agent.items())`. -/
def byAgent (db : Db K) : List (String × List (JoinedRow K)) :=
  pySortedBy Prod.fst (Tables.groups
    (fun r : JoinedRow K => r.agentRun.agentId) (fetchRows db))

/-- `build_advantage_report`. -/
def buildAdvantageReport [FloorRing K] (reg : Registry K) (db : Db K) :
    Py (AdvantageReport K) := do
  let tasks ← (byAgent db).mapM fun (agentId, rows) =>
    taskForGroup agentId rows reg
  let backtests := (tasks.filter fun t => t.kind = .BACKTEST).map
    fun t => t.agentId
  let tradingOrSecurity := tasks.filter fun t =>
    t.category.any fun c => c ∈ ["grid", "rebalancing", "security"]
  pure
    { nTasksWithData := tasks.length
      meetsMin3Bothways := 3 ≤ tasks.length
      hasTradingOrSecurity := 1 ≤ tradingOrSecurity.length
      backtestedTasks := backtests
      caveats :=
        (if 3 ≤ tasks.length then [] else
          [s!"Only {tasks.length} task(s) have both-ways receipts; "
            ++ "spec.md §10 wants ≥3. See `planned` for what is outstanding "
            ++ "and why."])
        ++ (if backtests.isEmpty then [] else
          [", ".intercalate backtests
            ++ " are BACKTEST replays, not live capital."])
      tasks := tasks
      planned := planned.map
        (plannedRow (tasks.map fun t => t.agentId)) }

end Report

end Proofstand
