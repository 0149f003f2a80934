/-
`orchestrator/queries.py`: the receipts the API answers with; and
`refresh_agent_stats()`, the schema's own SQL.

The statistics are the rows the statement upserts; their drawdown column,
which it does not name, and the moment of the refresh are left out.

# Four meanings of a win

The harness goes by the manifest's `higher_is_better`; the API has a set
of metric names that are better when lower; the SQL counts deltas above
zero. They are translated each by itself, and
`Orchestrator.Proofs.Wins` compares them.

# Order

`ORDER BY created_at DESC LIMIT` is a stable sort and a prefix, so that
rows of one moment keep the tables' order, where the server may return
them in any. A join is the list of pairs that match, in the order of the
tables.
-/
import Proofstand.Lib.Tables
import Proofstand.Orchestrator.Db
import Proofstand.Python.Statistics

namespace Proofstand

open Anchor (Uuid uuidStr)

variable {K : Type} [Field K] [LinearOrder K]

namespace Queries

-- ============================================================== receipts

/-- `_LOWER_IS_BETTER`. -/
def lowerIsBetter : List String := ["wall_seconds"]

/-- `_favorable`. -/
def favorable (metric : String) (delta : K) : Bool :=
  if delta = 0 then false
  else if metric ∈ lowerIsBetter then delta < 0 else 0 < delta

/-- `ReceiptOut`: a receipt with its runs. -/
structure ReceiptOut (K : Type) where
  id : String
  agentId : String
  agentRunId : String
  baselineRunId : String
  metric : String
  unit : String
  agentValue : K
  baselineValue : K
  delta : K
  favorable : Bool
  merkleLeaf : String
  batchId : Option String
  anchoredTx : Option String
  createdAt : Int

/-- `_receipt_out`, of a receipt joined to its agent run. -/
def receiptOut (r : ReceiptRow K) (ar : RunRow K) : ReceiptOut K where
  id := uuidStr r.id
  agentId := ar.agentId
  agentRunId := uuidStr r.agentRunId
  baselineRunId := uuidStr r.baselineRunId
  metric := r.metric
  unit := r.unit
  agentValue := r.agentValue
  baselineValue := r.baselineValue
  delta := r.delta
  favorable := favorable r.metric r.delta
  merkleLeaf := r.merkleLeaf
  batchId := r.batchId.map uuidStr
  anchoredTx := r.anchoredTx
  createdAt := r.createdAt

/-- `receipts r JOIN runs ar ON ar.id = r.agent_run_id`. -/
def joinAgentRun (db : Db K) : List (ReceiptRow K × RunRow K) :=
  db.receipts.flatMap fun r =>
    (db.runs.filter fun ar => ar.id = r.agentRunId).map fun ar => (r, ar)

/-- `… ORDER BY r.created_at DESC LIMIT :lim`. -/
def newest (limit : Nat) (rows : List (ReceiptRow K × RunRow K)) :
    List (ReceiptOut K) :=
  ((pySortedDesc (fun row => row.1.createdAt) rows).take limit).map
    fun row => receiptOut row.1 row.2

/-- `receipts_for`: the newest of an agent. -/
def receiptsFor (db : Db K) (agentId : String) (limit : Nat) :
    List (ReceiptOut K) :=
  newest limit ((joinAgentRun db).filter fun row => row.2.agentId = agentId)

/-- `recent_receipts`: the newest of all. -/
def recentReceipts (db : Db K) (limit : Nat) : List (ReceiptOut K) :=
  newest limit (joinAgentRun db)

/-- `receipt_by_id`. -/
def receiptById (db : Db K) (receiptId : Uuid) : Option (ReceiptOut K) :=
  ((joinAgentRun db).filter fun row => row.1.id = receiptId).head?.map
    fun row => receiptOut row.1 row.2

-- ============================================================ agent_stats

/-- A row of `agent_stats`. -/
structure AgentStats (K : Type) where
  agentId : String
  nRuns : Nat
  windowDays : Option K
  medianWallSeconds : Option K
  winRate : Option K
  medianDelta : Option K
  worstDelta : Option K

/-- `agents a LEFT JOIN runs ar ON … LEFT JOIN receipts rc ON …`, for one
agent. -/
def statsRows (db : Db K) (agentId : String) :
    List (Option (RunRow K) × Option (ReceiptRow K)) :=
  (Tables.leftMatches (db.runs.filter fun ar =>
      ar.agentId = agentId ∧ ar.kind = .agent ∧ ar.status = .ok)).flatMap
    fun ar =>
      (Tables.leftMatches (ar.elim [] fun ar => db.receipts.filter fun rc =>
        rc.agentRunId = ar.id)).map fun rc => (ar, rc)

/-- `avg`, null over no values. -/
def sqlAvg (xs : List K) : Option K :=
  if xs.isEmpty then none else some (xs.sum / xs.length)

/-- The group of one agent. `percentile_cont(0.5)` is the middle. -/
def statsOf (db : Db K) (agentId : String) : AgentStats K :=
  let rows := statsRows db agentId
  let runs := rows.filterMap Prod.fst
  let receipts := rows.filterMap Prod.snd
  { agentId := agentId
    nRuns := runs.length
    windowDays := do
      let last ← (runs.map fun ar => ar.startedAt).max?
      let first ← (runs.map fun ar => ar.startedAt).min?
      pure (((last - first : Int) : K) / 10 ^ 6 / 86400)
    medianWallSeconds := Statistics.middle
      (runs.filterMap fun ar => ar.wallSeconds)
    winRate := sqlAvg (receipts.map fun rc => if 0 < rc.delta then 1 else 0)
    medianDelta := Statistics.middle (receipts.map fun rc => rc.delta)
    worstDelta := (receipts.map fun rc => rc.delta).min? }

/-- `refresh_agent_stats()`: one row for each agent. -/
def refreshAgentStats (db : Db K) : List (AgentStats K) :=
  db.agents.map fun a => statsOf db a.id

end Queries

end Proofstand
