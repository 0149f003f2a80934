/-
The tables of the schema: `agents`, `runs` and `receipts`, and the
INSERTs the harness runs on them.

A row has the columns some modelled statement reads; moments are
microseconds. A row's id, and the moment a column defaults to, are the
server's and come with the insert; what the server refuses (a duplicate
key, an agent that is not there) is raised.

# Numbers in columns

`value`, `delta` and the other columns of type NUMERIC are bound as floats,
and are taken to keep them exactly. PostgreSQL casts a float8 to NUMERIC
through its 15 significant digits, so a float that needs 16 or 17 is stored
as the decimal next to it; the harness hashes the number it binds, not the
one it would read back. What is proved of a row's numbers and of its leaf is
about the numbers that were bound.
-/
import Proofstand.Agents.Base
import Proofstand.Anchor.Store
import Proofstand.Lib.Session

namespace Proofstand

open Anchor (Uuid)

variable {K : Type}

/-- A manifest with the fields the marketplace shows. -/
structure MarketManifest (K : Type) extends Manifest K where
  name : String
  category : String

-- ================================================================ tables

/-- `agents`. -/
structure AgentRow where
  id : String
  category : String
  deriving DecidableEq

/-- `runs.kind`. -/
inductive RunKind
  | agent | baseline
  deriving DecidableEq, Repr

/-- `runs.status`. -/
inductive RunStatus
  | queued | running | ok | failed | halted
  deriving DecidableEq, Repr

/-- The `outputs` column: the result, and an agent run's hashes. The
decision beside them is left out, nothing reads it. -/
structure RunOutputs (K : Type) where
  result : Result K
  txHashes : List String := []

/-- `runs`. -/
structure RunRow (K : Type) where
  id : Uuid
  agentId : String
  kind : RunKind
  pairRunId : Option Uuid
  tier : Int
  taskHash : String
  status : RunStatus
  startedAt : Int
  wallSeconds : Option K
  gasWei : K
  protocolFeesUsd : K
  agentFeeUsd : K
  inputs : Dict K
  outputs : Option (RunOutputs K)
  outputUri : Option String := none
  dataSnapshotHash : String

/-- `receipts`. -/
structure ReceiptRow (K : Type) where
  id : Uuid
  agentRunId : Uuid
  baselineRunId : Uuid
  metric : String
  unit : String
  agentValue : K
  baselineValue : K
  delta : K
  merkleLeaf : String
  batchId : Option Uuid := none
  anchoredTx : Option String := none
  createdAt : Int

/-- The three tables, each in the order of its INSERTs. -/
structure Db (K : Type) where
  agents : List AgentRow
  runs : List (RunRow K)
  receipts : List (ReceiptRow K)

-- ============================================================ statements

/-- `INSERT INTO agents … ON CONFLICT (id) DO UPDATE`. -/
def upsertAgent (row : AgentRow) : Session.Block Exc (Db K) Unit := fun db =>
  let agents :=
    if db.agents.any fun a => a.id = row.id then
      db.agents.map fun a => if a.id = row.id then row else a
    else db.agents ++ [row]
  .ok ((), { db with agents := agents })

/-- `INSERT INTO runs … RETURNING id`. -/
def insertRun (row : RunRow K) : Session.Block Exc (Db K) Uuid := fun db =>
  if db.runs.any fun r => r.id = row.id ∧ r.startedAt = row.startedAt then
    raise .DatabaseError "duplicate key value violates unique constraint"
  else if db.agents.any fun a => a.id = row.agentId then
    .ok (row.id, { db with runs := db.runs ++ [row] })
  else raise .DatabaseError "insert violates foreign key constraint"

/-- `INSERT INTO receipts … RETURNING id`. -/
def insertReceipt (row : ReceiptRow K) : Session.Block Exc (Db K) Uuid :=
  fun db =>
    if db.receipts.any fun r => r.id = row.id then
      raise .DatabaseError "duplicate key value violates unique constraint"
    else .ok (row.id, { db with receipts := db.receipts ++ [row] })

end Proofstand
