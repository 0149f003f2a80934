/-
`orchestrator/harness.py` with its database: `run_hire` for an agent that
may do anything the harness can survive, and `_persist`.

A `LiveAgent`'s methods may raise, and may answer differently every time:
each takes the instance state and leaves another. A return value that is
not of its annotated class fails at its first use, between the same two
phases, and counts as raised. The baseline is any call that may raise;
phase callbacks and printed texts are left out. `_persist` opens two
sessions, one for the agent's row and one for the runs and the receipt;
what the server answers in them is the `Server`'s.

# An instance

A `LiveAgent` is a state machine without a specification: every method
takes the state, and raises or leaves another one. So a purity check can
pass by accident and `report` can contradict `act`; only what the harness
itself checks is known of the results.

# The database

The second session is one transaction: its writes are on a copy of the
tables, which replaces them at the commit. The server may refuse any of
its INSERTs, or the commit, and then the copy is dropped. The first
session is committed before the second begins, so an agent's row may stay
behind without a run.
-/
import Proofstand.Orchestrator.Db
import Proofstand.Orchestrator.Harness

namespace Proofstand

open Anchor (Uuid)

variable {K S D P : Type} [Field K] [LinearOrder K]

/-- An agent as an instance, whatever it does. -/
structure LiveAgent (K S D P : Type) where
  manifest : MarketManifest K
  init : S
  snapshot : D → PyVal K
  observe : S → Dict K → Py (D × S)
  decide : S → D → Py (Decision P × S)
  act : S → Decision P → ExecContext → Py (Actions × S)
  report : S → Decision P → Actions → Py (Result K × S)

/-- An agent whose methods are functions of what they are given, as an
instance that observes one world. -/
def LiveAgent.ofAgent (agent : Agent K S D P) (name category : String)
    (w : World K) : LiveAgent K S D P where
  manifest := { agent.manifest with name, category }
  init := agent.init
  snapshot := agent.snapshot
  observe := fun s inputs => agent.observe s inputs w
  decide := fun s d => (agent.decide d).map fun dec => (dec, s)
  act := agent.act
  report := fun s dec actions =>
    (agent.report s dec actions).map fun r => (r, s)

/-- What the database server answers in the two sessions of a hire, the
ids and moments it gives, and the measured wall times. -/
structure Server (K : Type) where
  upsert : Py Unit
  upsertCommit : Py Unit
  agentRunId : Py Uuid
  baselineRunId : Py Uuid
  receiptId : Py Uuid
  commit : Py Unit
  pairId : Uuid
  now : Int
  createdAt : Int
  agentWall : K
  baselineWall : K

namespace Persist

open Harness Session

-- ================================================== up to the decision

/-- `assert_pure` on an instance: `decide()` twice, with one answer. -/
def assertPure [DecidableEq P] (agent : LiveAgent K S D P) (s : S) (d : D) :
    Py (Decision P × S) := do
  let (d1, s) ← agent.decide s d
  let (d2, s) ← agent.decide s d
  if d1 ≠ d2 then raise .AssertionError "decide() is not pure"
  else pure (d1, s)

/-- What `run_hire` holds when `act()` is called. -/
structure Prepared (K S D P : Type) where
  inputs : Dict K
  taskHash : String
  ctx : ExecContext
  data : D
  state : S
  snapshotHash : String
  decision : Decision P

/-- `run_hire` up to the decision. -/
def prepare [DecidableEq P] (sha : PyVal K → String)
    (agent : LiveAgent K S D P) (tier : Nat) (raw : Dict K)
    (signer : Option String) : Py (Prepared K S D P) := do
  let m := agent.manifest.toManifest
  let inputs ← acceptInputs m tier raw
  let taskHash := canonicalHash sha (task m tier inputs)
  let ctx ← ExecContext.forTier tier signer
  let (data, state) ← agent.observe agent.init inputs
  let snapshotHash := canonicalHash sha (agent.snapshot data)
  let (decision, state) ← assertPure agent state data
  pure { inputs, taskHash, ctx, data, state, snapshotHash, decision }

-- ======================================================== to the outcome

/-- The receipt's values from the two results. -/
def compare (sha : PyVal K → String) (m : Manifest K) (tier : Nat)
    (taskHash snapshotHash : String) (agentResult : Result K)
    (baseline : Py (Result K)) : Py (HireOutcome K) := do
  let baselineResult ← baseline
  if baselineResult.unit ≠ agentResult.unit
      ∨ baselineResult.metric ≠ agentResult.metric then
    raise .ValueError
      ("baseline metric/unit mismatch: agent " ++ agentResult.metric ++ "/"
        ++ agentResult.unit ++ " vs baseline " ++ baselineResult.metric
        ++ "/" ++ baselineResult.unit)
  else
    let delta := agentResult.value - baselineResult.value
    pure
      { agentId := m.id
        tier := tier
        taskHash := taskHash
        dataSnapshotHash := snapshotHash
        agentRun := agentResult
        baselineRun := baselineResult
        delta := delta
        favorable := favorable delta m
        merkleLeaf := canonicalHash sha
          (leafValue m tier taskHash snapshotHash agentResult
            baselineResult.value delta) }

/-- What there is to persist. -/
structure Performed (K : Type) where
  inputs : Dict K
  actions : Actions
  outcome : HireOutcome K

/-- From `act()` on, the baseline on the same observation included. -/
def conclude (sha : PyVal K → String) (baseline : PyVal K → Py (Result K))
    (agent : LiveAgent K S D P) (tier : Nat) (p : Prepared K S D P) :
    Py (Performed K) := do
  let (actions, state) ← agent.act p.state p.decision p.ctx
  if tier < 2 ∧ (actions.txHashes ≠ [] ∨ p.ctx.signer.isSome) then
    raise .TierViolation
      (s!"tier {tier} agent produced signed actions: "
        ++ reprTexts actions.txHashes)
  else
    let (agentResult, _) ← agent.report state p.decision actions
    let outcome ← compare sha agent.manifest.toManifest tier p.taskHash
      p.snapshotHash agentResult (baseline (agent.snapshot p.data))
    pure ⟨p.inputs, actions, outcome⟩

-- =========================================================== _persist

/-- `ensure_agent`, in a session of its own. -/
def ensureAgent (m : MarketManifest K) (sv : Server K) (db : Db K) :
    Outcome Exc (Db K) Unit :=
  session sv.upsertCommit
    (do
      let _ ← (sv.upsert : Block Exc (Db K) Unit)
      upsertAgent ⟨m.id, m.category⟩) db

/-- A row of the pair; no INSERT names the cost columns, which default
to 0. -/
def runRow (o : HireOutcome K) (kind : RunKind) (id pairId : Uuid)
    (now : Int) (wall : K) (inputs : Dict K) (outputs : RunOutputs K) :
    RunRow K where
  id := id
  agentId := o.agentId
  kind := kind
  pairRunId := some pairId
  tier := o.tier
  taskHash := o.taskHash
  status := .ok
  startedAt := now
  wallSeconds := some wall
  gasWei := 0
  protocolFeesUsd := 0
  agentFeeUsd := 0
  inputs := inputs
  outputs := some outputs
  dataSnapshotHash := o.dataSnapshotHash

/-- The three INSERTs of the second session. -/
def writePair (sv : Server K) (d : Performed K) :
    Block Exc (Db K) (Uuid × Uuid × Uuid) := do
  let o := d.outcome
  let agentRunId ← (sv.agentRunId : Block Exc (Db K) Uuid)
  let a ← insertRun (runRow o .agent agentRunId sv.pairId sv.now
    sv.agentWall d.inputs ⟨o.agentRun, d.actions.txHashes⟩)
  let baselineRunId ← (sv.baselineRunId : Block Exc (Db K) Uuid)
  let b ← insertRun (runRow o .baseline baselineRunId sv.pairId sv.now
    sv.baselineWall d.inputs ⟨o.baselineRun, []⟩)
  let receiptId ← (sv.receiptId : Block Exc (Db K) Uuid)
  let r ← insertReceipt
    { id := receiptId
      agentRunId := a
      baselineRunId := b
      metric := o.agentRun.metric
      unit := o.agentRun.unit
      agentValue := o.agentValue
      baselineValue := o.baselineValue
      delta := o.delta
      merkleLeaf := o.merkleLeaf
      createdAt := sv.createdAt }
  pure (a, b, r)

/-- `_persist`. -/
def persist (m : MarketManifest K) (sv : Server K) (d : Performed K)
    (db : Db K) : Outcome Exc (Db K) (Uuid × Uuid × Uuid) :=
  afterwards (ensureAgent m sv db) fun _ db =>
    session sv.commit (writePair sv d) db

/-- What `run_hire` returns; the ids of the two runs and the receipt, if
it persisted them. -/
structure Hired (K : Type) where
  outcome : HireOutcome K
  written : Option (Uuid × Uuid × Uuid)

/-- `run_hire`. -/
def runHire [DecidableEq P] (sha : PyVal K → String)
    (baseline : PyVal K → Py (Result K)) (agent : LiveAgent K S D P)
    (tier : Nat) (raw : Dict K) (signer : Option String) (persisted : Bool)
    (sv : Server K) (db : Db K) : Outcome Exc (Db K) (Hired K) :=
  afterwards
    (prepare sha agent tier raw signer >>=
      conclude sha baseline agent tier, db)
    fun d db =>
      if persisted then
        afterwards (persist agent.manifest sv d db) fun ids db =>
          (.ok ⟨d.outcome, some ids⟩, db)
      else (.ok ⟨d.outcome, none⟩, db)

end Persist

end Proofstand
