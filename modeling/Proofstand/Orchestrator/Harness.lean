/-
`orchestrator/harness.py`: `run_hire`, from the raw inputs to the
receipt's values. Persistence, phase callbacks and wall times are left
out.

`run_hire` is cut in three where its phases meet: `prepare` ends with the
decision, `conclude` acts and reports, `settle` runs the baseline and
writes the receipt's values. The world may change in between: `prepare`
takes the world at `observe()`, `settle` the one at the baseline.

# What is left as a parameter

`sha` stands for sha256 of the text that `canonical_hash` makes, and `lib`
for the functions of `math`; nothing is assumed of either here.
The agent is any record of `Agents.Base`: `decide` is a function, and
equality of its decisions can be decided, since the harness compares two.

# Guards

The guards stand where the source has them: the tier and the inputs before
the observation, purity after it, signed actions below tier 2 after
`act()`, the units and the metrics of the two results at the end. Each
raises; a run that returns has passed all of them, which
`Orchestrator.Proofs.Harness` reads back part by part.
-/
import Proofstand.Orchestrator.Baselines

namespace Proofstand

namespace Harness

variable {K S D P : Type} [Field K] [LinearOrder K]

/-- `HireOutcome`: what a hire came to. -/
structure HireOutcome (K : Type) where
  agentId : String
  tier : Nat
  taskHash : String
  dataSnapshotHash : String
  agentRun : Result K
  baselineRun : Result K
  delta : K
  favorable : Bool
  merkleLeaf : String

/-- `agent_value`. -/
def HireOutcome.agentValue (o : HireOutcome K) : K := o.agentRun.value

/-- `baseline_value`. -/
def HireOutcome.baselineValue (o : HireOutcome K) : K := o.baselineRun.value

/-- `assert_pure`: `decide()` twice, with one answer. -/
def assertPure [DecidableEq P] (agent : Agent K S D P) (d : D) :
    Py (Decision P) := do
  let d1 ← agent.decide d
  let d2 ← agent.decide d
  if d1 ≠ d2 then raise .AssertionError "decide() is not pure"
  else pure d1

/-- `_favorable`. -/
def favorable (delta : K) (m : Manifest K) : Bool :=
  if delta = 0 then false
  else if m.advantageMetric.higherIsBetter then 0 < delta else delta < 0

/-- The value whose hash is the task's. -/
def task (m : Manifest K) (tier : Nat) (inputs : Dict K) : PyVal K :=
  .dict [("agent", .str m.id), ("tier", .int tier), ("inputs", .dict inputs)]

-- ================================================== up to the decision

/-- What `run_hire` holds when the decision is made. -/
structure Prepared (K S D P : Type) where
  tier : Nat
  taskHash : String
  ctx : ExecContext
  data : D
  state : S
  snapshotHash : String
  decision : Decision P

/-- The inputs a run works on: the raw ones, if valid, with defaults. -/
def acceptInputs (m : Manifest K) (tier : Nat) (raw : Dict K) :
    Py (Dict K) :=
  if tier ∉ m.tiers then
    raise .ValueError
      s!"{m.id} does not offer tier {tier} (offers {m.tiers})"
  else if (m.validateInputs raw).isEmpty then .ok (m.applyDefaults raw)
  else raise .InputValidationError "input validation failed"

/-- From the raw inputs to the decision. -/
def prepare [DecidableEq P] (sha : PyVal K → String) (agent : Agent K S D P)
    (tier : Nat) (raw : Dict K) (signer : Option String) (w : World K) :
    Py (Prepared K S D P) := do
  let inputs ← acceptInputs agent.manifest tier raw
  let taskHash := canonicalHash sha (task agent.manifest tier inputs)
  let ctx ← ExecContext.forTier tier signer
  let (data, state) ← agent.observe agent.init inputs w
  let snapshotHash := canonicalHash sha (agent.snapshot data)
  let decision ← assertPure agent data
  pure { tier, taskHash, ctx, data, state, snapshotHash, decision }

-- ================================================ from there to a receipt

/-- The value whose hash is the receipt's leaf. -/
def leafValue (m : Manifest K) (tier : Nat) (taskHash snapshotHash : String)
    (agentResult : Result K) (baselineValue delta : K) : PyVal K :=
  .dict
    [("agent", .str m.id), ("tier", .int tier),
     ("task_hash", .str taskHash),
     ("data_snapshot_hash", .str snapshotHash),
     ("metric", .str agentResult.metric), ("unit", .str agentResult.unit),
     ("agent_value", .float (.fin agentResult.value)),
     ("baseline_value", .float (.fin baselineValue)),
     ("delta", .float (.fin delta))]

/-- The baseline on the same observation, and the receipt's values. -/
def settle (sha : PyVal K → String) (lib : Libm K) (m : Manifest K)
    (tier : Nat) (taskHash snapshotHash : String) (data : PyVal K)
    (agentResult : Result K) (w : World K) : Py (HireOutcome K) := do
  let baselineResult ← Baselines.runBaseline lib m.baseline data m w
  if baselineResult.unit ≠ agentResult.unit
      ∨ baselineResult.metric ≠ agentResult.metric then
    raise .ValueError
      ("baseline metric/unit mismatch: agent " ++ agentResult.metric ++ "/"
        ++ agentResult.unit ++ " vs baseline " ++ baselineResult.metric
        ++ "/" ++ baselineResult.unit)
  else
    let delta := agentResult.value - baselineResult.value
    pure
      { agentId := m.id
        tier := tier
        taskHash := taskHash
        dataSnapshotHash := snapshotHash
        agentRun := agentResult
        baselineRun := baselineResult
        delta := delta
        favorable := favorable delta m
        merkleLeaf := canonicalHash sha
          (leafValue m tier taskHash snapshotHash agentResult
            baselineResult.value delta) }

/-- Acting and reporting on the decision, then settling. -/
def conclude (sha : PyVal K → String) (lib : Libm K)
    (agent : Agent K S D P) (p : Prepared K S D P) (w : World K) :
    Py (HireOutcome K) := do
  let (actions, state) ← agent.act p.state p.decision p.ctx
  if p.tier < 2 ∧ (actions.txHashes ≠ [] ∨ p.ctx.signer.isSome) then
    raise .TierViolation
      (s!"tier {p.tier} agent produced signed actions: "
        ++ reprTexts actions.txHashes)
  else
    let agentResult ← agent.report state p.decision actions
    settle sha lib agent.manifest p.tier p.taskHash p.snapshotHash
      (agent.snapshot p.data) agentResult w

/-- `run_hire`. -/
def runHire [DecidableEq P] (sha : PyVal K → String) (lib : Libm K)
    (agent : Agent K S D P) (tier : Nat) (raw : Dict K)
    (signer : Option String) (atObserve atBaseline : World K) :
    Py (HireOutcome K) := do
  let p ← prepare sha agent tier raw signer atObserve
  conclude sha lib agent p atBaseline

end Harness

end Proofstand
