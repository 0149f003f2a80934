/-
`agents/base.py`: what every agent implements, and the records it hands
to the harness.

# What an agent is here

An agent class is an `Agent`: its manifest, and its four methods as
functions of the instance state they read and write. An observation is
its data, a type of the agent's own, with `snapshot` for the dict it is
(the hash an `Observation` carries beside it is read nowhere);
constructor parameters are arguments of the definition that builds the
`Agent`. Rationales, result outputs and performed actions are texts and
payloads no modelled function reads, and are left out.
-/
import Proofstand.Agents.Manifest
import Proofstand.Data.Sources

namespace Proofstand

/-- `canonical_hash`: sha256 of the canonical JSON text, which values
have in common exactly when their canonical forms are the same. -/
def canonicalHash {K : Type} (sha : PyVal K → String) (v : PyVal K) :
    String :=
  sha v.canon

/-- `Decision`: what `act()` is given, its kind and its parameters. -/
structure Decision (P : Type) where
  kind : String
  params : P
  deriving DecidableEq

/-- `Actions`: the transactions an agent reports to have sent. -/
structure Actions where
  txHashes : List String := []

/-- `Result`: a metric, its unit and the value an agent or a baseline
reports. -/
structure Result (K : Type) where
  metric : String
  unit : String
  value : K

-- ============================================================= contexts

/-- `ExecContext`; a signer is whatever the caller passed as one. -/
structure ExecContext where
  tier : Nat
  signer : Option String

namespace ExecContext

/-- A context below tier 2 has no signer, whatever was passed. -/
def forTier (tier : Nat) (signer : Option String) : Py ExecContext :=
  if tier ≠ 0 ∧ tier ≠ 1 ∧ tier ≠ 2 then
    raise .ValueError s!"tier must be 0, 1 or 2 (got {tier})"
  else if tier < 2 then .ok ⟨tier, none⟩
  else
    match signer with
    | none => raise .TierViolation
        "a Tier 2 context must be constructed with a signer"
    | some _ => .ok ⟨tier, signer⟩

/-- A hire may sign from tier 2 on, and with a signer. -/
def canSign (ctx : ExecContext) : Bool :=
  2 ≤ ctx.tier && ctx.signer.isSome

/-- `require_signer()`: the signer's name, or `TierViolation`. -/
def requireSigner (ctx : ExecContext) : Py (Option String) :=
  if ctx.canSign then .ok ctx.signer
  else raise .TierViolation s!"tier {ctx.tier} context cannot sign"

end ExecContext

-- =============================================================== agents

/-- An agent class after construction: `S` is its instance state, `D` its
observation data, `P` its decision's parameters. -/
structure Agent (K S D P : Type) where
  manifest : Manifest K
  init : S
  snapshot : D → PyVal K
  observe : S → Dict K → World K → Py (D × S)
  decide : D → Py (Decision P)
  act : S → Decision P → ExecContext → Py (Actions × S)
  report : S → Decision P → Actions → Py (Result K)

/-- A result in the manifest's metric and unit. -/
def Manifest.result {K : Type} (m : Manifest K) (value : K) : Result K :=
  ⟨m.advantageMetric.name, m.advantageMetric.unit, value⟩

end Proofstand
