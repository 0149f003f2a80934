/-
`orchestrator/api.py` `create_hire`: what it refuses, and the tier and
inputs of the hire it starts.

The inputs are a JSON object. `agents_factory` is left as the reason it
gives for an agent that is not implemented.

# The order of the refusals

An agent that is unknown or unavailable answers 404, one without a factory
409, a tier that its manifest does not offer 422, and so do inputs that do
not validate. Only then are the defaults filled in: what `run_hire` gets
is the filled-in object, and it validates that a second time. Whether the
second validation can fail is what `Orchestrator.Proofs.Accepted` settles.

A tier is compared with `==`, as `in` does, so that `true` and `1.0` name
tier 1.
-/
import Proofstand.Orchestrator.Harness
import Proofstand.Orchestrator.Registry

namespace Proofstand.Api

open Registry

variable {K : Type} [Field K] [LinearOrder K]

/-- The errors of `create_hire`, by their status. -/
inductive HttpError (K : Type)
  | notFound (detail : String)                         -- 404
  | conflict (detail : String)                         -- 409
  | badTier (tiers : List Nat)                         -- 422
  | badInputs (errors : List (String × InputError K))  -- 422

/-- The tier a JSON value names: `tier in m.tiers`, and `int(tier)`. -/
def tierOf (m : Manifest K) (tier : PyVal K) : Option Nat :=
  m.tiers.find? fun t => tier.pyEq (.int t)

/-- The tier and the inputs of the hire that is started. -/
def createHire (entry : Option (AgentEntry (Manifest K)))
    (unimplemented : Option String) (agentId : String) (tier : PyVal K)
    (inputs : Dict K) : Except (HttpError K) (Nat × Dict K) :=
  match entry.bind fun e => if e.available then e.manifest else none with
  | none => .error (.notFound ("no agent '" ++ agentId ++ "'"))
  | some m =>
      match unimplemented with
      | some reason => .error (.conflict reason)
      | none =>
          match tierOf m tier with
          | none => .error (.badTier m.tiers)
          | some t =>
              match m.validateInputs inputs with
              | [] => .ok (t, m.applyDefaults inputs)
              | errors => .error (.badInputs errors)

end Proofstand.Api
