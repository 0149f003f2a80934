/-
`bsc_sentry/scoring.py`: the score of a report, and the hard fails that
override it.

The scorer reads the evidence of three checks, and evidence is a dict of
anything: a `matched` that cannot be gone through, or has an entry that
is no text, stops it. A list may have two checks of one name; by name,
the later one counts.

# Two parts

The weighted score is over the checks that ran on an axis with a weight,
and is normalised over these, so an axis that was not read weighs nothing.
The hard fails are read apart from it: each check's own flag, and the rule
on minting, which combines the evidence of three checks. A hard fail caps
the score and makes the verdict CRITICAL; the rule's milder form, over a
verified source, only costs a share of the score.
-/
import Proofstand.Data.Sources
import Proofstand.Agents.Manifest
import Proofstand.Lib.Rounding
import Proofstand.Lib.WeightedMean

namespace Proofstand

namespace BscSentry

open Rounding WeightedMean

variable {K : Type}

/-- The status of a check. -/
inductive CheckStatus
  | pass | warn | fail | unknown | unavailable
  deriving DecidableEq, Repr

/-- `Check`: what one check found, its score and why. -/
structure Check (K : Type) where
  name : String
  status : CheckStatus
  score : K
  evidence : Dict K
  reason : String := ""
  hardFail : Bool := false

/-- `Report`: the verdict on a target with the score and the checks behind
it. -/
structure Report (K : Type) where
  target : String
  verdict : SentryVerdict
  score : Int
  checks : List (Check K)
  hardFails : List String
  warnings : List String
  scoredAxes : List String

-- ============================================================ the axes

section

variable [Field K] [LinearOrder K]

/-- `SELL_TAX_HARD_FAIL`. -/
def sellTaxHardFail : K := 1 / 4

/-- `WEIGHTS`: the axes that make the score. -/
def weights : List (String × K) :=
  [("honeypot", 28 / 100), ("transfer_tax", 18 / 100),
   ("ownership", 15 / 100), ("dangerous_functions", 14 / 100),
   ("lp_lock", 10 / 100), ("source_verified", 7 / 100),
   ("upgradeable_proxy", 5 / 100), ("contract_age", 3 / 100),
   ("holder_concentration", 0)]

/-- `WEIGHTS.get(name, 0)`. -/
def weightOf (name : String) : K := (weights.lookup name).getD 0

/-- `status in ("pass", "warn", "fail")`. -/
def CheckStatus.ran : CheckStatus → Bool
  | .pass | .warn | .fail => true
  | .unknown | .unavailable => false

/-- The checks that ran on an axis with a weight. -/
def scored (checks : List (Check K)) : List (Check K) :=
  checks.filter fun c => c.status.ran && decide (0 < weightOf (K := K) c.name)

/-- The weighted score, normalised over the axes that ran. -/
def weighted (checks : List (Check K)) : K :=
  weightedMean ((scored checks).map fun c => (c.score, weightOf c.name))

end

-- ======================================================== the mint rule

/-- `by_name.get(name)`. -/
def byName (checks : List (Check K)) (name : String) : Option (Check K) :=
  checks.reverse.find? fun c => c.name = name

/-- `s.lower() == "mint"`. -/
def isMint : PyVal K → Py Bool
  | .str s => .ok (s.toLower = "mint")
  | v => raise .AttributeError
      ("'" ++ v.typeName ++ "' object has no attribute 'lower'")

/-- `any(…)`: it stops at the first. -/
def anyMint : List (PyVal K) → Py Bool
  | [] => .ok false
  | s :: rest => do
      if ← isMint s then .ok true else anyMint rest

section

variable [Field K] [LinearOrder K]

/-- `evidence.get(key)`, tested. -/
def evidenceTruthy (c : Check K) (key : String) : Bool :=
  ((c.evidence.lookup key).getD .none).truthy

/-- `mint` in the ABI, and the owner an EOA that has not renounced. -/
def mintByEoa (checks : List (Check K)) : Py Bool :=
  match byName checks "dangerous_functions", byName checks "ownership" with
  | some df, some own => do
      let matched ←
        ((df.evidence.lookup "matched").getD (.list [])).elements
      let hasMint ← anyMint matched
      let ownerIsEoa :=
        ((own.evidence.lookup "owner_code_size").getD .none).pyEq (.int 0)
          && !evidenceTruthy own "renounced"
      pure (hasMint && ownerIsEoa)
  | _, _ => .ok false

/-- The source check passed. -/
def sourceVerified (checks : List (Check K)) : Bool :=
  (byName checks "source_verified").any fun sv =>
    evidenceTruthy sv "verified"

end

-- ============================================================ the score

/-- The verdict on a score without a hard fail. -/
def verdictOf (score : Int) : SentryVerdict :=
  if 75 ≤ score then .OK else if 40 ≤ score then .WARN else .CRITICAL

variable [Field K] [LinearOrder K]

/-- What forces CRITICAL, in the order of the checks, with the rule on
minting by an account last. -/
def hardFails (checks : List (Check K)) (byEoa : Bool) : List String :=
  (checks.filter fun c => c.hardFail).map (fun c => c.name)
    ++ if byEoa && !sourceVerified checks then
        ["unrenounced_mint_unverified"]
      else []

/-- With the source verified, a mint by an EOA costs 45%. -/
def mintPenalty (checks : List (Check K)) (byEoa : Bool) : K :=
  if byEoa && sourceVerified checks then 55 / 100 else 1

variable [FloorRing K]

/-- The score before a hard fail caps it. -/
def rawScore (checks : List (Check K)) (byEoa : Bool) : Int :=
  roundHalfEven (weighted checks * mintPenalty checks byEoa * 100)

/-- `score_report`: the rounded score and its verdict; a hard fail makes it
CRITICAL, at 10 at most. -/
def scoreReport (target : String) (checks : List (Check K)) :
    Py (Report K) := do
  let byEoa ← mintByEoa checks
  let hardFails := hardFails checks byEoa
  let score := rawScore checks byEoa
  pure
    { target := target
      verdict := if hardFails.isEmpty then verdictOf score else .CRITICAL
      score := if hardFails.isEmpty then score else min score 10
      checks := checks
      hardFails := hardFails
      warnings :=
        if byEoa && sourceVerified checks then ["mint_by_eoa_verified"]
        else []
      scoredAxes := (scored checks).map fun c => c.name }

end BscSentry

end Proofstand
