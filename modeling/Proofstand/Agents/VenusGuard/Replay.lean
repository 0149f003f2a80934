/-
`venus_guard/replay.py`: an account replayed against a path of price
ratios, with and without the guard. The display roundings of the logged
repayments are left out.

# One step

A step of the guarded loop prices the collateral, looks at the health
factor, and below the trigger repays what restores the recovery target, as
far as the buffer and the debt go. A position without debt has no health
factor; the source's `inf` is the top of `WithTop`. The minimum seen, the
repayments and the gas are the loop's own variables.

Liquidation is what the source says it is at the end of the path: the
lowest factor seen, and the factor at the path's lowest ratio with the
debt that is left, are both below 1.
-/
import Proofstand.Python.Value

namespace Proofstand

namespace VenusGuard

/-- `Position`: the debt, the two kinds of collateral, and the protocol's
terms. -/
structure Position (K : Type) where
  borrowUsd : K
  /-- non-stable collateral at ratio 1, collateral factors applied -/
  volatileAdjUsd : K
  stableAdjUsd : K
  closeFactor : K
  liquidationIncentive : K
  deriving DecidableEq, Repr

variable {K : Type} [Field K] [LinearOrder K]

namespace Position

/-- The adjusted collateral at a price ratio. -/
def adjAt (pos : Position K) (k : K) : K :=
  pos.stableAdjUsd + pos.volatileAdjUsd * k

/-- The health factor at ratio `k` with `borrow` still owed. -/
def hfAt (pos : Position K) (k borrow : K) : WithTop K :=
  if 0 < borrow then ((pos.adjAt k / borrow : K) : WithTop K) else ⊤

/-- What a liquidator's bonus costs the account. -/
def penalty (pos : Position K) : K :=
  pos.closeFactor * pos.borrowUsd * (pos.liquidationIncentive - 1)

end Position

-- ============================================================ no action

/-- `NoActionResult`. -/
structure NoActionResult (K : Type) where
  minHf : WithTop K
  liquidated : Bool
  liqStep : Option Nat
  liqPriceRatio : Option K
  liquidationLossUsd : K

/-- The rest of the path, from step `step` and the minimum so far. -/
def noActionFrom (pos : Position K) (step : Nat) (minHf : WithTop K) :
    List K → NoActionResult K
  | [] => ⟨minHf, false, none, none, 0⟩
  | k :: ks =>
      let hf := pos.hfAt k pos.borrowUsd
      if hf < 1 then ⟨min minHf hf, true, some step, some k, pos.penalty⟩
      else noActionFrom pos (step + 1) (min minHf hf) ks

/-- `replay_no_action`. -/
def replayNoAction (pos : Position K) (ratioPath : List K) :
    NoActionResult K :=
  noActionFrom pos 0 ⊤ ratioPath

-- ============================================================== guarded

/-- The guard's plan and means. -/
structure GuardPlan (K : Type) where
  triggerHf : K
  recoveryHf : K
  bufferUsd : K
  gasUsdPerRepay : K

/-- One logged repayment. -/
structure Repayment (K : Type) where
  step : Nat
  hfBefore : WithTop K
  repaidUsd : K
  hfAfter : WithTop K

/-- The loop's variables. -/
structure GuardState (K : Type) where
  borrow : K
  remainingBuffer : K
  repaid : K
  gas : K
  nRepays : Nat
  minHf : WithTop K
  actions : List (Repayment K)

/-- The loop's variables before the first step: the whole buffer, nothing
repaid. -/
def GuardState.start (pos : Position K) (plan : GuardPlan K) :
    GuardState K where
  borrow := pos.borrowUsd
  remainingBuffer := plan.bufferUsd
  repaid := 0
  gas := 0
  nRepays := 0
  minHf := ⊤
  actions := []

/-- The minimum, the next health factor seen. -/
def GuardState.see (s : GuardState K) (hf : WithTop K) : GuardState K :=
  { s with minHf := min s.minHf hf }

/-- Whether the guard looks at repaying. -/
def fires (plan : GuardPlan K) (s : GuardState K) (hf : WithTop K) : Bool :=
  hf < (plan.triggerHf : WithTop K) ∧ 0 < s.borrow ∧ 0 < s.remainingBuffer

/-- The smallest repayment that brings the health factor back, as far as
buffer and debt reach. -/
def repayment (pos : Position K) (plan : GuardPlan K) (s : GuardState K)
    (k : K) : Py K := do
  let goal ← pyDiv (pos.adjAt k) plan.recoveryHf
  pure (min (min (max 0 (s.borrow - goal)) s.remainingBuffer) s.borrow)

/-- The state after repaying `x` at step `step`. -/
def GuardState.repay (pos : Position K) (plan : GuardPlan K)
    (s : GuardState K) (step : Nat) (k x : K) : GuardState K where
  borrow := s.borrow - x
  remainingBuffer := s.remainingBuffer - x
  repaid := s.repaid + x
  gas := s.gas + plan.gasUsdPerRepay
  nRepays := s.nRepays + 1
  minHf := s.minHf
  actions := s.actions ++
    [⟨step, pos.hfAt k s.borrow, x, pos.hfAt k (s.borrow - x)⟩]

/-- One step of the path. -/
def guardStep (pos : Position K) (plan : GuardPlan K) (s : GuardState K)
    (p : K × Nat) : Py (GuardState K) := do
  let (k, step) := p
  let hf := pos.hfAt k s.borrow
  if fires plan s hf then
    let x ← repayment pos plan s k
    if x ≤ 0 then pure (s.see hf)
    else pure ((s.see hf).repay pos plan step k x)
  else pure (s.see hf)

/-- `GuardedResult`. -/
structure GuardedResult (K : Type) where
  minHf : WithTop K
  finalHf : WithTop K
  liquidated : Bool
  repaidUsd : K
  nRepays : Nat
  gasUsd : K
  penaltyAvoidedUsd : K
  usdSaved : K
  actions : List (Repayment K)

/-- The account's fate once the loop is done. -/
def guardVerdict (pos : Position K) (ratioPath : List K)
    (s : GuardState K) : Bool :=
  decide (s.minHf < 1) &&
    match ratioPath.min? with
    | some k => decide (pos.hfAt k s.borrow < 1)
    | none => false

/-- `replay_guarded`. -/
def replayGuarded (pos : Position K) (ratioPath : List K)
    (plan : GuardPlan K) : Py (GuardedResult K) := do
  let s ← ratioPath.zipIdx.foldlM (guardStep pos plan)
    (GuardState.start pos plan)
  let liquidated := guardVerdict pos ratioPath s
  let noAct := replayNoAction pos ratioPath
  let penaltyAvoided := if liquidated then 0 else noAct.liquidationLossUsd
  match ratioPath.getLast? with
  | none => raise .IndexError "list index out of range"
  | some last =>
      pure
        { minHf := s.minHf
          finalHf := pos.hfAt last s.borrow
          liquidated := liquidated
          repaidUsd := s.repaid
          nRepays := s.nRepays
          gasUsd := s.gas
          penaltyAvoidedUsd := penaltyAvoided
          usdSaved := penaltyAvoided - s.gas
          actions := s.actions }

end VenusGuard

end Proofstand
