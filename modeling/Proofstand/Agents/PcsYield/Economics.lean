/-
`pcs_yield/economics.py`: net APR, every term of it apart.

Quotients whose divisor the code has made positive stand as plain
division.

# The terms

To the fees come the emissions, at their mean rate while they decay over
the horizon. Three terms are taken off: the impermanent loss of a position
that wide, the gas of a round trip, both brought to a year, and the fees
that a growing TVL will take. A pair without a price history has no
estimate of its loss; the term is then zero, and the result says that it
is not verified.

The source keeps its divisors positive by clamping the horizon and the
capital at a millionth, and the horizon at a day where it counts days. So
nothing here divides by zero but the mean of a decay, whose half life is
clamped as well.
-/
import Proofstand.Data.Calibrate
import Proofstand.Python.Statistics

namespace Proofstand

namespace PcsYield

open Calibrate

variable {K : Type} [Field K] [LinearOrder K]

/-- `V2_RANGE_WIDTH`: a range so wide that it is a v2 position. -/
def v2RangeWidth : K := 50

/-- The mean of an exponentially decaying emission rate over the horizon;
the half life is 90 days. -/
def emissionDecayFactor (lib : Libm K) (horizonDays halfLifeDays : K) :
    Py K :=
  if horizonDays ≤ 0 then .ok 1
  else do
    let hl := max halfLifeDays (1 / 1000000)
    let x := horizonDays / hl
    let scale ← pyDiv hl (horizonDays * lib.log 2)
    pure (scale * (1 - lib.pow 2 (-x)))

/-- The fee yield lost to TVL that grows on as it did over 14 days. -/
def dilutionAdjustment [FloorRing K] (lib : Libm K) (feeAprPct tvlNow : K)
    (tvl14dAgo : Option K) (horizonDays : K) : K :=
  match tvl14dAgo with
  | none => 0
  | some ago =>
      if ago ≤ 0 ∨ tvlNow ≤ 0 ∨ feeAprPct ≤ 0 then 0
      else
        let g14 := tvlNow / ago
        if g14 ≤ 1 then 0
        else
          let daily := lib.pow g14 (1 / 14)
          let n := max horizonDays 1
          let tvlAvgRel :=
            if 1 ≤ n then
              ((List.range (PyVal.truncate n).toNat).map
                fun t => daily ^ t).sum / n
            else 1
          let tvlAvgRel := max tvlAvgRel 1
          let drag := feeAprPct * (1 - 1 / tvlAvgRel)
          max 0 (min drag feeAprPct)

/-- `NetApr`: an APR with what was taken off it. -/
structure NetApr (K : Type) where
  pool : String
  symbol : String
  feeApr : K
  emissionAprEffective : K
  ilAnnual : K
  gasAnnual : K
  dilution : K
  netApr : K
  headlineApr : K
  ilVerified : Bool
  notes : List String

/-- The IL term, where there is a volatility to estimate it from. -/
def ilAnnualPct (lib : Libm K) (volAnnual : Option K)
    (horizonDays rangeWidth : K) : Py (K × Bool × List String) :=
  match volAnnual with
  | none => .ok
      (0, false, ["IL not estimated — no price history for this pair"])
  | some vol => do
      let ilFrac ← ilEstimate lib vol horizonDays rangeWidth
      pure (ilFrac * 365 / max horizonDays (1 / 1000000) * 100, true, [])

/-- `net_apr`: the fees and the emissions that last, less impermanent loss,
gas and dilution, all in percent a year. -/
def netApr [FloorRing K] (lib : Libm K) (pool symbol : String)
    (feeAprPct emissionAprPct headlineAprPct horizonDays : K)
    (volAnnual : Option K) (capitalUsd gasUsdRoundtrip tvlNow : K)
    (tvl14dAgo : Option K) (rangeWidth : K) : Py (NetApr K) := do
  let (ilAnnual, ilVerified, notes) ←
    ilAnnualPct lib volAnnual horizonDays rangeWidth
  let gasAnnual := gasUsdRoundtrip / max capitalUsd (1 / 1000000) * 365
    / max horizonDays (1 / 1000000) * 100
  let decay ← emissionDecayFactor lib horizonDays 90
  let emissionEff := emissionAprPct * decay
  let dilution :=
    dilutionAdjustment lib feeAprPct tvlNow tvl14dAgo horizonDays
  let net := feeAprPct + emissionEff - ilAnnual - gasAnnual - dilution
  pure
    { pool := pool
      symbol := symbol
      feeApr := feeAprPct
      emissionAprEffective := emissionEff
      ilAnnual := ilAnnual
      gasAnnual := gasAnnual
      dilution := dilution
      netApr := net
      headlineApr := headlineAprPct
      ilVerified := ilVerified
      notes := notes }

end PcsYield

end Proofstand
