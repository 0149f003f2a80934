/-
`pcs_rebalancer/range.py`, `economics.py` and `sim.py`: the range, the
cost-aware rebalance rule, and the paper simulation over a price path.
The texts of the rule's reasons are left out.

# The rule

`rebalance_decision` compares three estimates in dollars: the fees of a
freshly centred range over the horizon, the loss the held range has
realised since it was opened, and the gas of closing and opening. It is
asked at a checkpoint from the 24th candle on, or at any of these where the
price has left the range, and its answer is logged whether it acts or not.

# Failures

`math.log` and `math.sqrt` raise where they have to, and so does a division
by a concentration or a width of zero; each is an error of the replay. The
logarithm, the exponential and the root themselves are `Libm`, and the
proofs that need more of them take the real ones.
-/
import Proofstand.Data.Calibrate

namespace Proofstand

namespace PcsRebalancer

open Calibrate

variable {K : Type} [Field K] [LinearOrder K]

-- ================================================================ ranges

/-- `_M`. -/
def riskWidth (risk : String) : Option K :=
  if risk = "tight" then some (3 / 4)
  else if risk = "balanced" then some (5 / 4)
  else if risk = "wide" then some 2
  else none

/-- `FEE_TIER_SPACING`: the tick spacing of each fee tier. -/
def feeTierSpacing : List (Int × Int) :=
  [(100, 1), (500, 10), (2500, 50), (10000, 200)]

/-- The price step of one tick. -/
def tickBase : K := 10001 / 10000

/-- `price_to_tick`: the tick at or below a price. -/
def priceToTick [FloorRing K] (lib : Libm K) (price : K) : Py Int := do
  let l ← lib.mathLog price
  pure ⌊l / lib.log tickBase⌋

/-- `tick_to_price`. -/
def tickToPrice (tick : Int) : K := tickBase ^ tick

/-- The multiple of the spacing at or below a tick. -/
def snapDown (tick spacing : Int) : Int := tick.fdiv spacing * spacing

/-- The multiple of the spacing at or above a tick. -/
def snapUp (tick spacing : Int) : Int := -((-tick).fdiv spacing) * spacing

/-- `RangeConfig`: a position's ticks, prices and half width, and the
volatility they were picked from. -/
structure RangeConfig (K : Type) where
  price : K
  halfWidthFrac : K
  pa : K
  pb : K
  tickLower : Int
  tickUpper : Int
  spacing : Int
  feeTier : Int
  risk : String
  horizonDays : K
  volAnnual : K
  deriving DecidableEq

/-- `select_range` on the closes of a window. -/
def selectRange [FloorRing K] (lib : Libm K) (closes : List K)
    (rawPrice : K) (risk : String) (feeTier : Int) (horizonDays : K)
    (spacing : Int) : Py (RangeConfig K) :=
  match (riskWidth risk : Option K) with
  | none => raise .ValueError "risk must be one of ['balanced', 'tight', 'wide']"
  | some m =>
      match if spacing = 0 then feeTierSpacing.lookup feeTier
        else some spacing with
      | none => raise .ValueError s!"unknown fee tier {feeTier}"
      | some spacing => do
          let vol ← realizedVol lib closes 720
          let root ← lib.mathSqrt (horizonDays / 365)
          let hw := m * vol * root
          let lo ← priceToTick lib (rawPrice * lib.exp (-hw))
          let hi ← priceToTick lib (rawPrice * lib.exp hw)
          let tickLower := snapDown lo spacing
          let tickUpper := snapUp hi spacing
          let tickUpper :=
            if tickUpper ≤ tickLower then tickLower + spacing else tickUpper
          pure
            { price := rawPrice
              halfWidthFrac := hw
              pa := tickToPrice tickLower
              pb := tickToPrice tickUpper
              tickLower := tickLower
              tickUpper := tickUpper
              spacing := spacing
              feeTier := feeTier
              risk := risk
              horizonDays := horizonDays
              volAnnual := vol }

-- ============================================================= economics

/-- `MAX_CONCENTRATION`. -/
def maxConcentration : K := 50

/-- `concentration_factor`: how much more a narrow range earns than the full
one, up to a cap, and the cap where it has no width. -/
def concentrationFactor (lib : Libm K) (halfWidthFrac : K) : Py K :=
  if halfWidthFrac ≤ 0 then .ok maxConcentration
  else do
    let c ← pyDiv 1 (1 - lib.exp (-halfWidthFrac / 2))
    pure (min c maxConcentration)

/-- Fees a freshly centred range would earn over the next horizon. -/
def expectedFeesUsd (lib : Libm K) (capitalUsd feeAprBase halfWidthFrac
    horizonDays : K) : Py K := do
  let c ← concentrationFactor lib halfWidthFrac
  pure (capitalUsd * feeAprBase * c * 1 * horizonDays / 365)

/-- What the cost-aware rule says at one candle, with the two sides it
compared. -/
structure RebalanceDecision (K : Type) where
  act : Bool
  expectedFeesUsd : K
  realisedIlUsd : K
  gasCostUsd : K
  netUsd : K

/-- What the replay is run with. -/
structure SimParams (K : Type) where
  capitalUsd : K
  feeAprBase : K
  gasOpenUsd : K
  gasCloseUsd : K
  checkpointHours : Int

/-- `rebalance_decision`: rebalance when the next horizon's fees pay the
realised loss and the gas. -/
def rebalanceDecision (lib : Libm K) (p : SimParams K)
    (newRange current : RangeConfig K) (horizonDays elapsedDays : K) :
    Py (RebalanceDecision K) := do
  let fees ← expectedFeesUsd lib p.capitalUsd p.feeAprBase
    newRange.halfWidthFrac horizonDays
  let frac ← ilEstimate lib newRange.volAnnual (max elapsedDays (1 / 100))
    current.halfWidthFrac
  let il := frac * p.capitalUsd
  let gas := p.gasCloseUsd + p.gasOpenUsd
  let net := fees - il - gas
  pure ⟨decide (0 < net), fees, il, gas, net⟩

-- ============================================================ simulation

/-- One logged checkpoint. -/
structure LogEntry (K : Type) where
  idx : Nat
  ts : Int
  price : K
  inRange : Bool
  decision : RebalanceDecision K

/-- The loop's variables. -/
structure SimState (K : Type) where
  rng : RangeConfig K
  accruedFees : K
  totalGas : K
  realisedIl : K
  nReb : Nat
  nHold : Nat
  inRangeHours : Nat
  openIdx : Nat
  decisions : List (LogEntry K)

/-- The loop's variables before the first candle: the initial range, nothing
earned and nothing spent. -/
def SimState.start (p : SimParams K) (initial : RangeConfig K) :
    SimState K where
  rng := initial
  accruedFees := 0
  totalGas := p.gasOpenUsd
  realisedIl := 0
  nReb := 0
  nHold := 0
  inRangeHours := 0
  openIdx := 0
  decisions := []

/-- The price is within the range, its ends included. -/
def RangeConfig.contains (rng : RangeConfig K) (price : K) : Bool :=
  rng.pa ≤ price ∧ price ≤ rng.pb

/-- The hour's fees, while the price is in range. -/
def accrue (lib : Libm K) (p : SimParams K) (price : K) (s : SimState K) :
    Py (SimState K) :=
  if s.rng.contains price then do
    let c ← concentrationFactor lib s.rng.halfWidthFrac
    pure
      { s with
        inRangeHours := s.inRangeHours + 1
        accruedFees := s.accruedFees
          + p.capitalUsd * p.feeAprBase * c * (1 / 8760) }
  else pure s

/-- `idx % checkpoint_hours == 0`. -/
def onTheHour (checkpointHours : Int) (idx : Nat) : Py Bool :=
  if checkpointHours = 0 then
    raise .ZeroDivisionError "integer modulo by zero"
  else .ok (decide ((idx : Int) % checkpointHours = 0))

/-- Whether candle `idx` is a checkpoint. -/
def isCheckpoint (checkpointHours : Int) (idx : Nat) (inRange : Bool) :
    Py Bool :=
  if idx = 0 then .ok false
  else do
    let b ← onTheHour checkpointHours idx
    pure (b || !inRange)

/-- The closes `klines.iloc[max(0, idx - 720): idx + 1]`. -/
def window (closes : List K) (idx : Nat) : List K :=
  (closes.take (idx + 1)).drop (idx - 720)

/-- The rule applied at candle `idx`: a rebalance or a logged hold. -/
def decideAt [FloorRing K] (lib : Libm K) (p : SimParams K)
    (initial : RangeConfig K) (closes : List K) (idx : Nat) (r : Candle K)
    (s : SimState K) : Py (SimState K) := do
  let newRng ← selectRange lib (window closes idx) r.close initial.risk
    initial.feeTier initial.horizonDays initial.spacing
  let elapsedDays : K := ((idx : K) - s.openIdx) / 24
  let dec ← rebalanceDecision lib p newRng s.rng initial.horizonDays
    elapsedDays
  let entry : LogEntry K :=
    ⟨idx, r.openTimeMs, r.close, s.rng.contains r.close, dec⟩
  let s : SimState K := { s with decisions := s.decisions ++ [entry] }
  if dec.act then
    pure
      { s with
        realisedIl := s.realisedIl + dec.realisedIlUsd
        totalGas := s.totalGas + (p.gasCloseUsd + p.gasOpenUsd)
        rng := newRng
        openIdx := idx
        nReb := s.nReb + 1 }
  else pure { s with nHold := s.nHold + 1 }

/-- One candle: fees, then the rule if it is a checkpoint. -/
def simStep [FloorRing K] (lib : Libm K) (p : SimParams K)
    (initial : RangeConfig K) (closes : List K) (s : SimState K)
    (q : Candle K × Nat) : Py (SimState K) := do
  let (r, idx) := q
  let inRange := s.rng.contains r.close
  let s ← accrue lib p r.close s
  let checkpoint ← isCheckpoint p.checkpointHours idx inRange
  if !checkpoint || idx < 24 then pure s
  else decideAt lib p initial closes idx r s

/-- What `simulate_rebalancer` returns. -/
structure SimResult (K : Type) where
  netFeesUsd : K
  accruedFeesUsd : K
  totalGasUsd : K
  realisedIlUsd : K
  unrealisedIlUsd : K
  nRebalances : Nat
  nHolds : Nat
  inRangeFraction : K
  windowDays : K
  finalRange : RangeConfig K
  decisions : List (LogEntry K)

/-- `simulate_rebalancer`. -/
def simulateRebalancer [FloorRing K] (lib : Libm K) (rows : List (Candle K))
    (initial : RangeConfig K) (p : SimParams K) : Py (SimResult K) := do
  let closes := rows.map Candle.close
  let s ← rows.zipIdx.foldlM (simStep lib p initial closes)
    (SimState.start p initial)
  let finalElapsed : K := ((rows.length : K) - 1 - s.openIdx) / 24
  let frac ← ilEstimate lib s.rng.volAnnual (max finalElapsed (1 / 100))
    s.rng.halfWidthFrac
  let unrealisedIl := frac * p.capitalUsd
  pure
    { netFeesUsd :=
        s.accruedFees - s.totalGas - s.realisedIl - unrealisedIl
      accruedFeesUsd := s.accruedFees
      totalGasUsd := s.totalGas
      realisedIlUsd := s.realisedIl
      unrealisedIlUsd := unrealisedIl
      nRebalances := s.nReb
      nHolds := s.nHold
      inRangeFraction := s.inRangeHours / rows.length
      windowDays := windowDays rows
      finalRange := s.rng
      decisions := s.decisions }

end PcsRebalancer

end Proofstand
