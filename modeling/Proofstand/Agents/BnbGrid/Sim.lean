/-
`bnb_grid/grid.py` and `bnb_grid/sim.py`: the calibrated grid and the
paper ledger replayed over a candle path.

# The replay

A candle is taken in the source's order: every slot's turn to buy from the
lowest line up, every slot's turn to sell, then the mark at the close,
where the circuit breaker may halt the replay. A sale needs a lot bought
on an earlier candle. Beyond that nothing is known of the order inside a
candle, and nothing is assumed of it.

What decides a turn is the slots, the cash and the candle. The records
(fills, round trips, the curve) are appended to and never read back, and
the accumulators only grow. `HaltReason` stands for the source's two
texts, which carry their numbers.
-/
import Proofstand.Data.Calibrate

namespace Proofstand

namespace BnbGrid

open Calibrate

variable {K : Type} [Field K] [LinearOrder K]

-- ================================================================= grid

/-- `GridConfig`: the band, its lines, what one level trades, and what they
were calibrated from. -/
structure GridConfig (K : Type) where
  lower : K
  upper : K
  levels : Nat
  lines : List K
  sizeUsdPerLevel : K
  spacingFrac : K
  atr : K
  midPrice : K
  risk : String
  capitalUsd : K
  deriving DecidableEq

/-- `_K`. -/
def riskFactor (risk : String) : Option K :=
  if risk = "tight" then some (1 / 2)
  else if risk = "balanced" then some 1
  else if risk = "wide" then some (7 / 4)
  else none

/-- `MIN_LEVELS`. -/
def minLevels : Nat := 5

/-- `MAX_LEVELS`. -/
def maxLevels : Nat := 30

/-- The number of levels asked for, kept within the two bounds. -/
def clampLevels (userLevels : Int) : Nat :=
  (max (minLevels : Int) (min maxLevels userLevels)).toNat

/-- `np.percentile(xs, q)`, interpolating linearly. -/
def percentile (xs : List K) (q : Nat) : K :=
  let sorted := xs.insertionSort (· ≤ ·)
  let at100 := (xs.length - 1) * q
  let lo := sorted.getD (at100 / 100) 0
  let hi := sorted.getD (at100 / 100 + 1) lo
  lo + (hi - lo) * ((at100 % 100 : Nat) / 100)

/-- `calibrate_grid`: the band from the 10th to the 90th percentile of the
closes, widened where the last close is outside it, and cut evenly. -/
def calibrateGrid (klines : List (Kline K)) (capitalUsd : K)
    (userLevels : Int) (risk : String) : Py (GridConfig K) := do
  match (riskFactor risk : Option K) with
  | none => raise .ValueError "risk must be one of ['balanced', 'tight', 'wide']"
  | some factor =>
      let close := klines.map (·.close)
      match close.getLast? with
      | none => raise .ValueError "need >= 20 candles to calibrate a grid"
      | some mid =>
          if klines.length < 20 then
            raise .ValueError "need >= 20 candles to calibrate a grid"
          else
            let atrV ← atr klines 14
            let spacingFrac ← pyDiv (factor * atrV) mid
            let lower := percentile close 10
            let upper := percentile close 90
            -- the price may be outside the 10-90 band: widen to include it
            let inside : Bool := lower < mid ∧ mid < upper
            let lower := if inside then lower
              else min lower (mid * (1 - 3 * spacingFrac))
            let upper := if inside then upper
              else max upper (mid * (1 + 3 * spacingFrac))
            let levels := clampLevels userLevels
            pure
              { lower := lower
                upper := upper
                levels := levels
                lines := linspace lower upper levels
                sizeUsdPerLevel := capitalUsd / levels
                spacingFrac := spacingFrac
                atr := atrV
                midPrice := mid
                risk := risk
                capitalUsd := capitalUsd }

-- ================================================================ ledger

/-- A bought slot. -/
structure Slot (K : Type) where
  buyPx : K
  qty : K
  buyIdx : Nat
  costBasis : K

/-- The side of a fill. -/
inductive Side
  | buy | sell
  deriving DecidableEq, Repr

/-- One fill of a level's order. -/
structure Fill (K : Type) where
  idx : Nat
  ts : Int
  side : Side
  line : K
  price : K
  qty : K
  usd : K

/-- A bought level sold again at the one above. -/
structure RoundTrip (K : Type) where
  buyPx : K
  sellPx : K
  qty : K
  netUsd : K
  win : Bool

/-- Why the circuit breaker stopped a run. -/
inductive HaltReason
  | unrealisedLoss | leftRange
  deriving DecidableEq, Repr

/-- What a replay is run with. -/
structure SimParams (K : Type) where
  gasUsdPerFill : K
  feeBps : K
  slippageBps : K
  maxLossPct : K

namespace SimParams

/-- `slippage_bps`, as a fraction. -/
def slip (p : SimParams K) : K := p.slippageBps / 10000

/-- `fee_bps`, as a fraction. -/
def fee (p : SimParams K) : K := p.feeBps / 10000

end SimParams

/-- The loop's variables. -/
structure SimState (K : Type) where
  slots : List (Option (Slot K))
  cash : K
  feesUsd : K
  gasUsd : K
  fills : List (Fill K)
  roundTrips : List (RoundTrip K)
  equityCurve : List (Int × K)
  peak : K
  maxDd : K
  maxInv : K
  halted : Option HaltReason

/-- The loop's variables before the first candle: all in cash, no level
holding anything. -/
def SimState.start (grid : GridConfig K) : SimState K where
  slots := List.replicate (grid.lines.length - 1) none
  cash := grid.capitalUsd
  feesUsd := 0
  gasUsd := 0
  fills := []
  roundTrips := []
  equityCurve := []
  peak := grid.capitalUsd
  maxDd := 0
  maxInv := 0
  halted := none

/-- The sum over the bought slots. -/
def SimState.sumSlots (s : SimState K) (f : Slot K → K) : K :=
  (s.slots.reduceOption.map f).sum

/-- A buy into slot `i`, if the candle dips to its line and there is cash. -/
def buyAt (p : SimParams K) (grid : GridConfig K) (idx : Nat) (r : Kline K)
    (s : SimState K) (i : Nat) : Py (SimState K) :=
  match s.slots.getD i none, grid.lines[i]? with
  | none, some line =>
      if r.low ≤ line ∧ grid.sizeUsdPerLevel ≤ s.cash then do
        let size := grid.sizeUsdPerLevel
        let px := line * (1 + p.slip)
        let qty ← pyDiv size px
        let f := size * p.fee
        let cost := size + f + p.gasUsdPerFill
        pure
          { s with
            cash := s.cash - cost
            feesUsd := s.feesUsd + f
            gasUsd := s.gasUsd + p.gasUsdPerFill
            slots := s.slots.set i (some ⟨px, qty, idx, cost⟩)
            fills := s.fills ++
              [⟨idx, r.openTimeMs, .buy, line, px, qty, size⟩] }
      else pure s
  | _, _ => pure s

/-- A sale of slot `i`, if it was bought earlier and the candle rises to
the line above. -/
def sellAt (p : SimParams K) (grid : GridConfig K) (idx : Nat) (r : Kline K)
    (s : SimState K) (i : Nat) : SimState K :=
  match s.slots.getD i none, grid.lines[i + 1]? with
  | some slot, some line =>
      if slot.buyIdx < idx ∧ line ≤ r.high then
        let px := line * (1 - p.slip)
        let proceeds := slot.qty * px
        let f := proceeds * p.fee
        let net := proceeds - f - p.gasUsdPerFill - slot.costBasis
        { s with
          cash := s.cash + (proceeds - f - p.gasUsdPerFill)
          feesUsd := s.feesUsd + f
          gasUsd := s.gasUsd + p.gasUsdPerFill
          roundTrips := s.roundTrips ++
            [⟨slot.buyPx, px, slot.qty, net, decide (0 < net)⟩]
          fills := s.fills ++
            [⟨idx, r.openTimeMs, .sell, line, px, slot.qty, proceeds⟩]
          slots := s.slots.set i none }
      else s
  | _, _ => s

/-- The mark at a candle's close, and the circuit breaker. -/
def mark (p : SimParams K) (grid : GridConfig K) (r : Kline K)
    (s : SimState K) : Py (SimState K) := do
  let invValue := s.sumSlots fun slot => slot.qty * r.close
  let equity := s.cash + invValue
  let peak := max s.peak equity
  let dd ← pyDiv (peak - equity) grid.capitalUsd
  let loss ← pyDiv (grid.capitalUsd - equity) grid.capitalUsd
  let loBound := grid.lower * (1 - 2 * grid.spacingFrac)
  let hiBound := grid.upper * (1 + 2 * grid.spacingFrac)
  pure
    { s with
      equityCurve := s.equityCurve ++ [(r.openTimeMs, equity)]
      peak := peak
      maxDd := max s.maxDd dd
      maxInv := max s.maxInv invValue
      halted :=
        if p.maxLossPct / 100 < loss then some .unrealisedLoss
        else if hiBound < r.close ∨ r.close < loBound then some .leftRange
        else none }

/-- One candle: the buys, the sales, the mark. -/
def candle (p : SimParams K) (grid : GridConfig K) (idx : Nat)
    (r : Kline K) (s : SimState K) : Py (SimState K) := do
  let slots := List.range (grid.lines.length - 1)
  let s ← slots.foldlM (buyAt p grid idx r) s
  mark p grid r (slots.foldl (sellAt p grid idx r) s)

/-- The candles from number `idx` on, up to a halt. -/
def simLoop (p : SimParams K) (grid : GridConfig K) (idx : Nat)
    (s : SimState K) : List (Kline K) → Py (SimState K)
  | [] => .ok s
  | r :: rs => do
      let s ← candle p grid idx r s
      if s.halted.isSome then pure s else simLoop p grid (idx + 1) s rs

/-- What `simulate` returns. -/
structure SimResult (K : Type) where
  netPnlUsd : K
  realizedPnlUsd : K
  unrealizedPnlUsd : K
  nTrades : Nat
  nRoundTrips : Nat
  winRate : K
  maxDrawdownPct : K
  capitalAtRiskUsd : K
  windowDays : K
  feesUsd : K
  gasUsd : K
  halted : Option HaltReason
  finalEquityUsd : K
  equityCurve : List (Int × K)
  roundTrips : List (RoundTrip K)
  fills : List (Fill K)

/-- `simulate`. -/
def simulate (rows : List (Kline K)) (grid : GridConfig K)
    (p : SimParams K) : Py (SimResult K) := do
  let s ← simLoop p grid 0 (SimState.start grid) rows
  let lastClose :=
    match s.equityCurve.length with
    | 0 => 0
    | n + 1 => ((rows[n]?).map (·.close)).getD 0
  let invValue := s.sumSlots fun slot => slot.qty * lastClose
  let costOpen := s.sumSlots Slot.costBasis
  let finalEquity := s.cash + invValue
  let wins := s.roundTrips.countP RoundTrip.win
  pure
    { netPnlUsd := finalEquity - grid.capitalUsd
      realizedPnlUsd := (s.roundTrips.map RoundTrip.netUsd).sum
      unrealizedPnlUsd := invValue - costOpen
      nTrades := s.fills.length
      nRoundTrips := s.roundTrips.length
      winRate := wins / s.roundTrips.length
      maxDrawdownPct := s.maxDd * 100
      capitalAtRiskUsd := s.maxInv
      windowDays := windowDays (rows.map Kline.toCandle)
      feesUsd := s.feesUsd
      gasUsd := s.gasUsd
      halted := s.halted
      finalEquityUsd := finalEquity
      equityCurve := s.equityCurve
      roundTrips := s.roundTrips
      fills := s.fills }

end BnbGrid

end Proofstand
