/-
`packages/data/calibrate.py`: the strategy parameters computed from real
candles and pool days, and the one live-price helper, `gas_cost_usd`.

numpy divisions stand as plain division where the divisor is a positive
number in real arithmetic (a density's normaliser, a held value).

# Failures

Each function raises where the source does: a frame with too few rows, a
price or a width that is not positive, a field that is missing under all
its names. What numpy does silently instead (a NaN from a logarithm, an
infinity from a division by zero) is an error `NotFinite` of this model,
so no theorem speaks of a run that met one.

# Grids of numbers

The loss of a range is an integral over 4001 log prices, eight deviations
to either side, by the trapezoid rule, against the normal density; where
it comes out below zero the source takes zero. The clamp of the width is
the source's too.
-/
import Proofstand.Data.Sources

namespace Proofstand

namespace Calibrate

variable {K : Type} [Field K] [LinearOrder K]

-- =========================================================== volatility

/-- `TR_t` for every candle but the first. -/
def trueRanges (klines : List (Kline K)) : List K :=
  List.zipWith
    (fun prev cur => max (max (cur.high - cur.low) |cur.high - prev.close|)
      |cur.low - prev.close|)
    klines klines.tail

/-- Wilder's Average True Range. -/
def atr (klines : List (Kline K)) (period : Nat) : Py K :=
  if klines.length < period + 1 then
    raise .ValueError
      s!"need > {period} candles for ATR({period}), got {klines.length}"
  else
    let tr := trueRanges klines
    let seed := (tr.take period).sum / period
    .ok ((tr.drop period).foldl (fun a t => (a * (period - 1) + t) / period)
      seed)

/-- `np.mean`. -/
def mean (xs : List K) : K := xs.sum / xs.length

/-- The sample variance (`ddof=1`). -/
def sampleVar (xs : List K) : K :=
  (xs.map fun x => (x - mean xs) ^ 2).sum / (xs.length - 1)

/-- `close[-n:]`. -/
def lastN {α : Type} (n : Nat) (xs : List α) : List α :=
  xs.drop (xs.length - n)

/-- Annualised volatility of hourly closes, as a fraction. -/
def realizedVol (lib : Libm K) (closes : List K) (windowHours : Nat) :
    Py K := do
  let close := if windowHours = 0 then closes
    else lastN (windowHours + 1) closes
  if close.length < 3 then
    raise .ValueError "need >= 3 closes for realized_vol"
  else
    let logs ← close.mapM lib.npLog
    let logret := List.zipWith (fun a b => b - a) logs logs.tail
    .ok (lib.sqrt (sampleVar logret) * lib.sqrt 8760)

-- ============================================================== fee APR

/-- The first of the names a row has, as a float. -/
def rowNumber (row : PyVal K) : List String → Py K
  | [] => raise .KeyError "row missing any of the names"
  | nm :: nms =>
      match row.get? nm with
      | some v => v.number
      | none => rowNumber row nms

/-- Fee APR of a pool from its daily fees and TVL, as a fraction. -/
def feeApr (poolDayDatas : PyVal K) (days : Nat) : Py K := do
  let rows ← poolDayDatas.elements
  let window := lastN days rows
  if window.isEmpty then raise .ValueError "no pool day data"
  else
    let fees ← window.mapM fun r => rowNumber r ["fees_usd", "feesUSD"]
    let tvls ← window.mapM fun r => rowNumber r ["tvl_usd", "tvlUSD"]
    let tvlMean := tvls.sum / window.length
    if tvlMean ≤ 0 then raise .ValueError "non-positive mean TVL"
    else .ok (fees.sum / tvlMean * 365 / window.length)

-- ==================================================== impermanent loss

/-- Token amounts held by `L` units of v3 liquidity at price `p` for the
range `[pa, pb]`. -/
def v3Amounts (lib : Libm K) (L p pa pb : K) : Py (K × K) := do
  let sp ← lib.mathSqrt p
  let spa ← lib.mathSqrt pa
  let spb ← lib.mathSqrt pb
  if p ≤ pa then
    let x ← pyDiv (L * (spb - spa)) (spa * spb)
    pure (x, 0)
  else if pb ≤ p then pure (0, L * (spb - spa))
  else
    let x ← pyDiv (L * (spb - sp)) (sp * spb)
    pure (x, L * (sp - spa))

/-- `np.linspace(lo, hi, n)`. -/
def linspace (lo hi : K) (n : Nat) : List K :=
  if n = 1 then [lo]
  else (List.range n).map fun (i : Nat) => lo + i * ((hi - lo) / (n - 1))

/-- `np.trapezoid(ys, xs)`. -/
def trapezoid (ys xs : List K) : K :=
  (List.zipWith (fun dx sy => dx * sy / 2)
    (List.zipWith (fun a b => b - a) xs xs.tail)
    (List.zipWith (fun a b => a + b) ys ys.tail)).sum

/-- Expected impermanent loss of a bounded v3 range over `horizonDays`,
as a fraction of the held value. -/
def ilEstimate (lib : Libm K) (volAnnual horizonDays rangeWidthPct : K) :
    Py K := do
  if ¬ 0 < rangeWidthPct then
    raise .ValueError "range_width_pct must be > 0"
  else
    let w := min rangeWidthPct (999999 / 1000000)
    let p0 : K := 1
    let pa := 1 - w
    let pb := 1 + w
    -- unit-capital liquidity: the held value at entry is 1
    let (x0, y0) ← v3Amounts lib 1 p0 pa pb
    let L ← pyDiv 1 (x0 * p0 + y0)
    let x0 := x0 * L
    let y0 := y0 * L
    let root ← lib.mathSqrt (horizonDays / 365)
    let s := volAnnual * root
    if s ≤ 0 then pure 0
    else
      let mu := -(1 / 2) * s * s
      let lnK := linspace (mu - 8 * s) (mu + 8 * s) 4001
      let pdf := lnK.map fun x =>
        lib.exp (-((x - mu) ^ 2) / (2 * s * s)) / (s * lib.sqrt (2 * lib.pi))
      let il ← lnK.mapM fun x => do
        let k := lib.exp x
        let (x, y) ← v3Amounts lib L k pa pb
        pure (1 - (x * k + y) / (x0 * k + y0))
      pure (max (trapezoid (List.zipWith (· * ·) il pdf) lnK) 0)

-- ================================================================== gas

/-- `fixtures/gas_units.json`; every entry there is `verified`. -/
def gasUnits : List (String × Int) :=
  [("wrap_bnb", 45038), ("approve", 46364), ("swap_v2", 118387),
   ("v3_mint", 390300), ("v3_increase_liquidity", 167217),
   ("v3_decrease_liquidity", 161006), ("v3_collect", 84419),
   ("v3_burn", 70557), ("venus_repay_borrow", 205180),
   ("v2_add_liquidity", 177115), ("v2_remove_liquidity", 140839)]

/-- USD cost of one on-chain `op` at the live gas price and BNB/USD. -/
def gasCostUsd (w : World K) (op : String) : Py K :=
  match gasUnits.lookup op with
  | none => raise .GasUnitUnmeasured s!"no gas_units entry for '{op}'"
  | some gas => do
      let gasPriceWei ← w.gasPriceWei.read
      let bnbUsd ← (w.spotPrice "BNB-USDT").read
      pure (gas * gasPriceWei * bnbUsd / 10 ^ 18)

end Calibrate

end Proofstand
