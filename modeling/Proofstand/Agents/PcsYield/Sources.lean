/-
`pcs_yield/sources.py`: the candidate pools, the volatility of a pair's
price, and the TVL of two weeks ago. One moment stands for the clock
reads of one observation.
-/
import Proofstand.Data.Calibrate
import Proofstand.Python.Statistics

namespace Proofstand

namespace PcsYield

open Calibrate

variable {K : Type} [Field K] [LinearOrder K]

/-- `BINANCE_BASE`. -/
def binanceBase : List (String × String) :=
  [("WBNB", "BNB"), ("BNB", "BNB"), ("BTCB", "BTC"), ("ETH", "ETH"),
   ("CAKE", "CAKE"), ("XRP", "XRP"), ("DOGE", "DOGE"), ("TRX", "TRX"),
   ("ADA", "ADA"), ("LTC", "LTC"), ("DOT", "DOT"), ("LINK", "LINK"),
   ("MATIC", "MATIC"), ("AVAX", "AVAX"), ("SOL", "SOL"), ("UNI", "UNI"),
   ("ATOM", "ATOM"), ("FIL", "FIL")]

/-- `STABLES`. -/
def stables : List String :=
  ["USDT", "USDC", "BUSD", "DAI", "FDUSD", "TUSD", "USD1"]

/-- The pools above the TVL floor with two tokens and a yield, by TVL. -/
def candidatePools (w : World K) (minTvlUsd : K) (limit : Nat) :
    Py (List (LlamaPool K)) := do
  let pools ← w.ammPools.read
  let out := pools.filter fun p =>
    minTvlUsd ≤ p.tvlUsd.getD 0
      ∧ (p.underlyingTokens.any fun ts => ts.length = 2)
      ∧ (p.apy.isSome ∨ p.apyBase.isSome)
      ∧ '-' ∈ p.symbol.toList
  pure ((pySortedBy (fun p => -(p.tvlUsd.getD 0)) out).take limit)

/-- `_legs`: the symbol in capitals, cut at its first hyphen. -/
def legs (symbol : String) : String × String :=
  let cs := symbol.toUpper.toList
  (String.ofList (cs.takeWhile (· ≠ '-')),
   String.ofList (cs.dropWhile (· ≠ '-')).tail)

variable [FloorRing K]

/-- `_usdt_closes`. -/
def usdtCloses (w : World K) (base : String) (days : Int) :
    Py (List (Kline K)) := do
  let startMs := PyVal.truncate ((w.now - days * 86400) * 1000)
  let kl ← (w.getKlines (base ++ "-USDT") (min 1000 (days * 24))
    startMs).read
  if kl.isEmpty then
    raise .VolUnavailable ("no Binance " ++ base ++ "-USDT klines")
  else pure kl

omit [Field K] [LinearOrder K] [FloorRing K] in
/-- `da.merge(db, on="open_time")`. -/
def mergeOnOpenTime (da db : List (Kline K)) : List (Kline K × Kline K) :=
  da.flatMap fun a =>
    (db.filter fun b => b.openTimeMs = a.openTimeMs).map fun b => (a, b)

/-- The volatility of the price of one leg in the other. -/
def pairVolAnnual (lib : Libm K) (w : World K) (poolSymbol : String)
    (days : Int) : Py K :=
  let (a, b) := legs poolSymbol
  let aStable := stables.contains a
  let bStable := stables.contains b
  if aStable && bStable then .ok 0
  else if aStable ^^ bStable then
    let volLeg := if aStable then b else a
    match binanceBase.lookup volLeg with
    | none => raise .VolUnavailable ("no Binance mapping for " ++ volLeg)
    | some base => do
        let closes ← usdtCloses w base days
        realizedVol lib (closes.map (·.close)) 720
  else
    match binanceBase.lookup a, binanceBase.lookup b with
    | some ba, some bb => do
        let da ← usdtCloses w ba days
        let db ← usdtCloses w bb days
        let m := mergeOnOpenTime da db
        if m.length < 48 then
          raise .VolUnavailable
            ("too few overlapping candles for " ++ a ++ "/" ++ b)
        else
          let ratio ← m.mapM fun row => npDiv row.1.close row.2.close
          realizedVol lib ratio 720
    | none, _ => raise .VolUnavailable ("no Binance mapping for " ++ a)
    | _, none => raise .VolUnavailable ("no Binance mapping for " ++ b)

omit [FloorRing K] in
/-- The TVL 14 days back in the daily chart, or at its first point; none
where the chart cannot be read. -/
def tvl14dAgo (w : World K) (poolId : String) : Option K :=
  match w.poolChart poolId with
  | .error _ => none
  | .ok chart =>
      let pts := chart.filter fun c => c.tvlUsd.isSome
      if pts.length < 2 then none
      else
        let cutoff := w.now - 14 * 86400
        let older := pts.filter fun c => c.timestamp ≤ cutoff
        (older.getLast?.or pts.head?).bind fun c => c.tvlUsd

end PcsYield

end Proofstand
