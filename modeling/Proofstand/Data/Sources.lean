/-
What the code reads from outside: candles, the chain, DefiLlama, the
clock, and what another agent says. A `World` holds what every such read
returns at one moment, so a function that takes no world reads nothing
live.

Fields no modelled function uses are left out of the records.

A read is an `Except`: the answer, or the message of the exception. One
`World` is a snapshot, and a function that reads twice reads the same
answer twice; where it matters that the outside moves in between, the
function takes two of them. What is deterministic about an answer (the
health factor from the sums, the dominant market from the markets) is
computed here, as the client code computes it.
-/
import Proofstand.Python.Value

namespace Proofstand

-- ============================================================== candles

/-- One candle's open time and prices. -/
structure Candle (K : Type) where
  openTimeMs : Int
  openPrice : K
  high : K
  low : K
  close : K
  deriving DecidableEq, Repr

/-- A candle as the exchange reports it. -/
structure Kline (K : Type) extends Candle K where
  volume : K
  deriving DecidableEq, Repr

/-- The dict of a candle. -/
def Candle.toVal {K : Type} (c : Candle K) : PyVal K :=
  .dict
    [("open_time_ms", .int c.openTimeMs),
     ("open", .float (.fin c.openPrice)), ("high", .float (.fin c.high)),
     ("low", .float (.fin c.low)), ("close", .float (.fin c.close))]

/-- The dict `_serialize` makes of a candle. -/
def Kline.toVal {K : Type} (k : Kline K) : PyVal K :=
  .dict
    [("open_time_ms", .int k.openTimeMs),
     ("open", .float (.fin k.openPrice)), ("high", .float (.fin k.high)),
     ("low", .float (.fin k.low)), ("close", .float (.fin k.close)),
     ("volume", .float (.fin k.volume))]

/-- `df.tail(n)`: the last `n` rows, or all but the first `-n`. -/
def tailRows {α : Type} (n : Int) (rows : List α) : List α :=
  if 0 ≤ n then rows.drop (rows.length - n.toNat) else rows.drop (-n).toNat

/-- The days between the first and the last candle. -/
def windowDays {K : Type} [Field K] (rows : List (Candle K)) : K :=
  match rows.head?, rows.getLast? with
  | some a, some b => ((b.openTimeMs - a.openTimeMs : Int) : K) / 86400000
  | _, _ => 0

-- ================================================================ Venus

/-- One market of an account: what it supplied there, and what of that
counts. -/
structure MarketPosition (K : Type) where
  symbol : String
  collateralFactor : K
  supplyUsd : K
  deriving DecidableEq, Repr

/-- What Venus says of an account. -/
structure AccountHealth (K : Type) where
  markets : List (MarketPosition K)
  totalSupplyUsd : K
  totalBorrowUsd : K
  collateralAdjustedUsd : K
  liquidityUsd : K
  deriving DecidableEq, Repr

section

variable {K : Type} [Field K] [LinearOrder K]

/-- The supplied value, where it is a collateral, by its factor. -/
def MarketPosition.collateralAdjustedUsd (m : MarketPosition K) : K :=
  m.supplyUsd * m.collateralFactor

/-- `health_factor`: without a debt it is infinite. -/
def AccountHealth.healthFactor (h : AccountHealth K) : WithTop K :=
  if h.totalBorrowUsd ≤ 0 then ⊤
  else ((h.collateralAdjustedUsd / h.totalBorrowUsd : K) : WithTop K)

/-- The market with the largest supply, the first of equals. -/
def AccountHealth.dominantCollateral (h : AccountHealth K) :
    Option (MarketPosition K) :=
  (h.markets.filter fun m => 0 < m.supplyUsd).foldl
    (fun best m =>
      match best with
      | none => some m
      | some b => if b.supplyUsd < m.supplyUsd then some m else some b)
    none

end

-- ================================================== pools and the world

/-- `rpc.PoolState`. -/
structure PoolState where
  token0 : String
  token1 : String
  fee : Int
  tickSpacing : Int
  tick : Int
  deriving DecidableEq, Repr

/-- `llama.Pool`. -/
structure LlamaPool (K : Type) where
  pool : String
  symbol : String
  tvlUsd : Option K
  apy : Option K
  apyBase : Option K
  apyReward : Option K := none
  apyMean30d : Option K := none
  underlyingTokens : Option (List String)
  poolMeta : Option String
  deriving DecidableEq, Repr

/-- `llama.ChartPoint`, its moment in seconds. -/
structure ChartPoint (K : Type) where
  timestamp : K
  tvlUsd : Option K
  deriving DecidableEq, Repr

/-- The verdicts `score_report` gives. -/
inductive SentryVerdict
  | OK | WARN | CRITICAL
  deriving DecidableEq, Repr

/-- What pcs-yield takes from a bsc-sentry `Report`. -/
structure SentryReport where
  verdict : SentryVerdict
  score : Int
  hardFails : List String
  deriving DecidableEq, Repr

/-- What a live read brings: a value, or the message it failed with. -/
abbrev Live (α : Type) := Except String α

/-- Making the read: a failure is raised. -/
def Live.read {α : Type} : Live α → Py α
  | .ok a => .ok a
  | .error msg => raise .NetworkError msg

/-- A live read that returned is what was answered. -/
theorem Live.read_eq_ok {α : Type} {x : Live α} {a : α} :
    x.read = .ok a ↔ x = .ok a := by
  cases x with
  | ok b =>
      constructor
      · intro h
        cases h
        rfl
      · intro h
        cases h
        rfl
  | error msg => exact ⟨nofun, nofun⟩

/-- The outside world at one moment. -/
structure World (K : Type) where
  /-- `time.time()` -/
  now : K
  /-- `rpc.gas_price_wei()` -/
  gasPriceWei : Live Int
  /-- `binance.spot_price(pair)` -/
  spotPrice : String → Live K
  /-- `cache.read_klines(pair, "1h", days=days)` -/
  readKlines : String → Int → Live (List (Kline K))
  /-- `binance.get_klines(pair, "1h", limit=limit, start_ms=start_ms)` -/
  getKlines : String → Int → Int → Live (List (Kline K))
  /-- `venus.account_health(account)` -/
  accountHealth : String → Live (AccountHealth K)
  /-- `closeFactorMantissa()` of the Comptroller -/
  closeFactorMantissa : Live Int
  /-- `rpc.pancake_v3_pool_state(pool)` -/
  poolState : String → Live PoolState
  /-- `llama.get_pools(chain="BSC", project="pancakeswap")` -/
  llamaPools : Live (List (LlamaPool K))
  /-- `llama.get_pools(chain="BSC", project="pancakeswap-amm")` -/
  ammPools : Live (List (LlamaPool K))
  /-- `llama.get_pool_chart(pool)` -/
  poolChart : String → Live (List (ChartPoint K))
  /-- `anvil_fork()`, entering it -/
  anvilFork : Live Unit
  /-- `anvil_fork()`, leaving it -/
  anvilExit : Live Unit
  /-- `score_report(token, gather(token, w3))`, on the fork -/
  sentryReport : String → Live SentryReport
  /-- `fixtures/manual_baselines.json`, when it is there -/
  manualBaselines : Option (PyVal K)

/-- A world where nothing can be read. -/
def World.offline {K : Type} [Zero K] : World K where
  now := 0
  gasPriceWei := .error "unreachable"
  spotPrice _ := .error "unreachable"
  readKlines _ _ := .error "unreachable"
  getKlines _ _ _ := .error "unreachable"
  accountHealth _ := .error "unreachable"
  closeFactorMantissa := .error "unreachable"
  poolState _ := .error "unreachable"
  llamaPools := .error "unreachable"
  ammPools := .error "unreachable"
  poolChart _ := .error "unreachable"
  anvilFork := .error "unreachable"
  anvilExit := .ok ()
  sentryReport _ := .error "unreachable"
  manualBaselines := none

end Proofstand
