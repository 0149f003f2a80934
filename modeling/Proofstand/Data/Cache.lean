/-
`data/sources/binance.py` get_klines and `data/cache.py` read_klines: the
paginated fetch and the parquet file it appends to.

`binance.get_json` is a function of the request, as it answers during one
call; whatever it raises goes through. Moments are milliseconds. Of a row
the quote volume, the trade count and the taker columns are left out.
A file is only written when there is something fresh, whole.

# One call

`read_klines` makes a plan, fetches, merges and cuts a window. The plan is
the window's start and its number of rows where there is no file, and the
tail after the newest row where there is one. The merge sorts by open time
and keeps the last row of a time; the file is written whole, and only if
something came. The window is cut from what is then in the file, by a
cutoff that has to be a moment a `datetime` can hold.

A fetch that raises leaves the file as it was; a cutoff that raises comes
after the write. So the file is in the result whether the rows are or not.
-/
import Proofstand.Data.Sources
import Proofstand.Lib.Series
import Proofstand.Lib.Session
import Proofstand.Python.Statistics

namespace Proofstand

open Series (ceilDiv keepLast)

/-- A row of the klines endpoint. -/
structure KlineRow (K : Type) extends Kline K where
  closeTimeMs : Int
  deriving DecidableEq, Repr

variable {K : Type}

-- ================================================================ binance

namespace Binance

/-- The query of one `/api/v3/klines` call. -/
structure Request where
  symbol : String
  interval : String
  limit : Int
  startTime : Option Int
  endTime : Option Int

/-- `get_json` on the klines endpoint. -/
abbrev Endpoint (K : Type) := Request → Py (List (KlineRow K))

/-- `_MAX_LIMIT`. -/
def maxLimit : Int := 1000

/-- `_symbol`. -/
def symbol (pair : String) : String :=
  String.ofList (pair.toUpper.toList.filter fun c => c ∉ ['-', '_', '/'])

/-- The loop of `get_klines`, from `cursor` on and with `out` so far. A
page that does not end it brings a row, so `limit` rounds are enough. -/
def pages (getJson : Endpoint K) (sym interval : String) (limit : Int)
    (startMs endMs : Option Int) :
    Nat → Option Int → List (KlineRow K) → Py (List (KlineRow K))
  | 0, _, out => .ok out
  | fuel + 1, cursor, out =>
      if (out.length : Int) < limit then do
        let asked := min maxLimit (limit - out.length)
        let rows ← getJson ⟨sym, interval, asked, cursor, endMs⟩
        match rows.getLast? with
        | none => pure out
        | some last =>
            if (rows.length : Int) < asked ∨ startMs = none then
              pure (out ++ rows)
            else
              pages getJson sym interval limit startMs endMs fuel
                (some (last.closeTimeMs + 1)) (out ++ rows)
      else .ok out

/-- `get_klines`. -/
def getKlines (getJson : Endpoint K) (pair interval : String) (limit : Int)
    (startMs endMs : Option Int) : Py (List (KlineRow K)) := do
  let out ← pages getJson (symbol pair) interval limit startMs endMs
    limit.toNat startMs []
  pure (out.take limit.toNat)

end Binance

-- ================================================================== cache

namespace Cache

/-- `INTERVAL_MS`. -/
def intervalMs : List (String × Int) :=
  [("1m", 60000), ("5m", 300000), ("15m", 900000), ("30m", 1800000),
   ("1h", 3600000), ("4h", 14400000), ("1d", 86400000)]

/-- The rows of a parquet file, if there is one. -/
abbrev File (K : Type) := Option (List (KlineRow K))

/-- `KLINES_DIR`: its files by what `_klines_path` names them after, the
symbol and the interval. -/
abbrev Store (K : Type) := String × String → File K

/-- `_merge`. -/
def merge (existing : File K) (fresh : List (KlineRow K)) :
    List (KlineRow K) :=
  pySortedBy (fun r => r.openTimeMs)
    (keepLast (fun r => r.openTimeMs) (existing.getD [] ++ fresh))

/-- Years 1 to 9999, what a `datetime` can hold. -/
def representable (ms : Int) : Bool :=
  -62135596800000 ≤ ms ∧ ms < 253402300800000

/-- `_window`. -/
def window (rows : List (KlineRow K)) (fromMs : Int) :
    Py (List (KlineRow K)) :=
  if rows.isEmpty then .ok rows
  else if representable fromMs then
    .ok (rows.filter fun r => fromMs ≤ r.openTimeMs)
  else raise .ValueError "year is out of range"

/-- Where the fetch starts and how many rows it asks for: the window, or
the tail after the newest row. -/
def fetchPlan (step nowMs days : Int) (existing : File K) : Int × Int :=
  match ((existing.getD []).map fun r => r.openTimeMs).max? with
  | none =>
      (nowMs - days * 86400000, ceilDiv (days * 86400000) step + 5)
  | some lastOpen =>
      (lastOpen + step,
        max 2 (ceilDiv (nowMs - (lastOpen + step)) step + 2))

/-- What `read_klines` fetches; nothing, where the tail starts now or
later. -/
def fetch (getJson : Binance.Endpoint K) (pair interval : String)
    (step nowMs days : Int) (existing : File K) :
    Py (List (KlineRow K)) :=
  let (startMs, limit) := fetchPlan step nowMs days existing
  if startMs < nowMs then
    Binance.getKlines getJson pair interval limit (some startMs)
      (some nowMs)
  else .ok []

/-- `read_klines` on the file of its pair and interval. -/
def readFile (getJson : Binance.Endpoint K) (pair interval : String)
    (step nowMs days : Int) (refresh : Bool) (existing : File K) :
    Session.Outcome Exc (File K) (List (KlineRow K)) :=
  let wantFrom := nowMs - days * 86400000
  match refresh, existing with
  | false, some rows => (window rows wantFrom, existing)
  | _, _ =>
      match fetch getJson pair interval step nowMs days existing with
      | .error e => (.error e, existing)
      | .ok [] => (window (existing.getD []) wantFrom, existing)
      | .ok fresh =>
          let merged := merge existing fresh
          (window merged wantFrom, some merged)

/-- The arguments of a call, the clock at its start, and what the endpoint
answers while it runs. -/
structure Call (K : Type) where
  pair : String
  interval : String
  days : Int
  refresh : Bool
  nowMs : Int
  getJson : Binance.Endpoint K

/-- The file a call works on. -/
def Call.key (c : Call K) : String × String :=
  (Binance.symbol c.pair, c.interval)

/-- `read_klines`. -/
def readKlines (c : Call K) (store : Store K) :
    Session.Outcome Exc (Store K) (List (KlineRow K)) :=
  match intervalMs.lookup c.interval with
  | none =>
      (raise .ValueError
        (s!"unsupported interval '{c.interval}'; one of "
          ++ reprTexts (pySortedBy id (intervalMs.map Prod.fst))), store)
  | some step =>
      let (rows, file) := readFile c.getJson c.pair c.interval step c.nowMs
        c.days c.refresh (store c.key)
      (rows, Function.update store c.key file)

/-- The files after a sequence of calls. -/
def after (calls : List (Call K)) : Store K :=
  calls.foldl (fun store c => (readKlines c store).2) fun _ => none

end Cache

end Proofstand
