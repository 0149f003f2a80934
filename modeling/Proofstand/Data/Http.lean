/-
`sources/_http.py`'s token bucket, and the one `sources/bscscan.py` calls
through.

The clock is a parameter: each take gets the moment it is made at and by
how much its sleep, if it sleeps, lasts longer than asked. A take holds
the lock until it returns, so takes are served one after another, and
`_last` is the moment the lock was last released.

A take refills the bucket by the time since the lock was last released,
at most to the capacity, and then takes one token; if there is none it
sleeps for as long as the missing part needs and leaves the bucket empty
at the moment it wakes. So a sleep that lasts longer than asked gives its
surplus away. `completions` folds this over a list of calls, each with its
arrival and its oversleep.
-/
import Proofstand.Lib.Numerals
import Mathlib.Algebra.Order.Field.Basic
import Mathlib.Tactic

namespace Proofstand

/-- `TokenBucket`, of a positive rate: any other raises in the first sleep
of `take`. -/
structure TokenBucket (K : Type) [Field K] [LinearOrder K] where
  rate : K
  capacity : K
  tokens : K
  last : K
  rate_pos : 0 < rate

namespace TokenBucket

variable {K : Type} [Field K] [LinearOrder K]

/-- `__init__`. -/
def new (rate : K) (capacity : Option K) (now : K) (h : 0 < rate) :
    TokenBucket K where
  rate := rate
  capacity := capacity.getD rate
  tokens := capacity.getD rate
  last := now
  rate_pos := h

/-- The tokens, refilled since `_last`. -/
def level (b : TokenBucket K) (now : K) : K :=
  min b.capacity (b.tokens + (now - b.last) * b.rate)

/-- `take`. -/
def take (b : TokenBucket K) (n now late : K) : TokenBucket K :=
  let tokens := b.level now
  if tokens < n then
    let deficit := n - tokens
    { b with tokens := 0, last := now + (deficit / b.rate + late) }
  else { b with tokens := tokens - n, last := now }

/-- `take()`, called at `call.1`: it waits for the lock first. -/
def serve (b : TokenBucket K) (call : K × K) : TokenBucket K :=
  b.take 1 (max call.1 b.last) call.2

/-- The moments at which the takes return. -/
def completions (b : TokenBucket K) : List (K × K) → List K
  | [] => []
  | call :: calls => (b.serve call).last :: (b.serve call).completions calls

end TokenBucket

/-- BscScan's `_BUCKET`. -/
def bscScanBucket {K : Type} [Field K] [LinearOrder K]
    [IsStrictOrderedRing K] (created : K) : TokenBucket K :=
  .new 4 (some 4) created four_pos

end Proofstand
