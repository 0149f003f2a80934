/-
Pagination, against any exchange whose candles lie apart.

The window from a cursor on is what the rounds have left: the window from
the moment after a candle has closed is what is left of the one before
(`window_after`), so the rule of the loop applies to it (`pages_takes`).
The rows are those of one query without a page size, and `limit` rounds
bring them (`getKlines_eq_window`).

# A window and its rest

The candles of a history need no interval: they are spans in order that do
not overlap, and a window is those that open between its bounds. Cutting a
window after some candle leaves the window from the moment after that
candle's close, because the next one opens later than it closed; that is
the equation the loop's cursor needs. `limit` rounds are enough since a
round that does not end the loop brings a candle.

The endpoint is any function that answers as documented. That such an
endpoint exists for every history is `serving_answers`.
-/
import Proofstand.Data.Proofs.Exchange

namespace Proofstand

open Fallible Series

variable {K : Type}

-- ================================================== statement vocabulary

/-- The candles of a symbol at an interval, in order and apart. -/
structure KlineHistory (K : Type) where
  rows : List (KlineRow K)
  spans : ∀ r ∈ rows, r.openTimeMs ≤ r.closeTimeMs
  apart : rows.Pairwise fun r s => r.closeTimeMs < s.openTimeMs

namespace KlineHistory

/-- The candles that open in a window; one without an end has no end. -/
def window (x : KlineHistory K) (startMs : Int) (endMs : Option Int) :
    List (KlineRow K) :=
  x.rows.filter fun r =>
    startMs ≤ r.openTimeMs ∧ ∀ e ∈ endMs, r.openTimeMs ≤ e

/-- The endpoint answers a request from a moment on with the first candles
of its window, a thousand at most. -/
def Answers (x : KlineHistory K) (sym interval : String)
    (getJson : Binance.Endpoint K) : Prop :=
  ∀ req startMs, req.symbol = sym → req.interval = interval →
    req.startTime = some startMs →
    getJson req = .ok ((x.window startMs req.endTime).take
      (min req.limit 1000).toNat)

-- ============================================================= the window

theorem window_spans (x : KlineHistory K) (startMs : Int)
    (endMs : Option Int) :
    ∀ r ∈ x.window startMs endMs, r.openTimeMs ≤ r.closeTimeMs :=
  fun r hr => x.spans r (List.mem_of_mem_filter hr)

theorem window_apart (x : KlineHistory K) (startMs : Int)
    (endMs : Option Int) :
    (x.window startMs endMs).Pairwise fun r s =>
      r.closeTimeMs < s.openTimeMs :=
  x.apart.filter _

/-- What a window has after a cut is the window from after the last candle
before it. -/
theorem window_after {x : KlineHistory K} {startMs : Int} {endMs : Option Int}
    {n : Nat} {r : KlineRow K}
    (hr : ((x.window startMs endMs).take n).getLast? = some r) :
    (x.window startMs endMs).drop n
      = x.window (r.closeTimeMs + 1) endMs := by
  rw [drop_eq_filter_after (x.window_spans startMs endMs)
    (x.window_apart startMs endMs) hr]
  have hmem := List.mem_of_mem_take (List.mem_of_getLast? hr)
  have hstart : startMs ≤ r.openTimeMs := by
    have htest := (List.mem_filter.1 hmem).2
    rw [decide_eq_true_eq] at htest
    exact htest.1
  have hspan := x.window_spans startMs endMs r hmem
  unfold window
  rw [List.filter_filter]
  apply List.filter_congr
  intro s _
  rw [Bool.eq_iff_iff, Bool.and_eq_true, decide_eq_true_eq,
    decide_eq_true_eq, decide_eq_true_eq, Int.add_one_le_iff]
  constructor
  · intro h
    obtain ⟨hlt, -, hend⟩ := h
    exact ⟨hlt, hend⟩
  · intro h
    obtain ⟨hlt, hend⟩ := h
    exact ⟨hlt, by omega, hend⟩

end KlineHistory

-- =============================================================== the loop

namespace Binance

/-- A page that starts where the last one ended goes on with the rest. -/
theorem resumes_window (x : KlineHistory K) (endMs : Option Int) :
    Resumes fun cursor => x.window cursor endMs :=
  fun _ _ _ hlast => KlineHistory.window_after hlast

/-- A page that is asked for, of at most a thousand rows. -/
theorem page_window {x : KlineHistory K} {sym interval : String}
    {getJson : Endpoint K} (hanswer : x.Answers sym interval getJson)
    {endMs : Option Int} {k : Nat} {cursor : Int} {rows : List (KlineRow K)}
    (hk : (k : Int) ≤ 1000)
    (hrows : getJson ⟨sym, interval, k, some cursor, endMs⟩ = .ok rows) :
    rows = (x.window cursor endMs).take k := by
  have hpage := hanswer ⟨sym, interval, k, some cursor, endMs⟩ cursor rfl rfl
    rfl
  rw [hrows, min_eq_left hk, Int.toNat_natCast] at hpage
  exact Except.ok.inj hpage

/-- The rounds of a whole call, with any fuel from `limit` on. -/
theorem pages_eq_window {x : KlineHistory K} {sym interval : String}
    {getJson : Endpoint K} (hanswer : x.Answers sym interval getJson)
    {limit start : Int} {endMs : Option Int} {fuel : Nat}
    (hfuel : limit.toNat ≤ fuel) :
    pages getJson sym interval limit (some start) endMs fuel (some start) []
      = .ok ((x.window start endMs).take limit.toNat) := by
  obtain ⟨res, hres⟩ := pages_total
    (fun k cursor => ⟨_, hanswer ⟨sym, interval, k, some cursor, endMs⟩
      cursor rfl rfl rfl⟩) limit start fuel start []
  have htakes := pages_takes (resumes_window x endMs)
    (fun k cursor rows => page_window hanswer)
    (by rw [List.length_nil]; omega) hres
  rw [List.length_nil, Nat.cast_zero, sub_zero, List.nil_append] at htakes
  rw [hres, htakes]

/-- What `get_klines` returns is what is listed from the start on, cut at the
limit. -/
theorem getKlines_eq_window {x : KlineHistory K} {pair interval : String}
    {getJson : Endpoint K}
    (hanswer : x.Answers (symbol pair) interval getJson) (limit start : Int)
    (endMs : Option Int) :
    getKlines getJson pair interval limit (some start) endMs
      = .ok ((x.window start endMs).take limit.toNat) := by
  rw [getKlines, pages_eq_window hanswer (le_refl _), ok_bind,
    List.take_take, min_self]
  rfl

/-- One query for everything: the first `limit` candles of the window.
The loop is through after `limit` rounds at most. -/
theorem getKlines_window {x : KlineHistory K} {pair interval : String}
    {getJson : Endpoint K}
    (hanswer : x.Answers (symbol pair) interval getJson) (limit start : Int)
    (endMs : Option Int) :
    getKlines getJson pair interval limit (some start) endMs
        = .ok ((x.window start endMs).take limit.toNat)
      ∧ ∀ fuel, limit.toNat ≤ fuel →
        pages getJson (symbol pair) interval limit (some start) endMs fuel
            (some start) []
          = .ok ((x.window start endMs).take limit.toNat) :=
  ⟨getKlines_eq_window hanswer limit start endMs,
    fun _ hfuel => pages_eq_window hanswer hfuel⟩

-- ======================================================== one exchange

/-- The endpoint of an exchange. -/
def serving (x : KlineHistory K) : Endpoint K := fun req =>
  match req.startTime with
  | some startMs =>
      .ok ((x.window startMs req.endTime).take (min req.limit 1000).toNat)
  | none => .ok []

/-- An endpoint that serves a history answers as it does. -/
theorem serving_answers (x : KlineHistory K) (sym interval : String) :
    x.Answers sym interval (serving x) := by
  intro req startMs _ _ hstart
  unfold serving
  rw [hstart]

/-- A candle of ten moments at one price. -/
def tenFrom (t : Int) : KlineRow ℚ where
  openTimeMs := t
  openPrice := 1
  high := 1
  low := 1
  close := 1
  volume := 0
  closeTimeMs := t + 9

/-- Some of them, each a gap of ten moments after the last. -/
def gapped (n : Nat) : KlineHistory ℚ where
  rows := (List.range n).map fun i : Nat => tenFrom (20 * i)
  spans := by
    intro r hr
    obtain ⟨i, -, rfl⟩ := List.mem_map.1 hr
    show (20 * i : Int) ≤ 20 * i + 9
    omega
  apart := by
    rw [List.pairwise_map]
    refine List.pairwise_lt_range.imp ?_
    intro i j hij
    show (20 * i + 9 : Int) < 20 * j
    omega

/-- Of fifteen hundred candles, twelve hundred from the second on come in
two pages. -/
theorem getKlines_window_gapped :
    getKlines (serving (gapped 1500)) "BNB-USDT" "1m" 1200 (some 5) none
      = .ok ((List.range 1200).map fun i : Nat => tenFrom (20 * (i + 1))) := by
  have hwindow : ((gapped 1500).window 5 none).take (1200 : Int).toNat
      = (List.range 1200).map fun i : Nat => tenFrom (20 * (i + 1)) := by
    decide +kernel
  rw [← hwindow]
  exact (getKlines_window (serving_answers (gapped 1500) _ _) 1200 5 none).1

end Binance

-- ============================================================== the cache

namespace Cache

/-- What `read_klines` fetches is one query from its start to now. -/
theorem fetch_window {x : KlineHistory K} {pair interval : String}
    {getJson : Binance.Endpoint K}
    (hanswer : x.Answers (Binance.symbol pair) interval getJson)
    (step nowMs days : Int) (existing : File K) :
    fetch getJson pair interval step nowMs days existing
      = .ok (if startOf step nowMs days existing < nowMs then
          (x.window (startOf step nowMs days existing) (some nowMs)).take
            (fetchPlan step nowMs days existing).2.toNat
        else []) := by
  unfold fetch startOf
  dsimp only
  split
  · exact Binance.getKlines_eq_window hanswer _ _ _
  · rfl

end Cache

end Proofstand
