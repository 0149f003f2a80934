/-
The exchange as the klines cache may rely on it, and what a paginated
fetch brings from it.

A `Market` is one symbol at one interval: the multiples of the interval
at which a candle opens, and how each candle stands at any moment, fixed
once it has closed. `Serves` is the endpoint's documented answer to a
query with both bounds (up to 1000 candles, in order), or any failure.
`getKlines` then brings the candles from its start to now, the first
`limit` of them, each as it stands (`getKlines_eq_ok`).

# The rounds

The loop is read once, over any endpoint whose pages are the first of the
rows that are left from a cursor on (`pages_takes`). All it needs of those
rows is that they resume: what a cut leaves is what is left from the
moment after the last row before it (`Resumes`). A market's candles do,
since the next one opens a step after the last; so do those of a history
without an interval, in `Proofs/Pages.lean`.
-/
import Proofstand.Data.Cache
import Proofstand.Lib.Fallible

namespace Proofstand

open Fallible Series

variable {K : Type}

-- ================================================== statement vocabulary

/-- One symbol at one interval. -/
structure Market (K : Type) where
  step : Int
  step_pos : 0 < step
  /-- a candle opens at this multiple of the interval -/
  listed : Int → Bool
  /-- the candle that opens at the first moment, as it stands at the
  second -/
  quote : Int → Int → Kline K
  opens : ∀ t now, (quote t now).openTimeMs = t
  settled : ∀ t now, t + step ≤ now → quote t now = quote t (t + step)

namespace Market

/-- The open times of the candles from `a` to `b`. -/
def candles (m : Market K) (a b : Int) : List Int :=
  (points m.step a b).filter fun t => m.listed t

/-- What a candle is once it has closed. -/
def final (m : Market K) (t : Int) : Kline K := m.quote t (t + m.step)

def row (m : Market K) (now t : Int) : KlineRow K :=
  { m.quote t now with closeTimeMs := t + m.step - 1 }

/-- The answer to a query with both bounds. -/
def page (m : Market K) (now a b limit : Int) : List (KlineRow K) :=
  ((m.candles a (min b now)).take (min limit 1000).toNat).map (m.row now)

end Market

/-- The endpoint answers for this market. -/
def Answers (m : Market K) (now : Int) (sym interval : String)
    (getJson : Binance.Endpoint K) : Prop :=
  ∀ req a b, req.symbol = sym → req.interval = interval →
    req.startTime = some a → req.endTime = some b →
    getJson req = .ok (m.page now a b req.limit)

/-- The endpoint answers for this market, or fails. -/
def Serves (m : Market K) (now : Int) (sym interval : String)
    (getJson : Binance.Endpoint K) : Prop :=
  ∀ req a b, req.symbol = sym → req.interval = interval →
    req.startTime = some a → req.endTime = some b →
    (∃ e, getJson req = .error e)
      ∨ getJson req = .ok (m.page now a b req.limit)

-- ================================================================ candles

namespace Market

/-- The candles of a span are the listed openings in it, -/
theorem mem_candles_iff {m : Market K} {a b t : Int} :
    t ∈ m.candles a b
      ↔ (m.step ∣ t ∧ m.listed t = true) ∧ a ≤ t ∧ t ≤ b := by
  rw [candles, List.mem_filter, mem_points_iff m.step_pos]
  tauto

/-- in ascending order, -/
theorem candles_ascending (m : Market K) (a b : Int) :
    (m.candles a b).Pairwise (· < ·) :=
  (points_ascending m.step_pos a b).filter _

/-- and no more than fit. -/
theorem length_candles_le (m : Market K) (a b : Int) :
    ((m.candles a b).length : Int) ≤ max 0 (ceilDiv (b - a) m.step + 1) := by
  have hle : (m.candles a b).length ≤ (points m.step a b).length :=
    List.length_filter_le _ _
  have hpoints := length_points_le m.step_pos a b
  omega

/-- A candle opens at its own moment, -/
@[simp] theorem row_openTimeMs (m : Market K) (now t : Int) :
    (m.row now t).openTimeMs = t := m.opens t now

/-- and closes a millisecond before the next. -/
@[simp] theorem row_closeTimeMs (m : Market K) (now t : Int) :
    (m.row now t).closeTimeMs = t + m.step - 1 := rfl

/-- So the rows told have the openings they were told for. -/
theorem map_row_openTimeMs (m : Market K) (now : Int) (ts : List Int) :
    ((ts.map (m.row now)).map fun r => r.openTimeMs) = ts := by
  rw [List.map_map]
  conv_rhs => rw [← List.map_id ts]
  apply List.map_congr_left
  intro t _
  exact m.row_openTimeMs now t

/-- Between two points of the grid the next candle is a step away. -/
theorem lt_iff_step_le {m : Market K} {s t : Int} (hs : m.step ∣ s)
    (ht : m.step ∣ t) : s < t ↔ s + m.step ≤ t := by
  obtain ⟨i, rfl⟩ := hs
  obtain ⟨j, rfl⟩ := ht
  have hstep := m.step_pos
  constructor
  · intro hlt
    have hij : i + 1 ≤ j := lt_of_mul_lt_mul_left hlt hstep.le
    nlinarith
  · intro hle
    linarith

/-- The candles after a cut are those from a step after the last one
before it. -/
theorem candles_drop {m : Market K} {a b t : Int} {n : Nat}
    (ht : ((m.candles a b).take n).getLast? = some t) :
    (m.candles a b).drop n = m.candles (t + m.step) b := by
  have htmem := List.mem_of_mem_take (List.mem_of_getLast? ht)
  obtain ⟨⟨hgrid, -⟩, hat, -⟩ := mem_candles_iff.1 htmem
  apply List.Pairwise.eq_of_mem_iff
    ((m.candles_ascending a b).sublist (List.drop_sublist n _))
    (m.candles_ascending (t + m.step) b)
  intro x
  rw [mem_drop_iff (m.candles_ascending a b) ht, mem_candles_iff,
    mem_candles_iff]
  constructor
  · intro h
    obtain ⟨⟨hx, -, hxb⟩, hlt⟩ := h
    exact ⟨hx, (lt_iff_step_le hgrid hx.1).1 hlt, hxb⟩
  · intro h
    obtain ⟨hx, hle, hxb⟩ := h
    have hlt : t < x := (lt_iff_step_le hgrid hx.1).2 hle
    exact ⟨⟨hx, (hat.trans_lt hlt).le, hxb⟩, hlt⟩

end Market

-- =============================================================== the fetch

/-- A page that came has the first candles from its start on. -/
theorem Serves.page_eq {m : Market K} {now : Int} {sym interval : String}
    {getJson : Binance.Endpoint K} (h : Serves m now sym interval getJson)
    {k : Nat} (hk : (k : Int) ≤ 1000) {a : Int} {rows : List (KlineRow K)}
    (hrows : getJson ⟨sym, interval, k, some a, some now⟩ = .ok rows) :
    rows = ((m.candles a now).take k).map (m.row now) := by
  rcases h ⟨sym, interval, k, some a, some now⟩ a now rfl rfl rfl rfl
    with ⟨e, he⟩ | hpage
  · rw [he] at hrows
    cases hrows
  · rw [hrows, Market.page, min_self, min_eq_left hk, Int.toNat_natCast]
      at hpage
    exact Except.ok.inj hpage

namespace Binance

/-- A round asks for at least one row, at most a page and no more than are
left. -/
theorem exists_pageSize {left : Int} (h : 0 < left) :
    ∃ k : Nat, (k : Int) = min maxLimit left ∧ 0 < k ∧ (k : Int) ≤ left
      ∧ (k : Int) ≤ 1000 := by
  have hpos : 0 < min maxLimit left := lt_min (by decide) h
  refine ⟨(min maxLimit left).toNat, Int.toNat_of_nonneg hpos.le, ?_⟩
  rw [Int.toNat_of_nonneg hpos.le]
  exact ⟨Int.lt_toNat.2 hpos, min_le_right _ _, min_le_left _ _⟩

/-- Where no more are asked for, none are taken. -/
theorem take_none {α β : Type} {limit : Int} {out : List β}
    (h : limit - out.length ≤ 0) (l : List α) :
    l.take (limit - out.length).toNat = [] := by
  rw [Int.toNat_eq_zero.2 h, List.take_zero]

/-- The rows that are left from each moment on: behind a cut, those from
the moment after the last row before it. -/
def Resumes (left : Int → List (KlineRow K)) : Prop :=
  ∀ cursor n r, ((left cursor).take n).getLast? = some r →
    (left cursor).drop n = left (r.closeTimeMs + 1)

section Rounds

variable {left : Int → List (KlineRow K)} {getJson : Endpoint K}
  {sym interval : String} {limit start : Int} {endMs : Option Int}

/-- What the rounds still bring of an endpoint whose pages are the first
of the rows left: as many of those as are still asked for. Each full page
ends with a row, behind which the next one resumes; a page that is not
full, or empty, has all there is. -/
theorem pages_takes (hleft : Resumes left)
    (hpage : ∀ (k : Nat) cursor rows, (k : Int) ≤ 1000 →
      getJson ⟨sym, interval, k, some cursor, endMs⟩ = .ok rows →
      rows = (left cursor).take k)
    {fuel : Nat} {cursor : Int} {out res : List (KlineRow K)}
    (hfuel : limit - out.length ≤ fuel)
    (h : pages getJson sym interval limit (some start) endMs fuel
      (some cursor) out = .ok res) :
    res = out ++ (left cursor).take (limit - out.length).toNat := by
  induction fuel generalizing cursor out with
  | zero =>
      cases h
      rw [take_none (by exact_mod_cast hfuel), List.append_nil]
  | succ fuel ih =>
      rw [pages] at h
      by_cases hmore : (out.length : Int) < limit
      · rw [if_pos hmore] at h
        obtain ⟨rows, hrows, h⟩ := bind_eq_ok.1 h
        obtain ⟨k, hk, hkpos, hkle, hkmax⟩ :=
          exists_pageSize (sub_pos.2 hmore)
        rw [← hk] at hrows h
        obtain rfl := hpage k cursor rows hkmax hrows
        cases hlast : ((left cursor).take k).getLast? with
        | none =>
            -- an empty page: nothing is left
            rw [hlast] at h
            cases h
            have hempty : left cursor = [] := by
              rw [List.getLast?_eq_none_iff, List.take_eq_nil_iff] at hlast
              exact hlast.resolve_left hkpos.ne'
            rw [hempty, List.take_nil, List.append_nil]
        | some r =>
            rw [hlast] at h
            simp only [List.length_take, reduceCtorEq, or_false] at h
            by_cases hshort : ((min k (left cursor).length : Nat) : Int) < k
            · -- a short page is the last one
              rw [if_pos hshort] at h
              cases h
              have hlen : (left cursor).length < k := by omega
              rw [List.take_of_length_le hlen.le,
                List.take_of_length_le (by omega)]
            · rw [if_neg hshort] at h
              have hout : (out ++ (left cursor).take k).length
                  = out.length + k := by
                rw [List.length_append, List.length_take]
                omega
              rw [ih (by rw [hout]; push_cast; omega) h, hout,
                List.append_assoc, ← hleft cursor k r hlast, ← List.take_add]
              congr 2
              push_cast
              omega
      · rw [if_neg hmore] at h
        cases h
        rw [take_none (by omega), List.append_nil]

/-- The rounds of an endpoint that answers come to an end. -/
theorem pages_total
    (hok : ∀ k cursor, ∃ rows,
      getJson ⟨sym, interval, k, some cursor, endMs⟩ = .ok rows)
    (limit start : Int) (fuel : Nat) (cursor : Int) (out : List (KlineRow K)) :
    ∃ res, pages getJson sym interval limit (some start) endMs fuel
      (some cursor) out = .ok res := by
  induction fuel generalizing cursor out with
  | zero => exact ⟨out, rfl⟩
  | succ fuel ih =>
      rw [pages]
      by_cases hmore : (out.length : Int) < limit
      · rw [if_pos hmore]
        obtain ⟨rows, hrows⟩ := hok (min maxLimit (limit - out.length)) cursor
        dsimp only
        rw [hrows, ok_bind]
        split
        · exact ⟨_, rfl⟩
        · split
          · exact ⟨_, rfl⟩
          · exact ih _ _
      · rw [if_neg hmore]
        exact ⟨out, rfl⟩

end Rounds

/-- What is left of a market from a moment on to now. -/
theorem resumes_candles (m : Market K) (now : Int) :
    Resumes fun cursor => (m.candles cursor now).map (m.row now) := by
  intro cursor n r hlast
  rw [← List.map_take, List.getLast?_map] at hlast
  obtain ⟨t, ht, rfl⟩ := Option.map_eq_some_iff.1 hlast
  rw [← List.map_drop, Market.candles_drop ht, Market.row_closeTimeMs,
    sub_add_cancel]

/-- The first `limit` candles from the start to now, as they stand. -/
theorem getKlines_eq_ok {m : Market K} {now limit start : Int}
    {pair interval : String} {getJson : Endpoint K}
    (hserve : Serves m now (symbol pair) interval getJson)
    {res : List (KlineRow K)}
    (h : getKlines getJson pair interval limit (some start) (some now)
      = .ok res) :
    res = ((m.candles start now).take limit.toNat).map (m.row now) := by
  obtain ⟨out, hout, h⟩ := bind_eq_ok.1 h
  cases h
  have hfuel : limit - (([] : List (KlineRow K)).length : Int)
      ≤ limit.toNat := by
    rw [List.length_nil, Nat.cast_zero, sub_zero]
    exact Int.self_le_toNat limit
  rw [pages_takes (resumes_candles m now) ?_ hfuel hout, List.nil_append,
    List.length_nil, Nat.cast_zero, sub_zero, List.take_take, min_self,
    List.map_take]
  intro k cursor rows hk hrows
  rw [hserve.page_eq hk hrows, List.map_take]

/-- A fetch from an endpoint that answers comes to an end. -/
theorem getKlines_total {m : Market K} {now start : Int}
    {pair interval : String} {getJson : Endpoint K}
    (hanswer : Answers m now (symbol pair) interval getJson) (limit : Int) :
    ∃ res, getKlines getJson pair interval limit (some start) (some now)
      = .ok res := by
  obtain ⟨out, hout⟩ := pages_total
    (fun k cursor => ⟨_, hanswer ⟨symbol pair, interval, k, some cursor,
      some now⟩ cursor now rfl rfl rfl rfl⟩) limit start limit.toNat start []
  exact ⟨out.take limit.toNat, by rw [getKlines, hout]; rfl⟩

end Binance

/-- A market that answers serves what the paging loop asks. -/
theorem Answers.serves {m : Market K} {now : Int} {sym interval : String}
    {getJson : Binance.Endpoint K} (h : Answers m now sym interval getJson) :
    Serves m now sym interval getJson :=
  fun req a b hs hi ha hb => Or.inr (h req a b hs hi ha hb)

namespace Cache

/-- Where a fetch starts: at the window's start from an empty file, a step
after the newest row otherwise. -/
def startOf (step nowMs days : Int) (existing : File K) : Int :=
  (fetchPlan step nowMs days existing).1

/-- The rows asked for are as many as there can be. -/
theorem fetchPlan_enough (m : Market K) (now days : Int)
    (existing : File K) :
    (m.candles (startOf m.step now days existing) now).length
      ≤ (fetchPlan m.step now days existing).2.toNat := by
  have hcount := m.length_candles_le (startOf m.step now days existing) now
  unfold startOf at hcount ⊢
  unfold fetchPlan at hcount ⊢
  split at hcount
  · simp only [sub_sub_cancel] at hcount ⊢
    omega
  · simp only at hcount ⊢
    omega

/-- What a fetch that came through brought. -/
theorem fetch_eq_ok {m : Market K} {now days : Int} {pair interval : String}
    {getJson : Binance.Endpoint K}
    (hserve : Serves m now (Binance.symbol pair) interval getJson)
    {existing : File K} {fresh : List (KlineRow K)}
    (h : fetch getJson pair interval m.step now days existing = .ok fresh) :
    fresh = if startOf m.step now days existing < now then
        (m.candles (startOf m.step now days existing) now).map (m.row now)
      else [] := by
  change (if startOf m.step now days existing < now then
    Binance.getKlines getJson pair interval
      (fetchPlan m.step now days existing).2
      (some (startOf m.step now days existing)) (some now)
    else .ok []) = _ at h
  by_cases hlate : startOf m.step now days existing < now
  · rw [if_pos hlate] at h ⊢
    rw [Binance.getKlines_eq_ok hserve h, List.take_of_length_le
      (fetchPlan_enough m now days existing)]
  · rw [if_neg hlate] at h ⊢
    exact (Except.ok.inj h).symm

theorem fetch_total {m : Market K} {now : Int} {pair interval : String}
    {getJson : Binance.Endpoint K}
    (hanswer : Answers m now (Binance.symbol pair) interval getJson)
    (days : Int) (existing : File K) :
    ∃ fresh, fetch getJson pair interval m.step now days existing
      = .ok fresh := by
  unfold fetch
  simp only
  split
  · exact Binance.getKlines_total hanswer _
  · exact ⟨[], rfl⟩

end Cache

end Proofstand
