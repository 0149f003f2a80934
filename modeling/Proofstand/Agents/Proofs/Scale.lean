/-
The paper grid in another unit of price.

Multiplying every price of the candles by a positive factor multiplies
the calibrated band and its lines, and divides the quantities bought;
the dollars of the ledger stay. Each function commutes with the change
of unit, a failure included: the calibration by homogeneity of its ATR
and its percentiles, the replay step by step.

# Equality of results, failures included

Each lemma is an equation between two calls: scaling first and calling, or
calling and scaling what comes back, where an error is left as it is. An
equation composes, so a candle's lemma is the chain of its parts' and the
replay's is `foldlM_map`. The tests in the code compare prices with prices,
or dollars with dollars, and none mixes the two; that is where the factor
has to be positive.

What has no unit of price stays as it is: the number of levels, the fees
in basis points, the gas in dollars, the times.
-/
import Proofstand.Agents.Proofs.Causality

namespace Proofstand

open Fallible

variable {K : Type} [Field K] [LinearOrder K]

-- ============================================================ the change

/-- A candle with its prices in another unit. -/
def Kline.scale (c : K) (k : Kline K) : Kline K :=
  { k with
    openPrice := c * k.openPrice, high := c * k.high, low := c * k.low
    close := c * k.close }

namespace BnbGrid

open Calibrate

/-- The grid in another unit: its prices scale, its dollars and fractions
stay. -/
def GridConfig.scale (c : K) (g : GridConfig K) : GridConfig K :=
  { g with
    lower := c * g.lower, upper := c * g.upper
    lines := g.lines.map (c * ·)
    atr := c * g.atr, midPrice := c * g.midPrice }

/-- A slot in another unit: its price scales, and its quantity inversely; -/
def Slot.scale (c : K) (s : Slot K) : Slot K :=
  { s with buyPx := c * s.buyPx, qty := s.qty / c }

/-- a fill, -/
def Fill.scale (c : K) (f : Fill K) : Fill K :=
  { f with line := c * f.line, price := c * f.price, qty := f.qty / c }

/-- a round trip, -/
def RoundTrip.scale (c : K) (t : RoundTrip K) : RoundTrip K :=
  { t with buyPx := c * t.buyPx, sellPx := c * t.sellPx, qty := t.qty / c }

/-- and the loop's variables, whose dollars stay. -/
def SimState.scale (c : K) (s : SimState K) : SimState K :=
  { s with
    slots := s.slots.map (Option.map (Slot.scale c))
    fills := s.fills.map (Fill.scale c)
    roundTrips := s.roundTrips.map (RoundTrip.scale c) }

/-- The result in another unit: the prices and quantities of its records
change, and nothing else. -/
def SimResult.scale (c : K) (r : SimResult K) : SimResult K :=
  { r with
    fills := r.fills.map (Fill.scale c)
    roundTrips := r.roundTrips.map (RoundTrip.scale c) }

variable [IsStrictOrderedRing K] {c : K}

-- ======================================================= the calibration

/-- The ranges scale with the prices. -/
theorem trueRanges_scale (hc : 0 < c) (klines : List (Kline K)) :
    trueRanges (klines.map (Kline.scale c))
      = (trueRanges klines).map (c * ·) := by
  unfold trueRanges
  rw [← List.map_tail, List.zipWith_map, List.map_zipWith]
  congr 1
  funext prev cur
  simp only [Kline.scale, ← mul_sub, abs_mul, abs_of_pos hc,
    mul_max_of_nonneg _ _ hc.le]

omit [IsStrictOrderedRing K] [LinearOrder K] in
/-- Wilder's smoothing is homogeneous. -/
theorem smoothing_scale (c seed : K) (period : Nat) (tr : List K) :
    (tr.map (c * ·)).foldl (fun a t => (a * ((period : K) - 1) + t) / period)
        (c * seed)
      = c * tr.foldl (fun a t => (a * ((period : K) - 1) + t) / period)
          seed := by
  induction tr generalizing seed with
  | nil => rfl
  | cons t tr ih =>
      rw [List.map_cons, List.foldl_cons, List.foldl_cons, ← ih]
      congr 1
      ring

/-- So the average range scales, -/
theorem atr_scale (hc : 0 < c) (klines : List (Kline K)) (period : Nat) :
    atr (klines.map (Kline.scale c)) period
      = (atr klines period).map (c * ·) := by
  unfold atr
  rw [List.length_map]
  split
  · rfl
  · have hsum : ∀ l : List K, (l.map (c * ·)).sum = c * l.sum := by
      intro l
      rw [List.sum_map_mul_left, List.map_id']
    rw [trueRanges_scale hc]
    show Except.ok _ = Except.ok _
    rw [← List.map_take, ← List.map_drop, hsum, mul_div_assoc,
      smoothing_scale]

/-- a percentile of the closes, -/
theorem percentile_scale (hc : 0 < c) (xs : List K) (q : Nat) :
    percentile (xs.map (c * ·)) q = c * percentile xs q := by
  have hsorted : (xs.map (c * ·)).insertionSort (· ≤ ·)
      = (xs.insertionSort (· ≤ ·)).map (c * ·) := by
    symm
    apply List.map_insertionSort
    intro a _ b _
    exact (mul_le_mul_iff_right₀ hc).symm
  have hget : ∀ (l : List K) (n : Nat) (d : K),
      (l.map (c * ·)).getD n (c * d) = c * l.getD n d := by
    intro l n d
    exact List.getD_map l d (c * ·)
  have hget0 : ∀ (l : List K) (n : Nat),
      (l.map (c * ·)).getD n 0 = c * l.getD n 0 := by
    intro l n
    rw [← hget, mul_zero]
  unfold percentile
  simp only [hsorted, List.length_map, hget0, hget]
  ring

omit [IsStrictOrderedRing K] [LinearOrder K] in
/-- the lines between two of them, -/
theorem linspace_scale (c lo hi : K) (n : Nat) :
    linspace (c * lo) (c * hi) n = (linspace lo hi n).map (c * ·) := by
  unfold linspace
  split
  · rfl
  · rw [List.map_map]
    apply List.map_congr_left
    intro i _
    show c * lo + i * ((c * hi - c * lo) / (n - 1))
      = c * (lo + i * ((hi - lo) / (n - 1)))
    ring

/-- the whole grid, -/
theorem gridFrom_scale (hc : 0 < c) (closes : List K)
    (mid atrV factor capitalUsd : K) (userLevels : Int) (risk : String) :
    gridFrom (closes.map (c * ·)) (c * mid) (c * atrV) factor capitalUsd
        userLevels risk
      = (gridFrom closes mid atrV factor capitalUsd userLevels risk).scale
          c := by
  have hspacing : factor * (c * atrV) / (c * mid) = factor * atrV / mid := by
    rw [mul_left_comm, mul_div_mul_left _ _ hc.ne']
  have hlt : ∀ x y : K, c * x < c * y ↔ x < y := by
    intro x y
    exact mul_lt_mul_iff_right₀ hc
  unfold gridFrom GridConfig.scale
  simp only [percentile_scale hc, hspacing, hlt, mul_assoc,
    ← mul_min_of_nonneg _ _ hc.le, ← mul_max_of_nonneg _ _ hc.le,
    ← mul_ite, linspace_scale]

/-- and so what `calibrate_grid` returns. -/
theorem calibrateGrid_scale (hc : 0 < c) {klines : List (Kline K)}
    {capitalUsd : K} {userLevels : Int} {risk : String} {g : GridConfig K}
    (h : calibrateGrid klines capitalUsd userLevels risk = .ok g) :
    calibrateGrid (klines.map (Kline.scale c)) capitalUsd userLevels risk
      = .ok (g.scale c) := by
  obtain ⟨factor, mid, atrV, hfactor, hmid, hlen, hatr, hne, rfl⟩ :=
    calibrateGrid_eq_ok_iff.1 h
  have hcloses : (klines.map (Kline.scale c)).map (·.close)
      = (klines.map (·.close)).map (c * ·) := by
    rw [List.map_map, List.map_map]
    rfl
  apply calibrateGrid_eq_ok_iff.2
  refine ⟨factor, c * mid, c * atrV, hfactor, ?_, ?_, ?_, ?_, ?_⟩
  · rw [hcloses, List.getLast?_map, hmid]
    rfl
  · rwa [List.length_map]
  · rw [atr_scale hc, hatr]
    rfl
  · exact mul_ne_zero hc.ne' hne
  · rw [hcloses, gridFrom_scale hc]

-- ============================================================ the replay

variable {p : SimParams K} {g : GridConfig K} {idx : Nat} {r : Kline K}

theorem pyDiv_scale (hc : 0 < c) (a b : K) :
    pyDiv a (c * b) = (pyDiv a b).map (· / c) := by
  unfold pyDiv
  by_cases hb : b = 0
  · simp [hb, raise, Except.map]
  · rw [if_neg hb, if_neg (mul_ne_zero hc.ne' hb), mul_comm c b,
      ← div_div]
    rfl

omit [LinearOrder K] [IsStrictOrderedRing K] in
theorem slot_scale (s : SimState K) (i : Nat) :
    (s.scale c).slots.getD i none
      = (s.slots.getD i none).map (Slot.scale c) := by
  show (s.slots.map (Option.map (Slot.scale c))).getD i none = _
  exact List.getD_map s.slots none (Option.map (Slot.scale c))

omit [LinearOrder K] [IsStrictOrderedRing K] in
theorem line_scale (i : Nat) :
    (g.scale c).lines[i]? = (g.lines[i]?).map (c * ·) :=
  List.getElem?_map

omit [LinearOrder K] in
/-- A sum over the slots that the change of unit does not see. -/
theorem sumSlots_scale (s : SimState K) {f f' : Slot K → K}
    (h : ∀ slot, f' (Slot.scale c slot) = f slot) :
    (s.scale c).sumSlots f' = s.sumSlots f := by
  have hopen : ∀ slots : List (Option (Slot K)),
      (slots.map (Option.map (Slot.scale c))).reduceOption
        = slots.reduceOption.map (Slot.scale c) := by
    intro slots
    exact List.reduceOption_map
  unfold SimState.sumSlots
  show ((s.slots.map (Option.map (Slot.scale c))).reduceOption.map f').sum = _
  rw [hopen, List.map_map]
  congr 1
  apply List.map_congr_left
  intro slot _
  exact h slot

omit [LinearOrder K] [IsStrictOrderedRing K] in
/-- A buy scales, -/
theorem bought_scale (s : SimState K) (i : Nat) (line qty : K) :
    (s.scale c).bought p (g.scale c) idx (r.scale c) i (c * line) (qty / c)
      = (s.bought p g idx r i line qty).scale c := by
  unfold SimState.bought SimState.scale
  simp only [List.map_set, List.map_append, List.map_cons, List.map_nil,
    Option.map_some, Slot.scale, Fill.scale, mul_assoc]
  rfl

omit [IsStrictOrderedRing K] in
/-- a sell, -/
theorem sold_scale (hc : c ≠ 0) (s : SimState K) (i : Nat) (line : K)
    (slot : Slot K) :
    (s.scale c).sold p idx (r.scale c) i (c * line) (slot.scale c)
      = (s.sold p idx r i line slot).scale c := by
  have hproceeds : slot.qty / c * (c * (line * (1 - p.slip)))
      = slot.qty * (line * (1 - p.slip)) := by
    field_simp
  unfold SimState.sold SimState.scale
  simp only [List.map_set, List.map_append, List.map_cons, List.map_nil,
    Option.map_none, Slot.scale, Fill.scale, RoundTrip.scale,
    mul_assoc c line, hproceeds]
  rfl

/-- what a level buys, -/
theorem buyAt_scale (hc : 0 < c) (s : SimState K) (i : Nat) :
    buyAt p (g.scale c) idx (r.scale c) (s.scale c) i
      = (buyAt p g idx r s i).map (SimState.scale c) := by
  unfold buyAt
  rw [slot_scale, line_scale]
  cases hslot : s.slots.getD i none with
  | some slot => rfl
  | none =>
      cases hline : g.lines[i]? with
      | none => rfl
      | some line =>
          have hdip : c * r.low ≤ c * line ↔ r.low ≤ line :=
            mul_le_mul_iff_right₀ hc
          show (if c * r.low ≤ c * line ∧ g.sizeUsdPerLevel ≤ s.cash then _
            else _) = _
          simp only [hdip]
          by_cases hbuy : r.low ≤ line ∧ g.sizeUsdPerLevel ≤ s.cash
          · simp only [if_pos hbuy]
            rw [mul_assoc c line, pyDiv_scale hc, bind_map, map_bind]
            apply bind_congr
            intro qty
            rw [← mul_assoc]
            exact congrArg Except.ok (bought_scale s i line qty)
          · simp only [if_neg hbuy]
            rfl

/-- and what it sells: both tests compare prices with prices. -/
theorem sellAt_scale (hc : 0 < c) (s : SimState K) (i : Nat) :
    sellAt p (g.scale c) idx (r.scale c) (s.scale c) i
      = (sellAt p g idx r s i).scale c := by
  unfold sellAt
  rw [slot_scale, line_scale]
  cases hslot : s.slots.getD i none with
  | none => rfl
  | some slot =>
      cases hline : g.lines[i + 1]? with
      | none => rfl
      | some line =>
          have hrise : c * line ≤ c * r.high ↔ line ≤ r.high :=
            mul_le_mul_iff_right₀ hc
          show (if slot.buyIdx < idx ∧ c * line ≤ c * r.high then _ else _)
            = _
          simp only [hrise]
          by_cases hsell : slot.buyIdx < idx ∧ line ≤ r.high
          · simp only [if_pos hsell]
            exact sold_scale hc.ne' s i line slot
          · simp only [if_neg hsell]

omit [LinearOrder K] [IsStrictOrderedRing K] in
/-- What the slots hold is worth as much, in either unit. -/
theorem invValue_scale (hc : c ≠ 0) (s : SimState K) (price : K) :
    (s.scale c).invValue (c * price) = s.invValue price := by
  apply sumSlots_scale
  intro slot
  show slot.qty / c * (c * price) = slot.qty * price
  field_simp

/-- The mark is of worth, which does not scale. -/
theorem mark_scale (hc : 0 < c) (s : SimState K) :
    mark p (g.scale c) (r.scale c) (s.scale c)
      = (mark p g r s).map (SimState.scale c) := by
  have hinv : ((s.scale c).sumSlots fun slot =>
        slot.qty * (r.scale c).close) = s.sumSlots fun slot =>
          slot.qty * r.close := invValue_scale hc.ne' s r.close
  have hlt : ∀ x y : K, c * x < c * y ↔ x < y := by
    intro x y
    exact mul_lt_mul_iff_right₀ hc
  unfold mark
  simp only [hinv]
  rw [map_bind]
  apply bind_congr
  intro dd
  rw [map_bind]
  apply bind_congr
  intro loss
  simp only [GridConfig.scale, Kline.scale, mul_assoc, hlt]
  rfl

/-- So a candle scales, -/
theorem candle_scale (hc : 0 < c) (s : SimState K) :
    candle p (g.scale c) idx (r.scale c) (s.scale c)
      = (candle p g idx r s).map (SimState.scale c) := by
  have hslots : (g.scale c).lines.length = g.lines.length := List.length_map _
  have hsales : ∀ (is : List Nat) (t : SimState K),
      is.foldl (sellAt p (g.scale c) idx (r.scale c)) (t.scale c)
        = (is.foldl (sellAt p g idx r) t).scale c := by
    intro is t
    exact List.foldl_hom (SimState.scale c) (sellAt_scale hc)
  unfold candle
  simp only [hslots]
  rw [foldlM_map (buyAt_scale hc), bind_map, map_bind]
  apply bind_congr
  intro t
  rw [hsales, mark_scale hc]

/-- and a run of them. -/
theorem simLoop_scale (hc : 0 < c) (idx : Nat) (s : SimState K)
    (rows : List (Kline K)) :
    simLoop p (g.scale c) idx (s.scale c) (rows.map (Kline.scale c))
      = (simLoop p g idx s rows).map (SimState.scale c) := by
  induction rows generalizing idx s with
  | nil => rfl
  | cons r rows ih =>
      rw [List.map_cons, simLoop, simLoop, candle_scale hc, bind_map,
        map_bind]
      apply bind_congr
      intro t
      show (if t.halted.isSome then _ else _) = _
      by_cases hhalted : t.halted.isSome
      · rw [if_pos hhalted, if_pos hhalted]
        rfl
      · rw [if_neg hhalted, if_neg hhalted]
        exact ih (idx + 1) t

omit [LinearOrder K] [IsStrictOrderedRing K] in
theorem start_scale :
    SimState.start (g.scale c) = (SimState.start g).scale c := by
  unfold SimState.start SimState.scale GridConfig.scale
  simp

omit [LinearOrder K] [IsStrictOrderedRing K] in
theorem lastClose_scale (rows : List (Kline K)) (s : SimState K) :
    lastClose (rows.map (Kline.scale c)) (s.scale c) = c * lastClose rows s := by
  have hsame : (s.scale c).equityCurve.length = s.equityCurve.length := by
    simp [SimState.scale]
  cases hlen : s.equityCurve.length with
  | zero =>
      rw [lastClose, lastClose, hsame, hlen, mul_zero]
  | succ n =>
      rw [lastClose_eq hlen, lastClose_eq (hsame.trans hlen)]
      cases hn : rows[n]? with
      | none => simp [hn]
      | some r => simp [hn, Kline.scale]

omit [LinearOrder K] [IsStrictOrderedRing K] in
theorem windowDays_scale (rows : List (Kline K)) :
    windowDays ((rows.map (Kline.scale c)).map Kline.toCandle)
      = windowDays (rows.map Kline.toCandle) := by
  unfold windowDays
  rw [List.map_map, List.head?_map, List.head?_map, List.getLast?_map,
    List.getLast?_map]
  cases rows.head? with
  | none => rfl
  | some first =>
      cases rows.getLast? with
      | none => rfl
      | some last => rfl

omit [LinearOrder K] [IsStrictOrderedRing K] in
theorem resultAt_scale (hc : c ≠ 0) (rows : List (Kline K))
    (s : SimState K) (price : K) :
    resultAt (rows.map (Kline.scale c)) (g.scale c) (s.scale c) (c * price)
      = (resultAt rows g s price).scale c := by
  have hcost : (s.scale c).sumSlots Slot.costBasis
      = s.sumSlots Slot.costBasis := by
    apply sumSlots_scale
    intro slot
    rfl
  have hnet : ((s.scale c).roundTrips.map RoundTrip.netUsd).sum
      = (s.roundTrips.map RoundTrip.netUsd).sum := by
    show ((s.roundTrips.map (RoundTrip.scale c)).map _).sum = _
    rw [List.map_map]
    rfl
  have hwins : (s.scale c).roundTrips.countP RoundTrip.win
      = s.roundTrips.countP RoundTrip.win := by
    show (s.roundTrips.map (RoundTrip.scale c)).countP _ = _
    rw [List.countP_map]
    rfl
  have htrips : (s.scale c).roundTrips.length = s.roundTrips.length :=
    List.length_map _
  have htrades : (s.scale c).fills.length = s.fills.length :=
    List.length_map _
  unfold resultAt SimState.equity
  rw [invValue_scale hc, hcost, hnet, hwins, htrips, htrades,
    windowDays_scale]
  rfl

/-- The replay in another unit, of any candles on any grid. -/
theorem simulate_scale (hc : 0 < c) (rows : List (Kline K))
    (g : GridConfig K) (p : SimParams K) :
    simulate (rows.map (Kline.scale c)) (g.scale c) p
      = (simulate rows g p).map (SimResult.scale c) := by
  rw [simulate_eq, simulate_eq, start_scale, simLoop_scale hc, bind_map,
    map_bind]
  apply bind_congr
  intro s
  rw [lastClose_scale, resultAt_scale hc.ne']
  rfl

-- ========================================================== both stages

/-- Calibrating and replaying in another unit of price: the grid's prices
scale, and the results differ in the prices and quantities of their
records alone. -/
theorem calibrate_simulate_scale (hc : 0 < c) {klines : List (Kline K)}
    {capitalUsd : K} {userLevels : Int} {risk : String} {g : GridConfig K}
    (h : calibrateGrid klines capitalUsd userLevels risk = .ok g) :
    calibrateGrid (klines.map (Kline.scale c)) capitalUsd userLevels risk
        = .ok (g.scale c)
      ∧ ∀ (rows : List (Kline K)) (p : SimParams K),
        simulate (rows.map (Kline.scale c)) (g.scale c) p
          = (simulate rows g p).map (SimResult.scale c) :=
  ⟨calibrateGrid_scale hc h, fun rows p => simulate_scale hc rows g p⟩

/-- A day of candles in cents. -/
theorem calibrate_simulate_cents :
    ∃ g, calibrateGrid (afternoon 600 600) 1000 12 "balanced" = .ok g
      ∧ calibrateGrid ((afternoon 600 600).map (Kline.scale 100)) 1000 12
          "balanced" = .ok (g.scale 100)
      ∧ simulate ((afternoon 600 600).map (Kline.scale 100)) (g.scale 100)
          bandParams
        = (simulate (afternoon 600 600) g bandParams).map
            (SimResult.scale 100) := by
  obtain ⟨g, hg, -⟩ := exists_of_okAnd
    (x := calibrateGrid (afternoon 600 600) 1000 12 "balanced")
    (p := fun _ => true) (by decide +kernel)
  have hc : (0 : ℚ) < 100 := by norm_num
  obtain ⟨hscaled, hreplay⟩ := calibrate_simulate_scale hc hg
  exact ⟨g, hg, hscaled, hreplay _ _⟩

end BnbGrid

end Proofstand
