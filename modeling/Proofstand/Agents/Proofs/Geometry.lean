/-
The shape of a freshly calibrated grid.

An interpolated percentile of positive closes is positive
(`percentile_pos`), an average true range is not negative (`atr_nonneg`),
and the lines of a proper band ascend from its lower to its upper end
(`linspace_ascending`). What is left is the band. It holds the last close
strictly where the percentiles do, or where the widening does move: by an
ATR that is positive and less than a third of the price over the risk's
factor (`band_iff`).

# What the shape is made of

The shape asks for lines in strict order between the two ends, a positive
lower end, the price strictly inside and a ledger that is not halted where
it was made. Lines in a proper band are in order whatever the band
(`linspace_ascending`), and the breaker's bounds lie outside the band. So
the shape comes down to the band (`geometry_iff`).

Where the last close is strictly inside the 10-90 band nothing is widened.
Otherwise the ends move to a distance of three spacings from the price:
upwards that always makes room when the spacing is positive, downwards
only while three spacings are less than the whole price. A market that
does not move and one that moves too much fail at these two ends.
-/
import Proofstand.Agents.Proofs.Solvency

namespace Proofstand.BnbGrid

open Fallible Calibrate

variable {K : Type} [Field K] [LinearOrder K] [IsStrictOrderedRing K]

-- ============================================================ the frame

theorem percentile_pos {xs : List K} (hxs : xs ≠ []) (hpos : ∀ x ∈ xs, 0 < x)
    {q : Nat} (hq : q ≤ 100) : 0 < percentile xs q := by
  have hsorted : ∀ x ∈ xs.insertionSort (· ≤ ·), 0 < x := by
    intro x hx
    exact hpos x ((List.mem_insertionSort _).1 hx)
  have hget : ∀ (n : Nat) (d : K), 0 < d →
      0 < (xs.insertionSort (· ≤ ·)).getD n d := by
    intro n d hd
    rw [List.getD_eq_getElem?_getD]
    cases hn : (xs.insertionSort (· ≤ ·))[n]? with
    | none => exact hd
    | some x => exact hsorted x (List.mem_of_getElem? hn)
  have hlen : 0 < xs.length := List.length_pos_iff.2 hxs
  have hrank : (xs.length - 1) * q / 100 < xs.length := by
    have hle : (xs.length - 1) * q ≤ (xs.length - 1) * 100 :=
      Nat.mul_le_mul_left _ hq
    omega
  have hlo : 0 < (xs.insertionSort (· ≤ ·)).getD
      ((xs.length - 1) * q / 100) 0 := by
    have hlt : (xs.length - 1) * q / 100
        < (xs.insertionSort (· ≤ ·)).length := by
      rwa [List.length_insertionSort]
    rw [List.getD_eq_getElem _ _ hlt]
    exact hsorted _ (List.getElem_mem hlt)
  -- between two positive neighbours
  simp only [percentile]
  set lo := (xs.insertionSort (· ≤ ·)).getD ((xs.length - 1) * q / 100) 0
  have hhi := hget ((xs.length - 1) * q / 100 + 1) lo hlo
  set hi := (xs.insertionSort (· ≤ ·)).getD
    ((xs.length - 1) * q / 100 + 1) lo
  have hpart : (((xs.length - 1) * q % 100 : Nat) : K) < 100 := by
    exact_mod_cast Nat.mod_lt _ (by norm_num)
  have hpart' : (0 : K) ≤ (((xs.length - 1) * q % 100 : Nat) : K) :=
    Nat.cast_nonneg _
  set part := (((xs.length - 1) * q % 100 : Nat) : K)
  have hsplit : lo + (hi - lo) * (part / 100)
      = lo * ((100 - part) / 100) + hi * (part / 100) := by ring
  rw [hsplit]
  have hfirst : 0 < lo * ((100 - part) / 100) :=
    mul_pos hlo (div_pos (by linarith) (by norm_num))
  have hsecond : 0 ≤ hi * (part / 100) :=
    mul_nonneg hhi.le (div_nonneg hpart' (by norm_num))
  linarith

theorem atr_nonneg {klines : List (Kline K)} {period : Nat} {a : K}
    (hperiod : 1 ≤ period) (h : atr klines period = .ok a) : 0 ≤ a := by
  have hranges : ∀ t ∈ trueRanges klines, 0 ≤ t := by
    intro t ht
    rw [trueRanges, ← List.map_uncurry_zip_eq_zipWith] at ht
    obtain ⟨q, -, rfl⟩ := List.mem_map.1 ht
    exact le_max_of_le_right (abs_nonneg _)
  have hkept : (1 : K) ≤ period := by exact_mod_cast hperiod
  unfold atr at h
  split at h
  · cases h
  · cases h
    apply List.foldlRecOn
    · apply div_nonneg _ (by linarith)
      apply List.sum_nonneg
      intro t ht
      exact hranges t (List.mem_of_mem_take ht)
    · intro a ha t ht
      apply div_nonneg _ (by linarith)
      have ht' := hranges t (List.mem_of_mem_drop ht)
      have hprev : 0 ≤ a * (period - 1) := mul_nonneg ha (by linarith)
      linarith

-- ============================================================= the lines

/-- The lines between two ends, in order, each end among them. -/
theorem linspace_ascending {lo hi : K} (h : lo < hi) {n : Nat} (hn : 2 ≤ n) :
    (linspace lo hi n).Pairwise (· < ·)
      ∧ (linspace lo hi n).head? = some lo
      ∧ (linspace lo hi n).getLast? = some hi
      ∧ ∀ x ∈ linspace lo hi n, lo ≤ x := by
  have hone : n ≠ 1 := by omega
  have hgap : (0 : K) < n - 1 := by
    have hcast : (2 : K) ≤ n := by exact_mod_cast hn
    linarith
  have hstep : 0 < (hi - lo) / (n - 1 : K) := div_pos (by linarith) hgap
  simp only [linspace, if_neg hone]
  refine ⟨?_, ?_, ?_, ?_⟩
  · rw [List.pairwise_map]
    apply List.pairwise_lt_range.imp
    intro i j hij
    have hcast : (i : K) < j := by exact_mod_cast hij
    have hmul := mul_lt_mul_of_pos_right hcast hstep
    linarith
  · obtain ⟨m, rfl⟩ : ∃ m, n = m + 1 := ⟨n - 1, by omega⟩
    rw [List.range_succ_eq_map]
    simp
  · obtain ⟨m, rfl⟩ : ∃ m, n = m + 1 := ⟨n - 1, by omega⟩
    rw [List.range_succ, List.map_append, List.map_singleton,
      List.getLast?_concat]
    congr 1
    push_cast at hgap ⊢
    rw [add_sub_cancel_right] at hgap ⊢
    field_simp
    ring
  · intro x hx
    obtain ⟨i, -, rfl⟩ := List.mem_map.1 hx
    have hfar : 0 ≤ (i : K) * ((hi - lo) / (n - 1)) :=
      mul_nonneg (Nat.cast_nonneg i) hstep.le
    linarith

theorem clampLevels_bounds (userLevels : Int) :
    5 ≤ clampLevels userLevels ∧ clampLevels userLevels ≤ 30 := by
  simp only [clampLevels, minLevels, maxLevels]
  omega

theorem riskFactor_pos {risk : String} {factor : K}
    (h : riskFactor risk = some factor) : 0 < factor := by
  unfold riskFactor at h
  split at h
  · cases h
    norm_num
  · split at h
    · cases h
      norm_num
    · split at h
      · cases h
        norm_num
      · cases h

-- ============================================================== the band

/-- The shape of a grid that can be traded from where it was made. -/
structure Geometry (g : GridConfig K) : Prop where
  lowerPos : 0 < g.lower
  lowerMid : g.lower < g.midPrice
  midUpper : g.midPrice < g.upper
  linesLength : g.lines.length = g.levels
  linesAscend : g.lines.Pairwise (· < ·)
  linesPos : ∀ x ∈ g.lines, 0 < x
  linesFirst : g.lines.head? = some g.lower
  linesLast : g.lines.getLast? = some g.upper
  levelsMin : 5 ≤ g.levels
  levelsMax : g.levels ≤ 30
  loBound : g.lower * (1 - 2 * g.spacingFrac) < g.midPrice
  hiBound : g.midPrice < g.upper * (1 + 2 * g.spacingFrac)

/-- The band has the price it was made at strictly inside, above zero. -/
def ProperBand (g : GridConfig K) : Prop :=
  0 < g.lower ∧ g.lower < g.midPrice ∧ g.midPrice < g.upper

/-- The last close is strictly inside the 10-90 band of the closes. -/
def InsideBand (closes : List K) (mid : K) : Prop :=
  percentile closes 10 < mid ∧ mid < percentile closes 90

variable {closes : List K} {mid atrV factor capitalUsd : K}
  {userLevels : Int} {risk : String}

/-- The band is proper where the percentiles are, or where the widening
makes room on both sides. -/
theorem band_iff (hcloses : closes ≠ []) (hpos : ∀ x ∈ closes, 0 < x)
    (hmid : 0 < mid) (hatr : 0 ≤ atrV) (hfactor : 0 < factor) :
    ProperBand (gridFrom closes mid atrV factor capitalUsd userLevels risk)
      ↔ InsideBand closes mid ∨ 0 < atrV ∧ 3 * factor * atrV < mid := by
  have hp10 := percentile_pos hcloses hpos (q := 10) (by norm_num)
  have hne : mid ≠ 0 := hmid.ne'
  -- in price units, the widening is three spacings
  have hdown : mid * (1 - 3 * (factor * atrV / mid))
      = mid - 3 * factor * atrV := by field_simp
  have hup : mid * (1 + 3 * (factor * atrV / mid))
      = mid + 3 * factor * atrV := by field_simp
  by_cases hin : InsideBand closes mid
  · obtain ⟨hlo, hhi⟩ := hin
    simp [ProperBand, gridFrom, InsideBand, hlo, hhi, hp10]
  · have hout : ¬ (percentile closes 10 < mid ∧ mid < percentile closes 90) :=
      hin
    simp only [ProperBand, gridFrom, hout, decide_false, Bool.false_eq_true, if_false,
      hdown, hup, hin, false_or]
    constructor
    · intro h
      obtain ⟨hlower, hbelow, habove⟩ := h
      have hroom : 3 * factor * atrV < mid := by
        have hle := (lt_min_iff.1 hlower).2
        linarith
      refine ⟨lt_of_le_of_ne hatr ?_, hroom⟩
      -- with no range at all the widening adds nothing to the percentiles
      intro hflat
      rw [← hflat] at hbelow habove
      simp only [mul_zero, sub_zero, add_zero, min_lt_iff, lt_max_iff,
        lt_irrefl, or_false] at hbelow habove
      exact hout ⟨hbelow, habove⟩
    · intro h
      obtain ⟨hrange, hroom⟩ := h
      have hwidth : 0 < 3 * factor * atrV :=
        mul_pos (mul_pos (by norm_num) hfactor) hrange
      exact ⟨lt_min hp10 (by linarith), min_lt_of_right_lt (by linarith),
        lt_max_of_lt_right (by linarith)⟩

/-- A proper band is all that the shape asks for. -/
theorem geometry_iff (hmid : 0 < mid) (hatr : 0 ≤ atrV)
    (hfactor : 0 < factor) :
    let g := gridFrom closes mid atrV factor capitalUsd userLevels risk
    Geometry g ↔ ProperBand g := by
  intro g
  constructor
  · intro h
    exact ⟨h.lowerPos, h.lowerMid, h.midUpper⟩
  · intro h
    obtain ⟨hlower, hbelow, habove⟩ := h
    obtain ⟨hfive, hthirty⟩ := clampLevels_bounds userLevels
    obtain ⟨hascend, hfirst, hlast, hover⟩ := linspace_ascending
      (hbelow.trans habove) (n := clampLevels userLevels) (by omega)
    have hspacing : 0 ≤ g.spacingFrac :=
      div_nonneg (mul_nonneg hfactor.le hatr) hmid.le
    have hupper : 0 < g.upper := hmid.trans habove
    have hunder := mul_nonneg hlower.le hspacing
    have hbeyond := mul_nonneg hupper.le hspacing
    have hone : clampLevels userLevels ≠ 1 := by omega
    refine ⟨hlower, hbelow, habove, ?_, hascend, ?_, hfirst, hlast, hfive,
      hthirty, ?_, ?_⟩
    · simp [g, gridFrom, linspace, hone]
    · intro x hx
      exact hlower.trans_le (hover x hx)
    · linarith
    · linarith

/-- A ledger that has not traded is not halted at the price its grid was
made at. -/
theorem Geometry.not_halted {g : GridConfig K}
    (h : Geometry g) {p : SimParams K} (hloss : 0 ≤ p.maxLossPct)
    {r : Kline K} (hclose : r.close = g.midPrice) :
    breaker p g r (SimState.start g) = none := by
  have hempty : (List.replicate (g.lines.length - 1)
      (none : Option (Slot K))).reduceOption = [] := by
    simp [List.reduceOption]
  have hequity : (SimState.start g).equity r.close = g.capitalUsd := by
    simp [SimState.equity, SimState.invValue, SimState.sumSlots,
      SimState.start, hempty]
  have hlimit : ¬ p.maxLossPct / 100 < 0 := by
    have := div_nonneg hloss (by norm_num : (0 : K) ≤ 100)
    exact not_lt.2 this
  rw [breaker, hequity, sub_self, zero_div, if_neg hlimit, hclose, if_neg]
  intro h
  rcases h with hhigh | hlow
  · exact absurd h.hiBound (not_lt.2 hhigh.le)
  · exact absurd h.loBound (not_lt.2 hlow.le)

/-- Of every frame of positive prices a grid is made, and it has the shape
exactly when the last close is strictly inside the 10-90 band of the
closes, or the candles have a range that the risk's three spacings keep
below the price; a grid of that shape is not halted where it starts. -/
theorem calibrateGrid_geometry_iff {klines : List (Kline K)}
    (hlen : 20 ≤ klines.length)
    (hprices : ∀ k ∈ klines, 0 < k.low ∧ k.low ≤ k.close ∧ k.close ≤ k.high)
    (capitalUsd : K) (userLevels : Int) {risk : String} {factor : K}
    (hrisk : riskFactor risk = some factor) :
    ∃ g mid atrV, calibrateGrid klines capitalUsd userLevels risk = .ok g
      ∧ (klines.map (·.close)).getLast? = some mid
      ∧ atr klines 14 = .ok atrV
      ∧ (Geometry g ↔ InsideBand (klines.map (·.close)) mid
          ∨ 0 < atrV ∧ 3 * factor * atrV < mid)
      ∧ (Geometry g → ∀ (p : SimParams K) (r : Kline K), 0 ≤ p.maxLossPct →
          r.close = g.midPrice → breaker p g r (SimState.start g) = none) := by
  have hpos : ∀ x ∈ klines.map (·.close), 0 < x := by
    intro x hx
    obtain ⟨k, hk, rfl⟩ := List.mem_map.1 hx
    obtain ⟨hlow, hclose, -⟩ := hprices k hk
    linarith
  have hne : klines.map (·.close) ≠ [] := by
    intro hnil
    have := congrArg List.length hnil
    simp at this
    simp [this] at hlen
  have hmid := List.getLast?_eq_some_getLast hne
  have hmidPos := hpos _ (List.getLast_mem hne)
  obtain ⟨atrV, hatr⟩ : ∃ atrV, atr klines 14 = .ok atrV :=
    ⟨_, if_neg (by omega)⟩
  have hatrNonneg := atr_nonneg (by norm_num) hatr
  have hfactor := riskFactor_pos hrisk
  refine ⟨_, _, atrV, calibrateGrid_eq_ok_iff.2 ⟨factor, _, atrV, hrisk, hmid,
    hlen, hatr, hmidPos.ne', rfl⟩, hmid, hatr, ?_, ?_⟩
  · exact (geometry_iff hmidPos hatrNonneg hfactor).trans
      (band_iff hne hpos hmidPos hatrNonneg hfactor)
  · intro hshape p r hloss hclose
    exact hshape.not_halted hloss hclose

-- ========================================================== three frames

/-- A market that does not move. -/
def stillDay : List (Kline ℚ) :=
  (List.range 20).map fun (hour : Nat) => flatCandle hour 600 600 600

/-- A market that swings between 300 and 900 and closes where it was. -/
def wildDay : List (Kline ℚ) :=
  (List.range 20).map fun (hour : Nat) => flatCandle hour 300 900 600

/-- Without movement the three prices are one; with too much of it the
lower end is below zero. -/
theorem geometry_fails :
    (∀ k ∈ stillDay ++ wildDay, 0 < k.low ∧ k.low ≤ k.close
      ∧ k.close ≤ k.high)
    ∧ (∃ g : GridConfig ℚ, calibrateGrid stillDay 1000 12 "balanced" = .ok g
      ∧ g.lower = g.midPrice ∧ g.midPrice = g.upper ∧ ¬ Geometry g)
    ∧ ∃ g : GridConfig ℚ, calibrateGrid wildDay 1000 12 "balanced" = .ok g
      ∧ g.lower < 0 ∧ ¬ Geometry g := by
  refine ⟨by decide +kernel, ?_, ?_⟩
  · obtain ⟨g, hg, hfacts⟩ := exists_of_okAnd
      (x := calibrateGrid stillDay 1000 12 "balanced")
      (p := fun g => decide (g.lower = g.midPrice ∧ g.midPrice = g.upper))
      (by decide +kernel)
    obtain ⟨hlower, hupper⟩ := of_decide_eq_true hfacts
    refine ⟨g, hg, hlower, hupper, ?_⟩
    intro h
    exact absurd hlower h.lowerMid.ne
  · obtain ⟨g, hg, hfacts⟩ := exists_of_okAnd
      (x := calibrateGrid wildDay 1000 12 "balanced")
      (p := fun g => decide (g.lower < 0)) (by decide +kernel)
    have hlower := of_decide_eq_true hfacts
    refine ⟨g, hg, hlower, ?_⟩
    intro h
    exact absurd h.lowerPos (not_lt.2 hlower.le)

/-- The rising day's grid has its shape, and does not halt at its own
price. -/
theorem calibrateGrid_geometry_risingDay :
    ∃ g : GridConfig ℚ, calibrateGrid risingDay 1000 12 "balanced" = .ok g
      ∧ Geometry g ∧ breaker thinParams g (flatCandle 20 618 620 g.midPrice)
        (SimState.start g) = none := by
  have hlen : 20 ≤ risingDay.length := by decide +kernel
  have hprices : ∀ k ∈ risingDay, 0 < k.low ∧ k.low ≤ k.close
      ∧ k.close ≤ k.high := by
    decide +kernel
  have hrisk : riskFactor "balanced" = some (1 : ℚ) := rfl
  obtain ⟨g, mid, atrV, hg, hmid, -, hshape, hstart⟩ :=
    calibrateGrid_geometry_iff hlen hprices 1000 12 hrisk
  have hlast : (risingDay.map (·.close)).getLast? = some 619 := by
    decide +kernel
  rw [hlast] at hmid
  cases hmid
  have hgeometry : Geometry g :=
    hshape.2 (Or.inl ⟨by decide +kernel, by decide +kernel⟩)
  exact ⟨g, hg, hgeometry, hstart hgeometry thinParams _ (by decide +kernel)
    rfl⟩

end Proofstand.BnbGrid
