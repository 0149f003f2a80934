/-
The two risk figures of the paper grid, against what they are figures of.

Every mark shows the equity to the pass that watches for falls and the
inventory to one that keeps the largest (`Watched`), so over the candles
read, the one that halts the replay among them, the drawdown is the
largest fall from the capital or an earlier equity, and the capital at
risk the largest inventory.

# One invariant, two figures

The loop keeps a peak, a largest fall as a share of the capital, and a
largest inventory. `Watched` says what they are after the candles read so
far: the peak and the fall are what one pass over the curve leaves
(`Drawdown.watch`), and the inventory is the largest among the values at
the marks. A candle appends one point and shows it to both passes, so the
step is `watch_snoc`.

That the pass finds the largest fall of the series, from any earlier point
or from the capital, is a theorem about series and knows nothing of
candles (`isGreatest_worst`). The percentage is that fall over the capital,
since the source divides by the capital and not by the peak.
-/
import Proofstand.Lib.Drawdown
import Proofstand.Agents.Proofs.Append

namespace Proofstand.BnbGrid

open Fallible
open Drawdown (drops watch watch_snoc)

variable {K : Type} [Field K] [LinearOrder K]

-- ========================================================== inventories

/-- What the slots hold after each of the first candles, at its close. -/
structure Inventories (p : SimParams K) (grid : GridConfig K)
    (rows : List (Kline K)) (n : Nat) (invs : List K) : Prop where
  length : invs.length = n
  value : ∀ k v, invs[k]? = some v → ∃ s r,
    simLoop p grid 0 (SimState.start grid) (rows.take (k + 1)) = .ok s
      ∧ rows[k]? = some r ∧ v = s.invValue r.close

theorem Inventories.append {p : SimParams K} {grid : GridConfig K}
    {rows : List (Kline K)} {invs : List K}
    (h : Inventories p grid rows rows.length invs) (more : List (Kline K)) :
    Inventories p grid (rows ++ more) rows.length invs where
  length := h.length
  value := by
    intro k v hv
    obtain ⟨s, r, hrun, hr, hval⟩ := h.value k v hv
    have hk : k < rows.length := (List.getElem?_eq_some_iff.1 hr).1
    refine ⟨s, r, ?_, ?_, hval⟩
    · rw [List.take_append_of_le_length hk]
      exact hrun
    · rw [List.getElem?_append_left hk]
      exact hr

theorem Inventories.snoc {p : SimParams K} {grid : GridConfig K}
    {rows : List (Kline K)} {invs : List K} {r : Kline K} {s : SimState K}
    (h : Inventories p grid rows rows.length invs)
    (hrun : simLoop p grid 0 (SimState.start grid) (rows ++ [r]) = .ok s) :
    Inventories p grid (rows ++ [r]) (rows ++ [r]).length
      (invs ++ [s.invValue r.close]) where
  length := by
    rw [List.length_append, List.length_append, h.length]
    rfl
  value := by
    intro k v hv
    by_cases hk : k < invs.length
    · rw [List.getElem?_append_left hk] at hv
      exact (h.append [r]).value k v hv
    · have hlast : k = rows.length := by
        have hlt := (List.getElem?_eq_some_iff.1 hv).1
        rw [List.length_append, List.length_singleton] at hlt
        have := h.length
        omega
      rw [hlast, ← h.length, List.getElem?_concat_length] at hv
      cases hv
      refine ⟨s, r, ?_, ?_, rfl⟩
      · rw [hlast, List.take_of_length_le (by simp)]
        exact hrun
      · rw [hlast]
        exact List.getElem?_concat_length

-- ============================================================== the marks

variable [IsStrictOrderedRing K]

/-- The ledger has watched every candle read. -/
structure Watched (p : SimParams K) (grid : GridConfig K)
    (read : List (Kline K)) (s : SimState K) : Prop where
  run : simLoop p grid 0 (SimState.start grid) read = .ok s
  points : s.equityCurve.length = read.length
  peak : s.peak
    = (watch grid.capitalUsd (s.equityCurve.map Prod.snd)).peak
  worst : s.maxDd * grid.capitalUsd
    = (watch grid.capitalUsd (s.equityCurve.map Prod.snd)).worst
  risk : ∃ invs, Inventories p grid read read.length invs
    ∧ s.maxInv = (watch 0 invs).peak

omit [IsStrictOrderedRing K] in
theorem watched_start (p : SimParams K) (grid : GridConfig K) :
    Watched p grid [] (SimState.start grid) where
  run := rfl
  points := rfl
  peak := rfl
  worst := zero_mul _
  risk := ⟨[], ⟨rfl, fun _ _ h => by cases h⟩, rfl⟩

theorem watched_candle {p : SimParams K} {grid : GridConfig K}
    {read : List (Kline K)} {r : Kline K} {s s' : SimState K}
    (hcap : 0 < grid.capitalUsd) (h : Watched p grid read s)
    (hnone : s.halted = none)
    (hstep : candle p grid read.length r s = .ok s') :
    Watched p grid (read ++ [r]) s' := by
  have hrun : simLoop p grid 0 (SimState.start grid) (read ++ [r])
      = .ok s' := by
    rw [simLoop_append _ _ rfl, h.run, ok_bind, hnone, Nat.zero_add]
    simp [simLoop, hstep]
  obtain ⟨t, htrades, hmark⟩ := candle_eq_ok hstep
  obtain ⟨hcurve, -⟩ := trades_append htrades
  obtain ⟨hpeak, hdd, hinv⟩ := trades_marks htrades
  obtain ⟨hne, hs'⟩ := mark_eq_ok hmark
  have hcurve' : s'.equityCurve.map Prod.snd
      = s.equityCurve.map Prod.snd ++ [t.equity r.close] := by
    rw [hs', ← hcurve]
    simp
  have hpeak' : s'.peak = max s.peak (t.equity r.close) := by
    rw [hs', ← hpeak]
  refine ⟨hrun, ?_, ?_, ?_, ?_⟩
  · rw [(candle_adds hstep).1, h.points, List.length_append]
    rfl
  · rw [hcurve', watch_snoc, hpeak', h.peak]
    rfl
  · rw [hcurve', watch_snoc]
    show _ = max _ (max _ _ - _)
    rw [← h.worst, ← h.peak, hs', hpeak, hdd]
    show max s.maxDd _ * _ = _
    rw [max_mul_of_nonneg _ _ hcap.le, div_mul_cancel₀ _ hne]
  · obtain ⟨invs, hinvs, hrisk⟩ := h.risk
    refine ⟨invs ++ [s'.invValue r.close], hinvs.snoc hrun, ?_⟩
    rw [watch_snoc, hs', hinv, hrisk]
    rfl

-- ============================================================ the result

/-- The drawdown published is the largest fall on the curve, from an
earlier point or from the capital, as a percentage of the capital; the
capital at risk is the largest inventory over the curve's candles. -/
theorem simulate_drawdown {rows : List (Kline K)} {grid : GridConfig K}
    {p : SimParams K} {r : SimResult K} (hcap : 0 < grid.capitalUsd)
    (h : simulate rows grid p = .ok r) :
    (∃ d, IsGreatest
        (insert 0 (drops grid.capitalUsd (r.equityCurve.map Prod.snd))) d
      ∧ r.maxDrawdownPct = 100 / grid.capitalUsd * d)
    ∧ ∃ invs, Inventories p grid rows r.equityCurve.length invs
      ∧ IsGreatest (insert 0 {v | v ∈ invs}) r.capitalAtRiskUsd := by
  obtain ⟨s, hs, rfl⟩ := simulate_eq_ok.1 h
  obtain ⟨seen, rest, rfl, hwatched⟩ := simLoop_reads []
    (fun _ _ _ _ => watched_candle hcap) (watched_start p grid) rfl hs
  rw [List.nil_append] at hwatched
  constructor
  · refine ⟨_, Drawdown.isGreatest_worst _ _, ?_⟩
    show s.maxDd * 100 = _ * (watch _ (s.equityCurve.map Prod.snd)).worst
    rw [← hwatched.worst]
    field_simp
  · obtain ⟨invs, hinvs, hrisk⟩ := hwatched.risk
    refine ⟨invs, ?_, ?_⟩
    · show Inventories p grid (seen ++ rest) s.equityCurve.length invs
      rw [hwatched.points]
      exact hinvs.append rest
    · show IsGreatest _ s.maxInv
      rw [hrisk]
      exact Drawdown.isGreatest_peak 0 invs

/-- A replay halted at its second candle, with three more to come: the
fall and the inventory are those of the two candles read. -/
theorem simulate_drawdown_crash :
    ∃ (r : SimResult ℚ) (d : ℚ) (invs : List ℚ),
      simulate (crash ++ zigzag) bandGrid bandParams = .ok r
      ∧ r.equityCurve.length = 2 ∧ 0 < r.maxDrawdownPct
      ∧ IsGreatest (insert 0 (drops 900 (r.equityCurve.map Prod.snd))) d
      ∧ r.maxDrawdownPct = 100 / 900 * d
      ∧ Inventories bandParams bandGrid (crash ++ zigzag) 2 invs
      ∧ IsGreatest (insert 0 {v | v ∈ invs}) r.capitalAtRiskUsd := by
  obtain ⟨r, hr, hfacts⟩ := exists_of_okAnd
    (x := simulate (crash ++ zigzag) bandGrid bandParams)
    (p := fun r => decide (r.equityCurve.length = 2
      ∧ 0 < r.maxDrawdownPct))
    (by decide +kernel)
  obtain ⟨hlen, hpos⟩ := of_decide_eq_true hfacts
  have hcap : 0 < bandGrid.capitalUsd := by decide +kernel
  obtain ⟨⟨d, hd, hpct⟩, invs, hinvs, hrisk⟩ := simulate_drawdown hcap hr
  rw [hlen] at hinvs
  exact ⟨r, d, invs, hr, hlen, hpos, hd, hpct, hinvs, hrisk⟩

end Proofstand.BnbGrid
