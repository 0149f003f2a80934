/-
The calibrated grid, as a function of the closes, their last one and an
ATR.

`calibrate_grid` fails in three ways (an unknown risk, fewer than twenty
candles, an average range it can not take) and divides by the last close.
With all of that out of the way its result is an expression, `gridFrom`,
and `calibrateGrid_eq_ok_iff` says exactly when it is reached. Whoever
reasons about a calibrated grid then has the expression and never the
function: the geometry of its lines, its scaling and what it depends on
are all read off `gridFrom`.
-/
import Proofstand.Agents.BnbGrid.Sim
import Proofstand.Lib.Fallible

namespace Proofstand.BnbGrid

open Fallible Calibrate

variable {K : Type} [Field K] [LinearOrder K]

/-- The grid `calibrate_grid` makes where it makes one. -/
def gridFrom (closes : List K) (mid atrV factor capitalUsd : K)
    (userLevels : Int) (risk : String) : GridConfig K :=
  let spacingFrac := factor * atrV / mid
  let lower := percentile closes 10
  let upper := percentile closes 90
  let inside : Bool := lower < mid ∧ mid < upper
  let lower := if inside then lower
    else min lower (mid * (1 - 3 * spacingFrac))
  let upper := if inside then upper
    else max upper (mid * (1 + 3 * spacingFrac))
  let levels := clampLevels userLevels
  { lower := lower
    upper := upper
    levels := levels
    lines := linspace lower upper levels
    sizeUsdPerLevel := capitalUsd / levels
    spacingFrac := spacingFrac
    atr := atrV
    midPrice := mid
    risk := risk
    capitalUsd := capitalUsd }

/-- `calibrate_grid` returns for a known risk, twenty candles, an ATR and a
last close that is not zero, and then this grid. -/
theorem calibrateGrid_eq_ok_iff {klines : List (Kline K)} {capitalUsd : K}
    {userLevels : Int} {risk : String} {g : GridConfig K} :
    calibrateGrid klines capitalUsd userLevels risk = .ok g
      ↔ ∃ factor mid atrV, riskFactor risk = some factor
        ∧ (klines.map (·.close)).getLast? = some mid ∧ 20 ≤ klines.length
        ∧ atr klines 14 = .ok atrV ∧ mid ≠ 0
        ∧ g = gridFrom (klines.map (·.close)) mid atrV factor capitalUsd
            userLevels risk := by
  unfold calibrateGrid
  cases hfactor : (riskFactor risk : Option K) with
  | none => simp [raise]
  | some factor =>
      cases hmid : (klines.map (·.close)).getLast? with
      | none => simp [raise, hmid]
      | some mid =>
          by_cases hlen : klines.length < 20
          · simp [raise, hmid, hlen, Nat.not_le.2 hlen]
          · simp only [hmid, if_neg hlen]
            constructor
            · intro h
              obtain ⟨atrV, hatr, h⟩ := bind_eq_ok.1 h
              obtain ⟨spacing, hspacing, h⟩ := bind_eq_ok.1 h
              unfold pyDiv at hspacing
              split at hspacing
              case isTrue => cases hspacing
              case isFalse hne =>
                cases hspacing
                cases h
                exact ⟨factor, mid, atrV, rfl, rfl, Nat.not_lt.1 hlen, hatr,
                  hne, rfl⟩
            · intro h
              obtain ⟨factor', mid', atrV, hf, hm, -, hatr, hne, rfl⟩ := h
              cases hf
              cases hm
              rw [hatr, ok_bind, pyDiv, if_neg hne]
              rfl

/-- The lines of a calibrated grid: one for each level. -/
theorem calibrateGrid_lines {klines : List (Kline K)} {capitalUsd : K}
    {userLevels : Int} {risk : String} {grid : GridConfig K}
    (h : calibrateGrid klines capitalUsd userLevels risk = .ok grid) :
    0 < grid.levels ∧ grid.lines.length = grid.levels
      ∧ grid.capitalUsd = capitalUsd
      ∧ grid.sizeUsdPerLevel = grid.capitalUsd / grid.levels := by
  obtain ⟨factor, mid, atrV, -, -, -, -, -, rfl⟩ :=
    calibrateGrid_eq_ok_iff.1 h
  have hlevels : 5 ≤ clampLevels userLevels := by
    simp only [clampLevels, minLevels, maxLevels]
    omega
  refine ⟨by simp only [gridFrom]; omega, ?_, rfl, rfl⟩
  have hne : clampLevels userLevels ≠ 1 := by omega
  simp [gridFrom, linspace, hne]

end Proofstand.BnbGrid
