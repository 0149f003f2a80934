/-
A very wide range against the full range.

`ilEstimate` clamps the width below one so that the lower end stays above
zero, and the upper end is clamped with it: from there on every width is
one range (`ilAt_widest`), which ends just below twice the entry price. In
roots of prices that range loses more than the full range below it
(`below_gap`), inside it (`Span.inside_gap`) and above it (`above_gap`),
everywhere but at the entry price (`fullRangeLoss_lt`), so there no width
brings the integrand to the full-range loss.

# Three regions

At `k` the worth of the widest range is compared with the full range's in
the root of `k`, both against what the entry's amounts are worth there.
Inside the range the difference is a square with a positive factor; below
and above it one side of the range's amounts is gone, and the inequality
is left to numbers. The upper end is the root of a decimal, and is bounded
by decimals first (`lt_widest_high`, `widest_high_lt`); no other
approximation is made.

The limit in the width is then one of a sequence that stands still from
the clamp on, so a width that comes within every distance of the
full-range loss is one that is at it, and that happens at the entry price
only (`full_range_recovered_iff`).
-/
import Proofstand.Data.Proofs.Loss

namespace Proofstand

namespace Calibrate

open Concentrated

-- ====================================================== the widest range

/-- `0.999999`, the largest width that reaches the range. -/
noncomputable def maxWidth : ℝ := 999999 / 1000000

/-- The loss of a v2 position at the price ratio `k`. -/
noncomputable def fullRangeLoss (k : ℝ) : ℝ :=
  1 - 2 * Real.sqrt k / (1 + k)

/-- The roots of the ends of the widest range. -/
noncomputable def widest : Span ℝ :=
  sqrtSpan (show 0 < 1 - maxWidth by norm_num [maxWidth])
    (show 1 - maxWidth < 1 + maxWidth by norm_num [maxWidth])

/-- In roots of the price, the widest range begins at a thousandth, -/
theorem widest_low : widest.low = 1 / 1000 := by
  have hlow : (1 : ℝ) - maxWidth = (1 / 1000) ^ 2 := by
    rw [maxWidth]
    norm_num
  change Real.sqrt (1 - maxWidth) = 1 / 1000
  rw [hlow, Real.sqrt_sq (by norm_num)]

/-- and ends a little above 1.4142, -/
theorem lt_widest_high : 14142 / 10000 < widest.high := by
  change _ < Real.sqrt (1 + maxWidth)
  rw [Real.lt_sqrt (by norm_num), maxWidth]
  norm_num

/-- below 1.4143. -/
theorem widest_high_lt : widest.high < 14143 / 10000 := by
  change Real.sqrt (1 + maxWidth) < _
  rw [Real.sqrt_lt' (by norm_num), maxWidth]
  norm_num

-- ============================================================= the gaps

theorem widest_low_lt_one : widest.low < 1 := by
  rw [widest_low]
  norm_num

theorem one_lt_widest_high : 1 < widest.high :=
  lt_trans (by norm_num) lt_widest_high

/-- The share of the held base token that the range sells by its end. -/
theorem widest_share : 2927 / 10000 < 1 - 1 / widest.high := by
  have hinv : 1 / widest.high < 1 / (14142 / 10000) :=
    one_div_lt_one_div_of_lt (by norm_num) lt_widest_high
  have hvalue : (1 : ℝ) / (14142 / 10000) < 7073 / 10000 := by norm_num
  linarith

theorem below_gap {s : ℝ} (hs : 0 < s) (hbelow : s ≤ widest.low) :
    widest.worth s s * (1 + s ^ 2) < 2 * s * widest.worth 1 s := by
  have hshare := widest_share
  have hinv : 0 < 1 / widest.high := one_div_pos.2 widest.high_pos
  rw [Span.worth_one widest_low_lt_one one_lt_widest_high, Span.worth,
    Span.quote_of_le_low hbelow, Span.base, Span.clamp_of_le_low hbelow]
  rw [widest_low] at hbelow ⊢
  have hlinear : 1000 * s * (1 + s ^ 2) < 2 * (1 - 1 / 1000) := by
    nlinarith
  have hsold : 0 ≤ (1 - 1 / widest.high) * s ^ 2 := by
    apply mul_nonneg (by linarith) (sq_nonneg s)
  calc ((1 / (1 / 1000) - 1 / widest.high) * s ^ 2 + 0) * (1 + s ^ 2)
      ≤ 1000 * s ^ 2 * (1 + s ^ 2) := by
        apply mul_le_mul_of_nonneg_right _ (by positivity)
        nlinarith [sq_nonneg s]
    _ = s * (1000 * s * (1 + s ^ 2)) := by ring
    _ < s * (2 * (1 - 1 / 1000)) := mul_lt_mul_of_pos_left hlinear hs
    _ ≤ 2 * s * ((1 - 1 / widest.high) * s ^ 2 + (1 - 1 / 1000)) := by
        nlinarith

theorem above_gap {s : ℝ} (habove : widest.high ≤ s) :
    widest.worth s s * (1 + s ^ 2) < 2 * s * widest.worth 1 s := by
  have hshare := widest_share
  have hs : 14142 / 10000 < s := lt_widest_high.trans_le habove
  rw [Span.worth_one widest_low_lt_one one_lt_widest_high, Span.worth,
    Span.base_of_high_le habove, Span.quote, Span.clamp_of_high_le habove,
    widest_low]
  have hhigh := widest_high_lt
  have hquote : (0 * s ^ 2 + (widest.high - 1 / 1000)) * (1 + s ^ 2)
      ≤ 14133 / 10000 * (1 + s ^ 2) := by
    apply mul_le_mul_of_nonneg_right _ (by positivity)
    linarith
  have hcube : 2927 / 10000 * s ^ 3 ≤ (1 - 1 / widest.high) * s ^ 3 :=
    mul_le_mul_of_nonneg_right hshare.le (by positivity)
  have hpoly : 14133 / 10000 * (1 + s ^ 2)
      < 2 * (2927 / 10000) * s ^ 3 + 2 * (1 - 1 / 1000) * s := by
    nlinarith [sq_nonneg (s - 14142 / 10000), mul_pos
      (sub_pos.2 hs) (sub_pos.2 hs)]
  calc (0 * s ^ 2 + (widest.high - 1 / 1000)) * (1 + s ^ 2)
      ≤ 14133 / 10000 * (1 + s ^ 2) := hquote
    _ < 2 * (2927 / 10000) * s ^ 3 + 2 * (1 - 1 / 1000) * s := hpoly
    _ ≤ 2 * s * ((1 - 1 / widest.high) * s ^ 2 + (1 - 1 / 1000)) := by
        linarith

/-- The widest range is worth less than the full range wherever the price
has moved. -/
theorem widest_gap {s : ℝ} (hs : 0 < s) (hmoved : s ≠ 1) :
    widest.worth s s * (1 + s ^ 2) < 2 * s * widest.worth 1 s := by
  rcases le_total s widest.low with hbelow | hlow
  · exact below_gap hs hbelow
  · rcases le_total widest.high s with habove | hhigh
    · exact above_gap habove
    · have hgap := Span.inside_gap widest_low_lt_one one_lt_widest_high hlow
        hhigh
      have hsquare : 0 < (s ^ 2 / widest.high + widest.low) * (s - 1) ^ 2 := by
        have hmove : 0 < (s - 1) ^ 2 := sq_pos_of_ne_zero (sub_ne_zero.2 hmoved)
        exact mul_pos (add_pos_of_nonneg_of_pos
          (div_nonneg (sq_nonneg s) widest.high_pos.le) widest.low_pos) hmove
      linarith

-- ======================================================= the full range

theorem widest_worth_pos {k : ℝ} (hk : 0 < k) :
    0 < widest.worth 1 (Real.sqrt k) := Span.worth_pos (Real.sqrt_pos.2 hk)

/-- The loss the code integrates at every width beyond the clamp. -/
noncomputable def widestLoss (k : ℝ) : ℝ :=
  1 - widest.worth (Real.sqrt k) (Real.sqrt k) / widest.worth 1 (Real.sqrt k)

/-- Beyond the clamp the width no longer matters. -/
theorem ilAt_widest {width k : ℝ} (hwidth : maxWidth ≤ width)
    (hk : 0 < k) : ilAt realMath width k = .ok (widestLoss k) := by
  have hmax : 0 < maxWidth := by norm_num [maxWidth]
  have hlow : 1 - maxWidth < 1 := sub_lt_self 1 hmax
  have hhigh : 1 < 1 + maxWidth := lt_add_of_pos_right 1 hmax
  have ha : 0 < 1 - maxWidth := by norm_num [maxWidth]
  have hunit := (Entered.unitLiquidity_pos
    (sqrtSpan ha (hlow.trans hhigh)) one_pos).ne'
  have hclamp : min width (999999 / 1000000) = maxWidth :=
    min_eq_right hwidth
  rw [ilAt_eq hclamp hk (Entered.enter ha hlow hhigh),
    Entered.enter_vLp ha hlow hhigh hk.le,
    Entered.enter_vHold ha hlow hhigh hk.le, mul_div_mul_left _ _ hunit,
    Real.sqrt_one]
  rfl

/-- A range loses more than the full range wherever the price has moved. -/
theorem fullRangeLoss_lt {k : ℝ} (hk : 0 < k) (hmoved : k ≠ 1) :
    fullRangeLoss k < widestLoss k := by
  have hroot := Real.sqrt_pos.2 hk
  have hgap := widest_gap hroot fun h => hmoved (Real.sqrt_eq_one.1 h)
  rw [Real.sq_sqrt hk.le] at hgap
  apply sub_lt_sub_left
  rw [div_lt_div_iff₀ (widest_worth_pos hk) (by positivity)]
  exact hgap

theorem widestLoss_entry : widestLoss 1 = 0 := by
  have hworth := (widest_worth_pos one_pos).ne'
  rw [Real.sqrt_one] at hworth
  rw [widestLoss, Real.sqrt_one, div_self hworth, sub_self]

theorem fullRangeLoss_entry : fullRangeLoss 1 = 0 := by
  rw [fullRangeLoss, Real.sqrt_one]
  norm_num

/-- At `4` the widest range loses a third of the held value, the full range
a fifth. -/
theorem wide_range_misses :
    ¬ ∃ W : ℝ, ∀ width, W ≤ width →
      ∃ loss, ilAt realMath width 4 = .ok loss
        ∧ |loss - (1 - 2 * Real.sqrt 4 / (1 + 4))| < 1 / 10 := by
  intro h
  obtain ⟨W, hW⟩ := h
  obtain ⟨loss, hloss, hnear⟩ := hW (max W maxWidth) (le_max_left _ _)
  rw [ilAt_widest (le_max_right _ _) (by norm_num)] at hloss
  cases hloss
  have hroot : Real.sqrt 4 = 2 := by
    rw [show (4 : ℝ) = 2 ^ 2 by norm_num, Real.sqrt_sq zero_le_two]
  have habove : widest.high ≤ 2 :=
    widest_high_lt.le.trans (by norm_num)
  have hheld := widest_worth_pos (k := 4) (by norm_num)
  have hshare := widest_share
  have hhigh := widest_high_lt
  have hfar : widest.worth 2 2 < 7 / 10 * widest.worth 1 2 := by
    rw [Span.worth_one widest_low_lt_one one_lt_widest_high, Span.worth,
      Span.base_of_high_le habove, Span.quote, Span.clamp_of_high_le habove,
      widest_low]
    linarith
  rw [hroot] at hheld hnear
  have hratio : widest.worth 2 2 / widest.worth 1 2 < 7 / 10 := by
    rwa [div_lt_iff₀ hheld]
  rw [widestLoss, hroot] at hnear
  have hsmall := (abs_lt.1 hnear).2
  linarith

/-- A very wide range comes within every distance of the full range
exactly at the entry price. -/
theorem full_range_recovered_iff {k : ℝ} (hk : 0 < k) :
    (∀ ε : ℝ, 0 < ε → ∃ W : ℝ, ∀ width, W ≤ width →
      ∃ loss, ilAt realMath width k = .ok loss
        ∧ |loss - (1 - 2 * Real.sqrt k / (1 + k))| < ε)
      ↔ k = 1 := by
  constructor
  · intro hrecovered
    by_contra hmoved
    have hgap := sub_pos.2 (fullRangeLoss_lt hk hmoved)
    obtain ⟨W, hW⟩ := hrecovered _ hgap
    obtain ⟨loss, hloss, hnear⟩ := hW (max W maxWidth) (le_max_left _ _)
    rw [ilAt_widest (le_max_right _ _) hk] at hloss
    cases hloss
    exact absurd (le_abs_self _) (not_le.2 hnear)
  · intro heq
    subst heq
    intro ε hε
    refine ⟨maxWidth, fun width hwidth =>
      ⟨_, ilAt_widest hwidth one_pos, ?_⟩⟩
    have hfull : 1 - 2 * Real.sqrt 1 / (1 + 1) = 0 := fullRangeLoss_entry
    rw [hfull, widestLoss_entry, sub_zero, abs_zero]
    exact hε

/-- At the entry's own price the limit is the full range's loss: both are
none. -/
theorem full_range_recovered_entry :
    ∃ W : ℝ, ∀ width, W ≤ width →
      ∃ loss, ilAt realMath width 1 = .ok loss
        ∧ |loss - (1 - 2 * Real.sqrt 1 / (1 + 1))| < 1 / 100 :=
  (full_range_recovered_iff one_pos).2 rfl (1 / 100) (by norm_num)

end Calibrate

end Proofstand
