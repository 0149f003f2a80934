/-
A range position against holding its entry, over the reals.

In roots of prices the three branches of `v3Amounts` are the amounts of one
clamped position (`v3Amounts_real`), so one inequality bounds all of them:
`Entered` is a position entered for one unit of value, and it is worth at
most what its entry is worth, as much only where the price has not moved
(`Entered.vLp_le_vHold`, `Entered.vLp_eq_vHold_iff`). The integrand of
`ilEstimate` is `ilAt` (`ilEstimate_eq`), a loss in `[0, 1)`
(`ilAt_real`); over an ascending grid such losses add up to no negative
number (`trapezoid_nonneg`).

# One formula for three branches

The source computes a position's amounts by where the price stands. With
the price clamped to the range there is one formula, and the three
branches are its cases; continuity at the two ends comes with it. The
library speaks of roots and of one unit of liquidity, and `held` scales it
by the liquidity that is worth one at the entry price.

# The integral

What the estimate returns is an integral of losses against a density, by
trapezoids. Each loss is at least zero and below one, the density is not
negative and the grid ascends, so the integral is not negative either, and
the cut at zero behind it does nothing. The grid points are logarithms, so
every price is positive; the range is entered at one and has its ends at
`1 - w` and `1 + w`, with the width clamped below one.
-/
import Proofstand.Data.Proofs.Volatility
import Proofstand.Lib.Concentrated
import Mathlib.Analysis.Real.Sqrt

namespace Proofstand

namespace Calibrate

open Fallible Concentrated

-- ======================================================== the integrand

section

variable {K : Type} [Field K] [LinearOrder K]

/-- What `ilEstimate` integrates, at the price ratio `k`. -/
def ilAt (lib : Libm K) (rangeWidthPct k : K) : Py K := do
  let w := min rangeWidthPct (999999 / 1000000)
  let p0 : K := 1
  let (x0, y0) ← v3Amounts lib 1 p0 (1 - w) (1 + w)
  let L ← pyDiv 1 (x0 * p0 + y0)
  let (x, y) ← v3Amounts lib L k (1 - w) (1 + w)
  pure (1 - (x * k + y) / (x0 * L * k + y0 * L))

/-- The log prices it integrates over, at the deviation `s`. -/
def lnGrid (s : K) : List K :=
  linspace (-(1 / 2) * s * s - 8 * s) (-(1 / 2) * s * s + 8 * s) 4001

/-- The lognormal density on them. -/
def density (lib : Libm K) (s : K) : List K :=
  (lnGrid s).map fun x =>
    lib.exp (-((x - -(1 / 2) * s * s) ^ 2) / (2 * s * s))
      / (s * lib.sqrt (2 * lib.pi))

/-- `il_estimate`, once the entry's amounts, the liquidity and the root have
returned: nothing without a deviation, else the integral over the grid. -/
theorem ilEstimate_eq {lib : Libm K} {horizonDays width x0 y0 L root : K}
    (vol : K) (hwidth : 0 < width)
    (hentry : v3Amounts lib 1 1 (1 - min width (999999 / 1000000))
      (1 + min width (999999 / 1000000)) = .ok (x0, y0))
    (hL : pyDiv 1 (x0 * 1 + y0) = .ok L)
    (hroot : lib.mathSqrt (horizonDays / 365) = .ok root) :
    ilEstimate lib vol horizonDays width
      = if vol * root ≤ 0 then .ok 0
        else (do
          let il ← (lnGrid (vol * root)).mapM fun x =>
            ilAt lib width (lib.exp x)
          pure (max (trapezoid
            (List.zipWith (· * ·) il (density lib (vol * root)))
            (lnGrid (vol * root))) 0)) := by
  have hil : ∀ x, ilAt lib width (lib.exp x) = (do
      let (a, b) ← v3Amounts lib L (lib.exp x)
        (1 - min width (999999 / 1000000)) (1 + min width (999999 / 1000000))
      pure (1 - (a * lib.exp x + b) / (x0 * L * lib.exp x + y0 * L))) := by
    intro x
    unfold ilAt
    simp only [hentry, ok_bind, hL]
  unfold ilEstimate
  rw [if_neg (not_not.2 hwidth)]
  simp only [hentry, ok_bind, hL, hroot, hil]
  rfl

end

-- ============================================================ trapezoid

theorem trapezoid_cons_cons (y y' x x' : ℝ) (ys xs : List ℝ) :
    trapezoid (y :: y' :: ys) (x :: x' :: xs)
      = (x' - x) * (y + y') / 2 + trapezoid (y' :: ys) (x' :: xs) := rfl

theorem trapezoid_nonneg {xs ys : List ℝ} (hxs : xs.Pairwise (· ≤ ·))
    (hys : ∀ y ∈ ys, 0 ≤ y) : 0 ≤ trapezoid ys xs := by
  induction xs generalizing ys with
  | nil => exact le_of_eq rfl
  | cons x xs ih =>
      match xs, ys with
      | [], _ => exact le_of_eq rfl
      | _ :: _, [] => exact le_of_eq (by simp [trapezoid])
      | _ :: _, [y] => exact le_of_eq (by simp [trapezoid])
      | x' :: xs, y :: y' :: ys =>
          rw [trapezoid_cons_cons]
          have hstep : x ≤ x' := List.rel_of_pairwise_cons hxs
            List.mem_cons_self
          have hy : 0 ≤ y := hys y List.mem_cons_self
          have hy' : 0 ≤ y' :=
            hys y' (List.mem_cons_of_mem y List.mem_cons_self)
          have hrest := ih hxs.of_cons fun z hz =>
            hys z (List.mem_cons_of_mem y hz)
          have hfirst : 0 ≤ (x' - x) * (y + y') / 2 :=
            div_nonneg (mul_nonneg (sub_nonneg.2 hstep)
              (add_nonneg hy hy')) zero_le_two
          exact add_nonneg hfirst hrest

theorem linspace_pairwise {lo hi : ℝ} (h : lo ≤ hi) (n : Nat) :
    (linspace lo hi (n + 2)).Pairwise (· ≤ ·) := by
  have hstep : 0 ≤ (hi - lo) / (((n + 2 : Nat) : ℝ) - 1) := by
    apply div_nonneg (sub_nonneg.2 h)
    push_cast
    linarith [Nat.cast_nonneg (α := ℝ) n]
  rw [linspace, if_neg (by omega)]
  apply List.Pairwise.map _ _ List.pairwise_lt_range
  intro i j hij
  have hcast : (i : ℝ) ≤ j := by exact_mod_cast hij.le
  have hterm := mul_le_mul_of_nonneg_right hcast hstep
  linarith

-- ========================================================= the position

/-- The roots of the ends of a range. -/
noncomputable def sqrtSpan {pa pb : ℝ} (ha : 0 < pa) (hab : pa < pb) :
    Span ℝ where
  low := Real.sqrt pa
  high := Real.sqrt pb
  low_pos := Real.sqrt_pos.2 ha
  low_lt_high := Real.sqrt_lt_sqrt ha.le hab

/-- The amounts of `L` units at the price `p`. -/
noncomputable def held (r : Span ℝ) (L p : ℝ) : ℝ × ℝ :=
  (L * r.base (Real.sqrt p), L * r.quote (Real.sqrt p))

theorem continuous_held (r : Span ℝ) (L : ℝ) : Continuous (held r L) :=
  (continuous_const.mul (r.continuous_base.comp Real.continuous_sqrt)).prodMk
    (continuous_const.mul (r.continuous_quote.comp Real.continuous_sqrt))

theorem held_worth (r : Span ℝ) (L e : ℝ) {p : ℝ} (hp : 0 ≤ p) :
    (held r L e).1 * p + (held r L e).2
      = L * r.worth (Real.sqrt e) (Real.sqrt p) := by
  rw [held, Span.worth, Real.sq_sqrt hp]
  ring

/-- Over the reals `v3_amounts` is what the span holds. -/
theorem v3Amounts_real {pa pb p : ℝ} (L : ℝ) (ha : 0 < pa) (hab : pa < pb)
    (hp : 0 < p) :
    v3Amounts realMath L p pa pb = .ok (held (sqrtSpan ha hab) L p) := by
  have hb : 0 < pb := ha.trans hab
  have hsp := Real.sqrt_pos.2 hp
  have hspa := Real.sqrt_pos.2 ha
  have hspb := Real.sqrt_pos.2 hb
  unfold v3Amounts held
  rw [mathSqrt_real hp.le, mathSqrt_real ha.le, mathSqrt_real hb.le]
  simp only [ok_bind]
  split
  · rename_i hbelow
    have hroot : Real.sqrt p ≤ (sqrtSpan ha hab).low :=
      Real.sqrt_le_sqrt hbelow
    rw [Span.base_of_le_low hroot, Span.quote_of_le_low hroot, pyDiv,
      if_neg (mul_pos hspa hspb).ne', mul_zero, ← mul_div_assoc]
    rfl
  · split
    · rename_i habove
      have hroot : (sqrtSpan ha hab).high ≤ Real.sqrt p :=
        Real.sqrt_le_sqrt habove
      rw [Span.base_of_high_le hroot, Span.quote, Span.clamp_of_high_le hroot,
        mul_zero]
      rfl
    · rename_i hlow hhigh
      have hlowRoot : (sqrtSpan ha hab).low ≤ Real.sqrt p :=
        Real.sqrt_le_sqrt (not_le.1 hlow).le
      have hhighRoot : Real.sqrt p ≤ (sqrtSpan ha hab).high :=
        Real.sqrt_le_sqrt (not_le.1 hhigh).le
      rw [Span.base_of_mem hlowRoot hhighRoot, Span.quote,
        Span.clamp_of_mem hlowRoot hhighRoot, pyDiv,
        if_neg (mul_pos hsp hspb).ne', ← mul_div_assoc]
      rfl

/-- A position over `[pa, pb]`, entered at `p0` for one unit of value. -/
structure Entered (pa pb p0 : ℝ) where
  /-- The amounts of one unit of liquidity at entry. -/
  x0 : ℝ
  y0 : ℝ
  /-- The liquidity one unit of value buys. -/
  L : ℝ
  /-- What the position holds at each price. -/
  amounts : ℝ → ℝ × ℝ
  entry_eq : v3Amounts realMath 1 p0 pa pb = .ok (x0, y0)
  liquidity_eq : pyDiv 1 (x0 * p0 + y0) = .ok L
  amounts_eq : ∀ p, 0 < p → v3Amounts realMath L p pa pb = .ok (amounts p)

namespace Entered

variable {pa pb p0 : ℝ}

def vLp (pos : Entered pa pb p0) (p : ℝ) : ℝ :=
  (pos.amounts p).1 * p + (pos.amounts p).2

def vHold (pos : Entered pa pb p0) (p : ℝ) : ℝ :=
  pos.x0 * pos.L * p + pos.y0 * pos.L

variable (ha : 0 < pa) (hlow : pa < p0) (hhigh : p0 < pb)

/-- The liquidity that is worth one at entry. -/
noncomputable def unitLiquidity (r : Span ℝ) (p0 : ℝ) : ℝ :=
  1 / (1 * r.worth (Real.sqrt p0) (Real.sqrt p0))

theorem unitLiquidity_pos (r : Span ℝ) {p0 : ℝ} (hp0 : 0 < p0) :
    0 < unitLiquidity r p0 := by
  have hworth := r.worth_pos (e := Real.sqrt p0) (Real.sqrt_pos.2 hp0)
  rw [unitLiquidity]
  positivity

/-- Every range around the entry price can be entered. -/
noncomputable def enter : Entered pa pb p0 where
  x0 := (held (sqrtSpan ha (hlow.trans hhigh)) 1 p0).1
  y0 := (held (sqrtSpan ha (hlow.trans hhigh)) 1 p0).2
  L := unitLiquidity (sqrtSpan ha (hlow.trans hhigh)) p0
  amounts := held (sqrtSpan ha (hlow.trans hhigh))
    (unitLiquidity (sqrtSpan ha (hlow.trans hhigh)) p0)
  entry_eq := v3Amounts_real 1 ha _ (ha.trans hlow)
  liquidity_eq := by
    have hp0 := ha.trans hlow
    have hworth := (sqrtSpan ha (hlow.trans hhigh)).worth_pos
      (e := Real.sqrt p0) (Real.sqrt_pos.2 hp0)
    rw [held_worth _ _ _ hp0.le, pyDiv, if_neg (by positivity)]
    rfl
  amounts_eq := fun _ hp => v3Amounts_real _ ha _ hp

theorem enter_vLp {p : ℝ} (hp : 0 ≤ p) :
    (enter ha hlow hhigh).vLp p
      = unitLiquidity (sqrtSpan ha (hlow.trans hhigh)) p0
        * (sqrtSpan ha (hlow.trans hhigh)).worth (Real.sqrt p)
          (Real.sqrt p) := held_worth _ _ _ hp

theorem enter_vHold {p : ℝ} (hp : 0 ≤ p) :
    (enter ha hlow hhigh).vHold p
      = unitLiquidity (sqrtSpan ha (hlow.trans hhigh)) p0
        * (sqrtSpan ha (hlow.trans hhigh)).worth (Real.sqrt p0)
          (Real.sqrt p) := by
  have hunit := held_worth (sqrtSpan ha (hlow.trans hhigh)) 1 (p := p) p0 hp
  rw [one_mul] at hunit
  rw [← hunit, vHold, enter]
  ring

/-- The position is always worth something, -/
theorem vLp_pos {p : ℝ} (hp : 0 < p) :
    0 < (enter ha hlow hhigh).vLp p := by
  rw [enter_vLp ha hlow hhigh hp.le]
  exact mul_pos (unitLiquidity_pos _ (ha.trans hlow))
    (Span.worth_pos (Real.sqrt_pos.2 hp))

/-- never more than what it began with, -/
theorem vLp_le_vHold {p : ℝ} (hp : 0 ≤ p) :
    (enter ha hlow hhigh).vLp p ≤ (enter ha hlow hhigh).vHold p := by
  rw [enter_vLp ha hlow hhigh hp, enter_vHold ha hlow hhigh hp]
  exact mul_le_mul_of_nonneg_left (Span.worth_self_le (Real.sqrt_nonneg p))
    (unitLiquidity_pos _ (ha.trans hlow)).le

/-- and as much only at the entry's price. -/
theorem vLp_eq_vHold_iff {p : ℝ} (hp : 0 ≤ p) :
    (enter ha hlow hhigh).vLp p = (enter ha hlow hhigh).vHold p
      ↔ p = p0 := by
  have hp0 := ha.trans hlow
  have hinside := Span.worth_self_eq_iff
    (r := sqrtSpan ha (hlow.trans hhigh)) (Real.sqrt_nonneg p)
    (Real.sqrt_lt_sqrt ha.le hlow) (Real.sqrt_lt_sqrt hp0.le hhigh)
  rw [enter_vLp ha hlow hhigh hp, enter_vHold ha hlow hhigh hp,
    mul_right_inj' (unitLiquidity_pos _ hp0).ne', hinside,
    Real.sqrt_inj hp hp0.le]

end Entered

-- ======================================================= the estimate

/-- `ilAt` is one less the two worths' quotient. -/
theorem ilAt_eq {width w k : ℝ} (hw : min width (999999 / 1000000) = w)
    (hk : 0 < k) (pos : Entered (1 - w) (1 + w) 1) :
    ilAt realMath width k = .ok (1 - pos.vLp k / pos.vHold k) := by
  unfold ilAt
  rw [hw]
  simp only [pos.entry_eq, ok_bind, pos.liquidity_eq, pos.amounts_eq k hk]
  rfl

section

variable {width : ℝ} (hwidth : 0 < width)

include hwidth

theorem clampedWidth_pos : 0 < min width (999999 / 1000000) :=
  lt_min hwidth (by norm_num)

omit hwidth in
theorem clampedWidth_lt_one : min width (999999 / 1000000) < 1 :=
  (min_le_right _ _).trans_lt (by norm_num)

/-- The position whose loss `ilEstimate` weighs. -/
noncomputable def entered :
    Entered (1 - min width (999999 / 1000000))
      (1 + min width (999999 / 1000000)) 1 :=
  Entered.enter (sub_pos.2 clampedWidth_lt_one)
    (sub_lt_self 1 (clampedWidth_pos hwidth))
    (lt_add_of_pos_right 1 (clampedWidth_pos hwidth))

/-- Over the reals the loss at a price is from 0 to less than 1. -/
theorem ilAt_real {k : ℝ} (hk : 0 < k) :
    ∃ loss, ilAt realMath width k = .ok loss ∧ 0 ≤ loss ∧ loss < 1 := by
  have hlp : 0 < (entered hwidth).vLp k := Entered.vLp_pos _ _ _ hk
  have hle : (entered hwidth).vLp k ≤ (entered hwidth).vHold k :=
    Entered.vLp_le_vHold _ _ _ hk.le
  have hhold : 0 < (entered hwidth).vHold k := hlp.trans_le hle
  refine ⟨_, ilAt_eq rfl hk (entered hwidth), ?_, ?_⟩
  · exact sub_nonneg.2 ((div_le_one hhold).2 hle)
  · exact sub_lt_self 1 (div_pos hlp hhold)

/-- Every grid point is the log of a positive price. -/
theorem losses_real (grid : List ℝ) :
    ∃ losses,
      grid.mapM (fun x => ilAt realMath width (Real.exp x)) = .ok losses
      ∧ ∀ loss ∈ losses, 0 ≤ loss ∧ loss < 1 := by
  obtain ⟨losses, hlosses⟩ := mapM_total (l := grid)
    (f := fun x => ilAt realMath width (Real.exp x))
    fun x _ => (ilAt_real hwidth (Real.exp_pos x)).imp fun _ h => h.1
  refine ⟨losses, hlosses, ?_⟩
  intro loss hmem
  obtain ⟨x, -, hx⟩ := (mem_mapM_iff hlosses).1 hmem
  obtain ⟨loss', hloss', hbound⟩ := ilAt_real hwidth (Real.exp_pos x)
  cases hloss'.symm.trans hx
  exact hbound

end

theorem density_nonneg {s : ℝ} (hs : 0 ≤ s) :
    ∀ d ∈ density realMath s, 0 ≤ d := by
  intro d hd
  obtain ⟨x, -, rfl⟩ := List.mem_map.1 hd
  exact div_nonneg (Real.exp_pos _).le
    (mul_nonneg hs (Real.sqrt_nonneg _))

theorem lnGrid_pairwise {s : ℝ} (hs : 0 ≤ s) :
    (lnGrid s).Pairwise (· ≤ ·) :=
  linspace_pairwise (by linarith) 3999

/-- Losses weighed by the density add up to no negative number. -/
theorem expected_nonneg {s : ℝ} {losses : List ℝ} (hs : 0 ≤ s)
    (hlosses : ∀ loss ∈ losses, 0 ≤ loss) :
    0 ≤ trapezoid (List.zipWith (· * ·) losses (density realMath s))
      (lnGrid s) := by
  apply trapezoid_nonneg (lnGrid_pairwise hs)
  intro y hy
  obtain ⟨i, hi, rfl⟩ := List.mem_iff_getElem.1 hy
  rw [List.getElem_zipWith]
  exact mul_nonneg (hlosses _ (List.getElem_mem _))
    (density_nonneg hs _ (List.getElem_mem _))

/-- A position never beats holding its entry, and equals it only at the
entry price; so what `ilEstimate` adds up are losses in `[0, 1)` and the
clamp at zero returns their sum as it is. -/
theorem impermanent_loss :
    (∀ pa pb p0 : ℝ, 0 < pa → pa < p0 → p0 < pb →
      ∃ pos : Entered pa pb p0,
        ContinuousAt pos.amounts pa ∧ ContinuousAt pos.amounts pb
        ∧ ∀ k, 0 < k →
          0 < pos.vLp (p0 * k) ∧ pos.vLp (p0 * k) ≤ pos.vHold (p0 * k)
          ∧ (pos.vLp (p0 * k) = pos.vHold (p0 * k) ↔ k = 1))
    ∧ ∀ vol horizonDays width s : ℝ, 0 ≤ horizonDays → 0 < width →
      s = vol * Real.sqrt (horizonDays / 365) →
      (∀ k, 0 < k →
        ∃ loss, ilAt realMath width k = .ok loss ∧ 0 ≤ loss ∧ loss < 1)
      ∧ ∃ il, ilEstimate realMath vol horizonDays width = .ok il
        ∧ (s ≤ 0 ∧ il = 0 ∨ 0 < s ∧ ∃ losses,
          (lnGrid s).mapM (fun x => ilAt realMath width (Real.exp x))
            = .ok losses
          ∧ (∀ loss ∈ losses, 0 ≤ loss ∧ loss < 1)
          ∧ il = trapezoid
              (List.zipWith (· * ·) losses (density realMath s))
              (lnGrid s)) := by
  constructor
  · intro pa pb p0 ha hlow hhigh
    have hp0 : 0 < p0 := ha.trans hlow
    have hcont : Continuous (Entered.enter ha hlow hhigh).amounts :=
      continuous_held _ _
    refine ⟨Entered.enter ha hlow hhigh, hcont.continuousAt,
      hcont.continuousAt, ?_⟩
    intro k hk
    have hp : 0 < p0 * k := mul_pos hp0 hk
    refine ⟨Entered.vLp_pos ha hlow hhigh hp,
      Entered.vLp_le_vHold ha hlow hhigh hp.le, ?_⟩
    rw [Entered.vLp_eq_vHold_iff ha hlow hhigh hp.le,
      mul_eq_left₀ hp0.ne']
  · intro vol horizonDays width s hhorizon hwidth hs
    refine ⟨fun k hk => ilAt_real hwidth hk, ?_⟩
    have hroot := mathSqrt_real (x := horizonDays / 365) (by positivity)
    have hestimate := ilEstimate_eq vol hwidth (entered hwidth).entry_eq
      (entered hwidth).liquidity_eq hroot
    rw [← hs] at hestimate
    rcases le_or_gt s 0 with hflat | hspos
    · rw [if_pos hflat] at hestimate
      exact ⟨0, hestimate, Or.inl ⟨hflat, rfl⟩⟩
    · rw [if_neg (not_le.2 hspos)] at hestimate
      obtain ⟨losses, hlosses, hbounds⟩ := losses_real hwidth (lnGrid s)
      have hsum := expected_nonneg hspos.le fun loss hmem =>
        (hbounds loss hmem).1
      refine ⟨_, ?_, Or.inr ⟨hspos, losses, hlosses, hbounds, rfl⟩⟩
      have hgrid : ((lnGrid s).mapM
          fun x => ilAt realMath width (realMath.exp x)) = .ok losses :=
        hlosses
      rw [hestimate, hgrid, ok_bind, max_eq_left hsum]
      rfl

/-- Over `[1/4, 4]` a price that quadruples loses. -/
theorem impermanent_loss_quarter :
    (∃ pos : Entered (1 / 4) 4 1, pos.vLp (1 * 4) < pos.vHold (1 * 4))
    ∧ ∃ il, ilEstimate realMath 1 365 (1 / 2) = .ok il := by
  constructor
  · obtain ⟨pos, -, -, hpos⟩ := impermanent_loss.1 (1 / 4) 4 1 (by norm_num)
      (by norm_num) (by norm_num)
    obtain ⟨-, hle, heq⟩ := hpos 4 (by norm_num)
    exact ⟨pos, hle.lt_of_ne fun h => absurd (heq.1 h) (by norm_num)⟩
  · obtain ⟨-, il, hil, -⟩ := impermanent_loss.2 1 365 (1 / 2) _
      (by norm_num) (by norm_num) rfl
    exact ⟨il, hil⟩

end Calibrate

end Proofstand
