/-
The range `select_range` picks, measured in ticks.

With `x` the log-1.0001 of the price and `h` the half width in ticks, the
requested band is `x - h` to `x + h`. Both ends are floored to a tick
first and moved to the spacing afterwards, so the lower end moves outward
twice, and the upper end inward before outward: it is short of the band
exactly where the floor is on the spacing and cuts something off
(`selectRange_outward_iff`).

# Over the reals

Logarithms, roots and exponentials are the real ones here, so
`price_to_tick` is the floor of a real number (`priceToTick_real`), and a
tick's price has that tick as its logarithm (`log_tickToPrice`). The band
and the ticks can then be compared as numbers of ticks, and a price lies
between two ticks where its logarithm does.

# Where the cut is

Snapping down after a floor never moves the lower end inside. Snapping up
after a floor can fall short by what the floor took, and does so exactly
when the floor lands on the spacing and took something (`Reaches`). When
both ends meet the upper one is moved a spacing further, which can not
hurt. The condition is on the price, the volatility and the spacing.
-/
import Proofstand.Agents.Proofs.RangeStep
import Proofstand.Data.Proofs.Volatility

namespace Proofstand.PcsRebalancer

open Fallible Calibrate

-- ============================================================== snapping

/-- Snapping down goes to the multiple at or below, less than a spacing away. -/
theorem snapDown_spec (t : Int) {s : Int} (hs : 0 < s) :
    s ∣ snapDown t s ∧ snapDown t s ≤ t ∧ t < snapDown t s + s := by
  rw [snapDown, Int.fdiv_eq_ediv_of_nonneg t hs.le]
  have hdivide := Int.emod_add_mul_ediv t s
  have hlow := Int.emod_nonneg t hs.ne'
  have hhigh := Int.emod_lt_of_pos t hs
  rw [mul_comm s] at hdivide
  exact ⟨Int.dvd_mul_left _ _, by omega, by omega⟩

theorem snapUp_eq (t s : Int) : snapUp t s = -snapDown (-t) s := by
  rw [snapUp, snapDown, neg_mul]

theorem snapUp_spec (t : Int) {s : Int} (hs : 0 < s) :
    s ∣ snapUp t s ∧ t ≤ snapUp t s ∧ snapUp t s < t + s := by
  obtain ⟨hdvd, hle, hlt⟩ := snapDown_spec (-t) hs
  rw [snapUp_eq]
  exact ⟨(dvd_neg).2 hdvd, by omega, by omega⟩

/-- Two multiples of a spacing less than a spacing apart. -/
theorem eq_of_dvd_of_close {a b s : Int} (ha : s ∣ a) (hb : s ∣ b)
    (hab : a ≤ b) (hclose : b < a + s) : a = b := by
  have hgap := Int.eq_zero_of_dvd_of_nonneg_of_lt (by omega) (by omega)
    (dvd_sub hb ha)
  omega

-- ============================================================= the ticks

/-- The upper tick, widened to one spacing where the two meet. -/
def upperTick (lo hi spacing : Int) : Int :=
  if snapUp hi spacing ≤ snapDown lo spacing then snapDown lo spacing + spacing
  else snapUp hi spacing

/-- Where the upper end of a band reaches its tick. -/
def Reaches (a b : ℝ) (spacing : Int) : Prop :=
  (⌊b⌋ : ℝ) = b ∨ ¬ spacing ∣ ⌊b⌋ ∨ ⌊a⌋ = ⌊b⌋

/-- The ticks of a band from `a` to `b`: on the spacing, a spacing from
their ends at most, the lower one never inside. The upper one is not
inside exactly where it reaches. -/
theorem ticks_spec {a b : ℝ} (hab : a ≤ b) {s : Int} (hs : 0 < s) :
    snapDown ⌊a⌋ s < upperTick ⌊a⌋ ⌊b⌋ s
    ∧ s ∣ snapDown ⌊a⌋ s ∧ s ∣ upperTick ⌊a⌋ ⌊b⌋ s
    ∧ (snapDown ⌊a⌋ s : ℝ) ≤ a ∧ a < snapDown ⌊a⌋ s + s
    ∧ (upperTick ⌊a⌋ ⌊b⌋ s : ℝ) ≤ b + s
    ∧ (b ≤ upperTick ⌊a⌋ ⌊b⌋ s ↔ Reaches a b s) := by
  obtain ⟨hdown, hbelow, hnear⟩ := snapDown_spec ⌊a⌋ hs
  obtain ⟨hup, habove, hfar⟩ := snapUp_spec ⌊b⌋ hs
  have hfloors : ⌊a⌋ ≤ ⌊b⌋ := Int.floor_le_floor hab
  have ha := Int.floor_le a
  have ha' := Int.lt_floor_add_one a
  have hb := Int.floor_le b
  have hb' := Int.lt_floor_add_one b
  have hlower : (snapDown ⌊a⌋ s : ℝ) ≤ a := by
    have hcast : (snapDown ⌊a⌋ s : ℝ) ≤ ⌊a⌋ := by exact_mod_cast hbelow
    linarith
  have hlower' : a < snapDown ⌊a⌋ s + s := by
    have hcast : (⌊a⌋ : ℝ) + 1 ≤ snapDown ⌊a⌋ s + s := by exact_mod_cast hnear
    linarith
  by_cases hmeet : snapUp ⌊b⌋ s ≤ snapDown ⌊a⌋ s
  · -- one tick on the spacing, with the whole band over it
    have hsame : ⌊a⌋ = ⌊b⌋ := by omega
    have htick : upperTick ⌊a⌋ ⌊b⌋ s = snapDown ⌊a⌋ s + s := if_pos hmeet
    have hcast : (snapDown ⌊a⌋ s : ℝ) = ⌊b⌋ := by
      exact_mod_cast (by omega : snapDown ⌊a⌋ s = ⌊b⌋)
    have hone : (1 : ℝ) ≤ s := by exact_mod_cast hs
    rw [htick]
    push_cast
    refine ⟨by omega, hdown, dvd_add hdown (dvd_refl s), hlower, hlower',
      by linarith, ?_⟩
    constructor
    · intro _
      exact Or.inr (Or.inr hsame)
    · intro _
      linarith
  · have htick : upperTick ⌊a⌋ ⌊b⌋ s = snapUp ⌊b⌋ s := if_neg hmeet
    have hover : (⌊b⌋ : ℝ) ≤ snapUp ⌊b⌋ s := by exact_mod_cast habove
    have hunder : (snapUp ⌊b⌋ s : ℝ) ≤ ⌊b⌋ + s := by exact_mod_cast hfar.le
    rw [htick]
    refine ⟨by omega, hdown, hup, hlower, hlower', by linarith, ?_⟩
    constructor
    · intro hreach
      by_contra hnot
      simp only [Reaches, not_or, not_not] at hnot
      obtain ⟨hcut, hdvd, -⟩ := hnot
      have heq := eq_of_dvd_of_close hdvd hup habove hfar
      rw [← heq] at hreach
      exact hcut (le_antisymm hb hreach)
    · intro h
      rcases h with hwhole | hoff | hsame
      · exact hwhole.ge.trans hover
      · have hne : snapUp ⌊b⌋ s ≠ ⌊b⌋ := by
          intro heq
          exact hoff (heq ▸ hup)
        have hstrict : ⌊b⌋ + 1 ≤ snapUp ⌊b⌋ s := by omega
        have hcast : (⌊b⌋ : ℝ) + 1 ≤ snapUp ⌊b⌋ s := by exact_mod_cast hstrict
        linarith
      · -- the two ends floor to one tick that is off the spacing
        have hstrict : ⌊b⌋ + 1 ≤ snapUp ⌊b⌋ s := by
          by_contra hle
          have heq : snapUp ⌊b⌋ s = ⌊b⌋ := by omega
          rw [heq] at hup
          have hon := eq_of_dvd_of_close hdown (hsame ▸ hup) hbelow hnear
          omega
        have hcast : (⌊b⌋ : ℝ) + 1 ≤ snapUp ⌊b⌋ s := by exact_mod_cast hstrict
        linarith

-- ============================================================= the range

theorem log_tickBase_pos : 0 < Real.log (tickBase : ℝ) := by
  apply Real.log_pos
  norm_num [tickBase]

/-- A price or a width in ticks, from its logarithm. -/
noncomputable def inTicks (l : ℝ) : ℝ := l / Real.log (tickBase : ℝ)

/-- Over the reals the tick of a price is the floor of its logarithm, in
ticks. -/
theorem priceToTick_real {price : ℝ} (hprice : 0 < price) (d : ℝ) :
    priceToTick realMath (price * realMath.exp d)
      = .ok ⌊inTicks (Real.log price) + inTicks d⌋ := by
  have hexp : 0 < price * realMath.exp d := mul_pos hprice (Real.exp_pos d)
  have hlog : Real.log (price * realMath.exp d) = Real.log price + d := by
    show Real.log (price * Real.exp d) = _
    rw [Real.log_mul hprice.ne' (Real.exp_pos d).ne', Real.log_exp]
  rw [priceToTick, mathLog_real hexp, ok_bind, hlog, inTicks, inTicks,
    ← add_div]
  rfl

/-- The range picked at a volatility. -/
noncomputable def rangeAt (m vol price : ℝ) (risk : String) (feeTier : Int)
    (horizonDays : ℝ) (spacing : Int) : RangeConfig ℝ :=
  let hw := m * vol * Real.sqrt (horizonDays / 365)
  let lo := ⌊inTicks (Real.log price) - inTicks hw⌋
  let hi := ⌊inTicks (Real.log price) + inTicks hw⌋
  { price := price
    halfWidthFrac := hw
    pa := tickToPrice (snapDown lo spacing)
    pb := tickToPrice (upperTick lo hi spacing)
    tickLower := snapDown lo spacing
    tickUpper := upperTick lo hi spacing
    spacing := spacing
    feeTier := feeTier
    risk := risk
    horizonDays := horizonDays
    volAnnual := vol }

/-- Over the reals `select_range` returns the band about the price, snapped
outwards. -/
theorem selectRange_real {closes : List ℝ} {price m vol : ℝ} {risk : String}
    {feeTier spacing sp : Int} {horizonDays : ℝ}
    (hrisk : riskWidth risk = some m)
    (hspacing : spacingOf feeTier spacing = some sp)
    (hvol : realizedVol realMath closes 720 = .ok vol) (hprice : 0 < price)
    (hhorizon : 0 ≤ horizonDays) :
    selectRange realMath closes price risk feeTier horizonDays spacing
      = .ok (rangeAt m vol price risk feeTier horizonDays sp) := by
  have hneg : ∀ d : ℝ, inTicks (-d) = -inTicks d := by
    intro d
    rw [inTicks, inTicks, neg_div]
  unfold spacingOf at hspacing
  unfold selectRange
  simp only [hrisk, hspacing, hvol, ok_bind]
  rw [mathSqrt_real (by positivity), ok_bind, priceToTick_real hprice,
    ok_bind, priceToTick_real hprice, ok_bind, hneg, ← sub_eq_add_neg]
  rfl

/-- Every risk has a positive width. -/
theorem riskWidth_pos {risk : String} {m : ℝ} (h : riskWidth risk = some m) :
    0 < m := by
  unfold riskWidth at h
  split at h
  · cases h
    norm_num
  · split at h
    · cases h
      norm_num
    · split at h
      · cases h
        norm_num
      · cases h

-- ========================================================== outward or not

/-- The range covers the band of half width `h` about `x`, in ticks, with
less than a spacing to spare below and at most one above. -/
structure Outward (rng : RangeConfig ℝ) (x h : ℝ) : Prop where
  ascends : rng.tickLower < rng.tickUpper
  lowerOn : rng.spacing ∣ rng.tickLower
  upperOn : rng.spacing ∣ rng.tickUpper
  lowerOut : (rng.tickLower : ℝ) ≤ x - h
  lowerNear : x - h < rng.tickLower + rng.spacing
  upperOut : x + h ≤ rng.tickUpper
  upperNear : (rng.tickUpper : ℝ) ≤ x + h + rng.spacing

theorem inTicks_nonneg {l : ℝ} (hl : 0 ≤ l) : 0 ≤ inTicks l :=
  div_nonneg hl log_tickBase_pos.le

/-- A tick's price has as many logarithms of a step. -/
theorem log_tickToPrice (t : Int) :
    Real.log (tickToPrice t) = t * Real.log (tickBase : ℝ) := by
  rw [tickToPrice, Real.log_zpow]

theorem tickToPrice_pos (t : Int) : (0 : ℝ) < tickToPrice t := by
  apply zpow_pos
  norm_num [tickBase]

/-- A price lies between two ticks where its logarithm does. -/
theorem contains_of_ticks {rng : RangeConfig ℝ} {price : ℝ}
    (hprice : 0 < price) (hpa : rng.pa = tickToPrice rng.tickLower)
    (hpb : rng.pb = tickToPrice rng.tickUpper)
    (hlower : (rng.tickLower : ℝ) ≤ inTicks (Real.log price))
    (hupper : inTicks (Real.log price) ≤ rng.tickUpper) :
    rng.contains price = true := by
  rw [inTicks, le_div_iff₀ log_tickBase_pos, ← log_tickToPrice] at hlower
  rw [inTicks, div_le_iff₀ log_tickBase_pos, ← log_tickToPrice] at hupper
  have hlo := (Real.log_le_log_iff (tickToPrice_pos _) hprice).1 hlower
  have hhi := (Real.log_le_log_iff hprice (tickToPrice_pos _)).1 hupper
  simp [RangeConfig.contains, hpa, hpb, hlo, hhi]

/-- The range contains the band exactly when it leaves room for it between
its ticks. -/
theorem rangeAt_outward_iff {m vol price : ℝ} (risk : String) (feeTier : Int)
    (horizonDays : ℝ) {spacing : Int} (hspacing : 1 ≤ spacing)
    (hwidth : 0 ≤ m * vol * Real.sqrt (horizonDays / 365)) :
    let rng := rangeAt m vol price risk feeTier horizonDays spacing
    let x := inTicks (Real.log price)
    let h := inTicks rng.halfWidthFrac
    Outward rng x h ↔ Reaches (x - h) (x + h) spacing := by
  intro rng x h
  have hh : 0 ≤ h := inTicks_nonneg hwidth
  obtain ⟨hascends, hdown, hup, hlower, hnear, hfar, hreach⟩ :=
    ticks_spec (by linarith : x - h ≤ x + h) (by omega : 0 < spacing)
  constructor
  · intro hout
    exact hreach.1 hout.upperOut
  · intro hr
    exact ⟨hascends, hdown, hup, hlower, hnear, hreach.2 hr, hfar⟩

/-- A range is picked of every window of positive closes, price, known
risk, spacing and horizon; it covers its band to the ticks exactly where
the floor of the band's upper end cuts nothing off, is off the spacing, or
is the floor of the lower end too; and then it contains the price. -/
theorem selectRange_outward_iff {closes : List ℝ} {price m : ℝ}
    {risk : String} {feeTier spacing sp : Int} {horizonDays : ℝ}
    (hrisk : riskWidth risk = some m)
    (hspacing : spacingOf feeTier spacing = some sp) (hsp : 1 ≤ sp)
    (hlen : 3 ≤ closes.length) (hpos : ∀ c ∈ closes, 0 < c)
    (hprice : 0 < price) (hhorizon : 0 ≤ horizonDays) :
    ∃ rng vol, selectRange realMath closes price risk feeTier horizonDays
        spacing = .ok rng
      ∧ realizedVol realMath closes 720 = .ok vol
      ∧ rng.halfWidthFrac = m * vol * Real.sqrt (horizonDays / 365)
      ∧ 0 ≤ rng.halfWidthFrac ∧ rng.spacing = sp
      ∧ (Outward rng (inTicks (Real.log price)) (inTicks rng.halfWidthFrac)
        ↔ Reaches (inTicks (Real.log price) - inTicks rng.halfWidthFrac)
          (inTicks (Real.log price) + inTicks rng.halfWidthFrac) sp)
      ∧ (Outward rng (inTicks (Real.log price)) (inTicks rng.halfWidthFrac) →
        rng.contains price = true) := by
  obtain ⟨vol, hvol, hnonneg, -⟩ := realizedVol_total hlen hpos
  have hm := riskWidth_pos hrisk
  have hwidth : 0 ≤ m * vol * Real.sqrt (horizonDays / 365) := by positivity
  have hpicked := selectRange_real hrisk hspacing hvol hprice hhorizon
  have hiff : Outward (rangeAt m vol price risk feeTier horizonDays sp)
        (inTicks (Real.log price))
        (inTicks (m * vol * Real.sqrt (horizonDays / 365)))
      ↔ Reaches (inTicks (Real.log price)
            - inTicks (m * vol * Real.sqrt (horizonDays / 365)))
          (inTicks (Real.log price)
            + inTicks (m * vol * Real.sqrt (horizonDays / 365))) sp :=
    rangeAt_outward_iff risk feeTier horizonDays hsp hwidth
  refine ⟨_, vol, hpicked, hvol, rfl, hwidth, rfl, hiff, ?_⟩
  intro hout
  have hh := inTicks_nonneg hwidth
  have hlower := hout.lowerOut
  have hupper := hout.upperOut
  simp only [rangeAt] at hlower hupper
  apply contains_of_ticks hprice rfl rfl
  · simp only [rangeAt]
    linarith
  · simp only [rangeAt]
    linarith

-- ========================================================== two ranges

/-- The volatility of a price that doubles and halves. -/
noncomputable def swingVol : ℝ :=
  Real.sqrt (sampleVar (logReturns [1, 2, 1])) * Real.sqrt 8760

/-- A price whose balanced band over a week ends half a tick over tick
zero. -/
noncomputable def cutPrice : ℝ :=
  Real.exp (Real.log (tickBase : ℝ) / 2
    - 5 / 4 * swingVol * Real.sqrt (7 / 365))

/-- The volatility of the example is a half at least. -/
theorem swingVol_ge : 1 / 2 ≤ swingVol := by
  have hreturns : logReturns [1, 2, 1] = [Real.log 2, -Real.log 2] := by
    simp [logReturns]
  have hvar : sampleVar (logReturns [1, 2, 1]) = 2 * Real.log 2 ^ 2 := by
    rw [hreturns]
    simp [sampleVar, mean]
    ring
  have hlog := Real.log_two_gt_d9
  have hroot : 1 / 2 ≤ Real.sqrt (sampleVar (logReturns [1, 2, 1])) := by
    apply Real.le_sqrt_of_sq_le
    rw [hvar]
    nlinarith
  have hyear : 1 ≤ Real.sqrt 8760 := Real.one_le_sqrt.2 (by norm_num)
  have hprod := mul_le_mul hroot hyear zero_le_one (Real.sqrt_nonneg _)
  rw [swingVol]
  linarith

/-- The upper end is floored before it is moved to the spacing: the half
tick is cut off, and tick zero is on every spacing. -/
theorem selectRange_cut :
    ∃ rng, selectRange realMath [1, 2, 1] cutPrice "balanced" 500 7 0
        = .ok rng
      ∧ rng.tickUpper = 0
      ∧ inTicks (Real.log cutPrice) + inTicks rng.halfWidthFrac = 1 / 2
      ∧ ¬ Outward rng (inTicks (Real.log cutPrice))
        (inTicks rng.halfWidthFrac) := by
  have hrisk : riskWidth "balanced" = some (5 / 4 : ℝ) := rfl
  have hspacing : spacingOf 500 0 = some 10 := rfl
  have hvol : realizedVol realMath [1, 2, 1] 720 = .ok swingVol :=
    realizedVol_real (by simp) (by norm_num)
  have hprice : 0 < cutPrice := Real.exp_pos _
  have hpicked := selectRange_real hrisk hspacing hvol hprice
    (by norm_num : (0 : ℝ) ≤ 7)
  set hw := 5 / 4 * swingVol * Real.sqrt (7 / 365) with hhw
  have hlog : 0 < Real.log (tickBase : ℝ) := log_tickBase_pos
  -- in ticks: the band ends at a half, and starts below zero
  have hend : inTicks (Real.log cutPrice) + inTicks hw = 1 / 2 := by
    rw [cutPrice, Real.log_exp, inTicks, inTicks, ← hhw]
    field_simp
    ring
  have hwide : 1 / 4 < inTicks hw := by
    have hvolGe := swingVol_ge
    have hroot : 1 / 10 ≤ Real.sqrt (7 / 365) :=
      Real.le_sqrt_of_sq_le (by norm_num)
    have hbase : Real.log (tickBase : ℝ) ≤ 1 / 10000 := by
      have hle := Real.log_le_sub_one_of_pos
        (by norm_num [tickBase] : (0 : ℝ) < tickBase)
      have hstep : (tickBase : ℝ) - 1 = 1 / 10000 := by norm_num [tickBase]
      linarith
    have hprod := mul_le_mul hvolGe hroot (by norm_num)
      (by linarith : 0 ≤ swingVol)
    rw [inTicks, lt_div_iff₀ hlog]
    linarith
  have hhi : ⌊inTicks (Real.log cutPrice) + inTicks hw⌋ = 0 := by
    rw [hend]
    norm_num
  have hlo : ⌊inTicks (Real.log cutPrice) - inTicks hw⌋ < 0 := by
    rw [Int.floor_lt]
    push_cast
    linarith
  have htick : (rangeAt (5 / 4) swingVol cutPrice "balanced" 500 7 10).tickUpper
      = 0 := by
    have hdown := (snapDown_spec
      ⌊inTicks (Real.log cutPrice) - inTicks hw⌋ (s := 10) (by norm_num)).2.1
    have hzero : snapUp 0 10 = 0 := by decide
    simp only [rangeAt, ← hhw, hhi, upperTick, hzero]
    rw [if_neg (by omega)]
  refine ⟨_, hpicked, htick, hend, ?_⟩
  intro hout
  have hcover := hout.upperOut
  rw [htick] at hcover
  simp only [rangeAt, ← hhw, hend] at hcover
  norm_num at hcover

/-- A price that does not move: its range is the narrowest about it, and
contains it. -/
theorem selectRange_outward_still :
    ∃ rng, selectRange realMath [1, 1, 1] 1 "balanced" 500 7 0 = .ok rng
      ∧ Outward rng 0 0 ∧ rng.contains 1 = true := by
  have hrisk : riskWidth "balanced" = some (5 / 4 : ℝ) := rfl
  have hspacing : spacingOf 500 0 = some 10 := rfl
  obtain ⟨rng, vol, hpicked, hvol, hwidth, -, -, hiff, hcontains⟩ :=
    selectRange_outward_iff hrisk hspacing (by norm_num)
      (by simp : 3 ≤ ([1, 1, 1] : List ℝ).length) (by norm_num) one_pos
      (by norm_num : (0 : ℝ) ≤ 7)
  obtain ⟨vol', hvol', -, hzero⟩ := realizedVol_total
    (by simp : 3 ≤ ([1, 1, 1] : List ℝ).length) (by norm_num)
  rw [hvol] at hvol'
  cases hvol'
  have hsteady : Steady [1, 1, 1] := by
    intro a ha b hb
    simp [lastN, logReturns] at ha hb
    rw [ha, hb]
  have hhw : rng.halfWidthFrac = 0 := by
    rw [hwidth, hzero.2 hsteady]
    simp
  have hx : inTicks (Real.log 1) = 0 := by simp [inTicks]
  have hh : inTicks (0 : ℝ) = 0 := by simp [inTicks]
  rw [hhw, hx, hh] at hiff hcontains
  have hout : Outward rng 0 0 := by
    apply hiff.2
    simp [Reaches]
  exact ⟨rng, hpicked, hout, hcontains hout⟩

end Proofstand.PcsRebalancer
