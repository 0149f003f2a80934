/-
The calibrations in real arithmetic: which of them raise, and where a
window has no volatility.

`realMath` is the math module over the reals. A window of three or more
positive closes has a volatility, and it is zero exactly where every hour
multiplied the price by one factor (`realizedVol_total`). The loss of a
range has a value exactly where the range has a width (`ilEstimate_total`,
`ilEstimate_raises`).

# Where the reals come in

The definitions of `Calibrate.lean` take their transcendental functions
from a `Libm` over any ordered field. Which logarithm or root it is
matters for two kinds of facts only, that a call returns and that a number
is zero or is not, and these are stated over the reals.

A variance is zero where all the numbers are one
(`sampleVar_eq_zero_iff`), and the log returns are one number where every
close is the last one times one factor (`Steady`). With no volatility a
range has no width, its two ends meet, and the amounts of a position over
it divide by zero, which is the exception of `il_estimate`.
-/
import Proofstand.Data.Calibrate
import Proofstand.Lib.Fallible

namespace Proofstand

/-- The math module over the reals. -/
noncomputable def realMath : Libm ℝ where
  exp := Real.exp
  log := Real.log
  sqrt := Real.sqrt
  pi := Real.pi

namespace Calibrate

open Fallible

/-- Over the reals `math.sqrt` is the root, -/
theorem mathSqrt_real {x : ℝ} (hx : 0 ≤ x) :
    realMath.mathSqrt x = .ok (Real.sqrt x) := if_neg (not_lt.2 hx)

/-- `math.log` the logarithm, -/
theorem mathLog_real {x : ℝ} (hx : 0 < x) :
    realMath.mathLog x = .ok (Real.log x) := if_neg (not_le.2 hx)

/-- and so is `np.log`. -/
theorem npLog_real {x : ℝ} (hx : 0 < x) :
    realMath.npLog x = .ok (Real.log x) := if_neg (not_le.2 hx)

-- =========================================================== volatility

theorem sampleVar_nonneg {xs : List ℝ} (hxs : 2 ≤ xs.length) :
    0 ≤ sampleVar xs := by
  have hlen : (2 : ℝ) ≤ xs.length := by exact_mod_cast hxs
  apply div_nonneg _ (by linarith)
  apply List.sum_nonneg
  intro d hd
  obtain ⟨x, -, rfl⟩ := List.mem_map.1 hd
  exact sq_nonneg _

/-- Two or more numbers do not vary when they are one number. -/
theorem sampleVar_eq_zero_iff {xs : List ℝ} (hxs : 2 ≤ xs.length) :
    sampleVar xs = 0 ↔ ∀ a ∈ xs, ∀ b ∈ xs, a = b := by
  have hlen : (2 : ℝ) ≤ xs.length := by exact_mod_cast hxs
  have hne : (xs.length : ℝ) - 1 ≠ 0 := by linarith
  constructor
  · intro hzero
    have hsum : (xs.map fun x => (x - mean xs) ^ 2).sum = 0 := by
      rcases div_eq_zero_iff.1 hzero with hsum | hcount
      · exact hsum
      · exact absurd hcount hne
    have hmean : ∀ a ∈ xs, a = mean xs := by
      intro a ha
      have hsq := List.all_zero_of_le_zero_le_of_sum_eq_zero
        (by
          intro d hd
          obtain ⟨x, -, rfl⟩ := List.mem_map.1 hd
          exact sq_nonneg _) hsum
        (List.mem_map_of_mem ha)
      exact sub_eq_zero.1 (pow_eq_zero_iff two_ne_zero |>.1 hsq)
    intro a ha b hb
    rw [hmean a ha, hmean b hb]
  · intro hsame
    obtain ⟨c, rest, rfl⟩ : ∃ c rest, xs = c :: rest := by
      cases xs with
      | nil => simp at hxs
      | cons c rest => exact ⟨c, rest, rfl⟩
    have hall : (c :: rest) = List.replicate (rest.length + 1) c := by
      apply List.eq_replicate_of_mem
      intro a ha
      exact hsame a ha c List.mem_cons_self
    have hmean : mean (c :: rest) = c := by
      have hpos : (rest.length : ℝ) + 1 ≠ 0 := by positivity
      rw [mean, hall, List.sum_replicate, List.length_replicate,
        nsmul_eq_mul]
      push_cast
      field_simp
    have hdev : ((c :: rest).map fun x => (x - mean (c :: rest)) ^ 2)
        = List.replicate (rest.length + 1) 0 := by
      rw [hmean]
      nth_rewrite 1 [hall]
      simp
    rw [sampleVar, hdev]
    simp

/-- The hourly log returns of closes. -/
noncomputable def logReturns (closes : List ℝ) : List ℝ :=
  List.zipWith (fun a b => b - a) (closes.map Real.log)
    (closes.map Real.log).tail

/-- Every hour of the last thirty days multiplied the price by one
factor; a price that does not move is one such case. -/
def Steady (closes : List ℝ) : Prop :=
  ∀ a ∈ logReturns (lastN 721 closes), ∀ b ∈ logReturns (lastN 721 closes),
    a = b

theorem length_logReturns (closes : List ℝ) :
    (logReturns closes).length = closes.length - 1 := by
  simp [logReturns]

theorem mapM_npLog {xs : List ℝ} (hpos : ∀ x ∈ xs, 0 < x) :
    xs.mapM realMath.npLog = .ok (xs.map Real.log) := by
  induction xs with
  | nil => rfl
  | cons x xs ih =>
      rw [List.map_cons]
      exact mapM_cons_eq_ok.2 ⟨_, _, npLog_real (hpos x List.mem_cons_self),
        ih fun y hy => hpos y (List.mem_cons_of_mem x hy), rfl⟩

/-- Over the reals the volatility is the root of the returns' variance, a
year's worth. -/
theorem realizedVol_real {closes : List ℝ} (hlen : 3 ≤ closes.length)
    (hpos : ∀ c ∈ closes, 0 < c) :
    realizedVol realMath closes 720
      = .ok (Real.sqrt (sampleVar (logReturns (lastN 721 closes)))
          * Real.sqrt 8760) := by
  have hlast : 3 ≤ (lastN 721 closes).length := by
    rw [lastN, List.length_drop]
    omega
  have hlogs := mapM_npLog fun c hc =>
    hpos c (List.mem_of_mem_drop (i := closes.length - 721) hc)
  unfold realizedVol
  simp only [OfNat.ofNat_ne_zero, if_false, Nat.reduceAdd]
  rw [if_neg (by omega), lastN, hlogs]
  rfl

theorem length_of_realizedVol {K : Type} [Field K] [LinearOrder K]
    {lib : Libm K} {closes : List K} {vol : K}
    (h : realizedVol lib closes 720 = .ok vol) : 3 ≤ closes.length := by
  by_contra hfew
  have hshort : (lastN 721 closes).length < 3 := by
    rw [lastN, List.length_drop]
    omega
  unfold realizedVol at h
  simp only [OfNat.ofNat_ne_zero, if_false, Nat.reduceAdd, hshort, if_true]
    at h
  cases h

/-- A window of three or more positive closes has a volatility; it is zero
where the window is steady. -/
theorem realizedVol_total {closes : List ℝ} (hlen : 3 ≤ closes.length)
    (hpos : ∀ c ∈ closes, 0 < c) :
    ∃ vol, realizedVol realMath closes 720 = .ok vol ∧ 0 ≤ vol
      ∧ (vol = 0 ↔ Steady closes) := by
  have hreturns : 2 ≤ (logReturns (lastN 721 closes)).length := by
    rw [length_logReturns, lastN, List.length_drop]
    omega
  refine ⟨_, realizedVol_real hlen hpos, by positivity, ?_⟩
  have hyear : Real.sqrt 8760 ≠ 0 := by positivity
  rw [mul_eq_zero, or_iff_left hyear,
    Real.sqrt_eq_zero (sampleVar_nonneg hreturns),
    sampleVar_eq_zero_iff hreturns, Steady]

-- ===================================================== impermanent loss

theorem v3Amounts_total {p pa pb : ℝ} (L : ℝ) (hp : 0 < p) (ha : 0 < pa)
    (hb : 0 < pb) : ∃ q, v3Amounts realMath L p pa pb = .ok q := by
  have hsp := Real.sqrt_pos.2 hp
  have hspa := Real.sqrt_pos.2 ha
  have hspb := Real.sqrt_pos.2 hb
  unfold v3Amounts
  rw [mathSqrt_real hp.le, mathSqrt_real ha.le, mathSqrt_real hb.le]
  simp only [ok_bind]
  split
  · rw [pyDiv, if_neg (mul_pos hspa hspb).ne']
    exact ⟨_, rfl⟩
  · split
    · exact ⟨_, rfl⟩
    · rw [pyDiv, if_neg (mul_pos hsp hspb).ne']
      exact ⟨_, rfl⟩

/-- What a unit of liquidity is worth in the middle of its range. -/
theorem v3Amounts_entry {w : ℝ} (hw : 0 < w) (hw1 : w < 1) :
    ∃ x y, v3Amounts realMath 1 1 (1 - w) (1 + w) = .ok (x, y)
      ∧ 0 < x * 1 + y := by
  have hbelow : Real.sqrt (1 - w) < 1 := by
    rw [Real.sqrt_lt' one_pos]
    linarith
  have habove : 1 < Real.sqrt (1 + w) := by
    rw [Real.lt_sqrt zero_le_one]
    linarith
  have hprod : (0 : ℝ) < 1 * Real.sqrt (1 + w) := by linarith
  unfold v3Amounts
  rw [mathSqrt_real zero_le_one, mathSqrt_real (by linarith),
    mathSqrt_real (by linarith)]
  simp only [ok_bind, Real.sqrt_one]
  rw [if_neg (by linarith), if_neg (by linarith), pyDiv, if_neg hprod.ne']
  refine ⟨_, _, rfl, ?_⟩
  have hx : 0 < 1 * (Real.sqrt (1 + w) - 1) / (1 * Real.sqrt (1 + w)) :=
    div_pos (by linarith) hprod
  linarith

/-- A range with a width has an expected loss over any horizon; none
where prices do not vary. -/
theorem ilEstimate_total (vol : ℝ) {horizonDays width : ℝ}
    (hhorizon : 0 ≤ horizonDays) (hwidth : 0 < width) :
    ∃ il, ilEstimate realMath vol horizonDays width = .ok il
      ∧ (vol = 0 → il = 0) := by
  have hw : 0 < min width (999999 / 1000000) :=
    lt_min hwidth (by norm_num)
  have hw1 : min width (999999 / 1000000) < 1 :=
    (min_le_right _ _).trans_lt (by norm_num)
  obtain ⟨x, y, hentry, hvalue⟩ := v3Amounts_entry hw hw1
  unfold ilEstimate
  rw [if_neg (not_not.2 hwidth)]
  simp only [hentry, ok_bind]
  rw [pyDiv, if_neg hvalue.ne', ok_bind, mathSqrt_real (by positivity),
    ok_bind]
  by_cases hs : vol * Real.sqrt (horizonDays / 365) ≤ 0
  · rw [if_pos hs]
    exact ⟨0, rfl, fun _ => rfl⟩
  · rw [if_neg hs]
    have hvol : vol ≠ 0 := by
      intro heq
      subst heq
      simp at hs
    have hreturns : ∀ {m : Py ℝ}, (∃ il, m = .ok il) →
        ∃ il, m = .ok il ∧ (vol = 0 → il = 0) := by
      intro m hm
      obtain ⟨il, hil⟩ := hm
      exact ⟨il, hil, fun hzero => absurd hzero hvol⟩
    apply hreturns
    apply bind_total
    · -- at every price of the density the position has a value
      apply mapM_total
      intro z _
      apply bind_total
      · exact v3Amounts_total _ (Real.exp_pos z) (by linarith) (by linarith)
      · intro q _
        exact ⟨_, rfl⟩
    · intro ils _
      exact ⟨_, rfl⟩

/-- Without a width `il_estimate` raises. -/
theorem ilEstimate_raises (vol horizonDays : ℝ) {width : ℝ}
    (hwidth : ¬ 0 < width) : ∀ il,
    ilEstimate realMath vol horizonDays width ≠ .ok il := by
  intro il h
  rw [ilEstimate, if_pos hwidth] at h
  cases h

end Calibrate

end Proofstand
