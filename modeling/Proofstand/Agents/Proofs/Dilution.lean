/-
The dilution of a fee yield over a horizon.

The projected TVL is summed over the whole days of the horizon and
divided by the horizon itself, so between two whole numbers of days the
sum stands still while its divisor grows, and the dilution goes down. The
drag is always in the unit interval of the fee (`dilution_mem`); that it
grows with the horizon is a relation between the two horizons and the
daily growth (`dilution_le_iff`), which whole horizons always have
(`dilution_mono_whole`).

# A sum over whole days

With a daily growth `d` the TVL of the first `m` days relative to now is a
geometric sum (`growth_mul`), and the mean over more days is no less
(`growth_mean_mono`), because a day later is worth the mean of the days
before it or more. The horizon enters twice: its whole days say how far
the sum goes, and the horizon itself divides it. For whole horizons that
is a mean, and means grow. Between them the sum stands still.

# The exact condition

`SpreadLe` compares the two quotients as the code takes them. The source
replaces a mean below one by one, which is why either quotient may also be
at most one. That gives an equivalence, `dilution_le_iff`, and the case of
thirty days against half a day more falls on its wrong side.
-/
import Proofstand.Agents.PcsYield.Economics
import Proofstand.Data.Proofs.Volatility

namespace Proofstand.PcsYield

open Calibrate

variable {K : Type} [Field K]

-- ==================================================== the growth of days

/-- The TVL of the first `m` days, relative to now. -/
def growth (d : K) (m : Nat) : K := ∑ t ∈ Finset.range m, d ^ t

theorem growth_mul (d : K) (m : Nat) :
    growth d m * (d - 1) = d ^ m - 1 := geom_sum_mul d m

variable [LinearOrder K] [IsStrictOrderedRing K]

/-- A day later is worth the mean of the days before it, or more. -/
theorem growth_le_mul_pow {d : K} (hd : 1 ≤ d) (m : Nat) :
    growth d m ≤ m * d ^ m := by
  have hle : ∀ t ∈ Finset.range m, d ^ t ≤ d ^ m := by
    intro t ht
    exact pow_le_pow_right₀ hd (Finset.mem_range.1 ht).le
  have hsum := Finset.sum_le_card_nsmul _ _ _ hle
  rw [Finset.card_range, nsmul_eq_mul] at hsum
  exact hsum

/-- The mean over more days is no less. -/
theorem growth_mean_mono {d : K} (hd : 1 ≤ d) {m n : Nat} (h : m ≤ n) :
    growth d m * n ≤ growth d n * m := by
  induction n, h using Nat.le_induction with
  | base => exact le_refl _
  | succ n hmn ih =>
      rcases Nat.eq_zero_or_pos n with rfl | hn
      · rw [Nat.le_zero.1 hmn]
        simp [growth]
      · have hn' : (0 : K) < n := by exact_mod_cast hn
        have hm' : (0 : K) ≤ m := Nat.cast_nonneg m
        have hlast : growth d n ≤ n * d ^ n := growth_le_mul_pow hd n
        have hstep : growth d (n + 1) = growth d n + d ^ n :=
          Finset.sum_range_succ _ n
        rw [hstep]
        push_cast
        -- both sides times `n`
        have hcross : growth d m * (n + 1) * n
            ≤ (growth d n + d ^ n) * m * n := by
          calc growth d m * (n + 1) * n = growth d m * n * (n + 1) := by ring
            _ ≤ growth d n * m * (n + 1) := by
              exact mul_le_mul_of_nonneg_right ih (by linarith)
            _ = growth d n * m * n + m * growth d n := by ring
            _ ≤ growth d n * m * n + m * (n * d ^ n) := by
              have hmul := mul_le_mul_of_nonneg_left hlast hm'
              linarith
            _ = (growth d n + d ^ n) * m * n := by ring
        exact le_of_mul_le_mul_right hcross hn'

-- ========================================================== the dilution

variable [FloorRing K]

/-- A fee yield on a TVL that grows, by a factor of `d` a day. -/
structure Growing (lib : Libm K) (feeAprPct tvlNow ago d : K) : Prop where
  fee_pos : 0 < feeAprPct
  ago_pos : 0 < ago
  grows : ago < tvlNow
  daily : lib.pow (tvlNow / ago) (1 / 14) = d
  one_lt : 1 < d

/-- `tvl_avg_rel`, over `n` days. -/
def avgRel (d n : K) : K := max (growth d ⌊n⌋₊ / n) 1

/-- The drag is the share of the TVL that was not there. -/
theorem dilution_eq {lib : Libm K} {fee now ago d : K}
    (h : Growing lib fee now ago d) (horizon : K) :
    dilutionAdjustment lib fee now (some ago) horizon
      = fee * (1 - 1 / avgRel d (max horizon 1)) := by
  have hfee := h.fee_pos
  have hago := h.ago_pos
  have hnow : 0 < now := hago.trans h.grows
  have hone : (1 : K) ≤ max horizon 1 := le_max_right _ _
  have havg : 1 ≤ avgRel d (max horizon 1) := le_max_right _ _
  have hshare : 1 / avgRel d (max horizon 1) ≤ 1 :=
    (div_le_one (by linarith)).2 havg
  have hshare' : 0 ≤ 1 / avgRel d (max horizon 1) :=
    div_nonneg zero_le_one (by linarith)
  have hstays : ¬ (ago ≤ 0 ∨ now ≤ 0 ∨ fee ≤ 0) := by
    intro h
    rcases h with hle | hle | hle
    · exact absurd hle hago.not_ge
    · exact absurd hle hnow.not_ge
    · exact absurd hle hfee.not_ge
  have hup : ¬ now / ago ≤ 1 := by
    rw [div_le_one hago, not_le]
    exact h.grows
  have hsum : ((List.range (PyVal.truncate (max horizon 1)).toNat).map
      fun t => d ^ t).sum = growth d ⌊max horizon 1⌋₊ := by
    rw [PyVal.truncate, if_pos (by linarith), Int.floor_toNat]
    rfl
  unfold dilutionAdjustment
  simp only [if_neg hstays, if_neg hup, if_pos hone, h.daily, hsum]
  change max 0 (min (fee * (1 - 1 / avgRel d (max horizon 1))) fee) = _
  have hle : fee * (1 - 1 / avgRel d (max horizon 1)) ≤ fee :=
    mul_le_of_le_one_right hfee.le (by linarith)
  rw [min_eq_left hle, max_eq_right (mul_nonneg hfee.le (by linarith))]

/-- It is in the unit interval of the fee, and short of it. -/
theorem dilution_mem {lib : Libm K} {fee now ago d : K}
    (h : Growing lib fee now ago d) (horizon : K) :
    0 ≤ dilutionAdjustment lib fee now (some ago) horizon
      ∧ dilutionAdjustment lib fee now (some ago) horizon < fee := by
  rw [dilution_eq h]
  have hfee := h.fee_pos
  have havg : 1 ≤ avgRel d (max horizon 1) := le_max_right _ _
  have hshare : 1 / avgRel d (max horizon 1) ≤ 1 :=
    (div_le_one (by linarith)).2 havg
  have hshare' : 0 < 1 / avgRel d (max horizon 1) :=
    div_pos one_pos (by linarith)
  constructor
  · exact mul_nonneg hfee.le (by linarith)
  · exact mul_lt_of_lt_one_right hfee (by linarith)

/-- A TVL that does not grow dilutes nothing. -/
theorem dilution_flat (lib : Libm K) {fee now ago : K} (h : now ≤ ago)
    (horizon : K) :
    dilutionAdjustment lib fee now (some ago) horizon = 0 := by
  unfold dilutionAdjustment
  by_cases hstops : ago ≤ 0 ∨ now ≤ 0 ∨ fee ≤ 0
  · simp only [if_pos hstops]
  · have hago : 0 < ago := by
      rw [not_or, not_le] at hstops
      exact hstops.1
    have hflat : now / ago ≤ 1 := (div_le_one hago).2 h
    simp only [if_neg hstops, if_pos hflat]

-- ==================================================== over two horizons

/-- The growth to the whole days of `a`, spread over `a`, is no more than
that of `b` over `b`, or no more than one. -/
def SpreadLe (d a b : K) : Prop :=
  (d ^ ⌊a⌋₊ - 1) * b ≤ (d ^ ⌊b⌋₊ - 1) * a ∨ d ^ ⌊a⌋₊ - 1 ≤ (d - 1) * a

/-- Of two horizons, the later has the larger mean exactly when its spread is
no less. -/
theorem avgRel_le_iff {d a b : K} (hd : 1 < d) (ha : 0 < a) (hb : 0 < b) :
    avgRel d a ≤ avgRel d b ↔ SpreadLe d a b := by
  have hd' : 0 < d - 1 := sub_pos.2 hd
  have hmean : growth d ⌊a⌋₊ / a ≤ growth d ⌊b⌋₊ / b
      ↔ (d ^ ⌊a⌋₊ - 1) * b ≤ (d ^ ⌊b⌋₊ - 1) * a := by
    rw [div_le_div_iff₀ ha hb, ← growth_mul, ← growth_mul,
      mul_right_comm, mul_right_comm (growth d ⌊b⌋₊),
      mul_le_mul_iff_left₀ hd']
  have hone : growth d ⌊a⌋₊ / a ≤ 1 ↔ d ^ ⌊a⌋₊ - 1 ≤ (d - 1) * a := by
    rw [div_le_one ha, ← growth_mul, mul_comm (d - 1),
      mul_le_mul_iff_left₀ hd']
  unfold avgRel SpreadLe
  rw [max_le_iff, le_max_iff, hmean, hone]
  exact ⟨And.left, fun h => ⟨h, le_max_right _ _⟩⟩

/-- The dilution grows from one horizon to a longer one exactly when the
spread does. -/
theorem dilution_le_iff {lib : Libm K} {fee now ago d a b : K}
    (h : Growing lib fee now ago d) (ha : 1 ≤ a) (hab : a ≤ b) :
    dilutionAdjustment lib fee now (some ago) a
        ≤ dilutionAdjustment lib fee now (some ago) b
      ↔ SpreadLe d a b := by
  have hb : 1 ≤ b := ha.trans hab
  have hposa : 0 < avgRel d a := zero_lt_one.trans_le (le_max_right _ _)
  have hposb : 0 < avgRel d b := zero_lt_one.trans_le (le_max_right _ _)
  rw [dilution_eq h, dilution_eq h, max_eq_left ha, max_eq_left hb,
    mul_le_mul_iff_right₀ h.fee_pos, sub_le_sub_iff_left,
    one_div_le_one_div hposb hposa]
  exact avgRel_le_iff h.one_lt (by linarith) (by linarith)

/-- Up to a whole number of days it does. -/
theorem dilution_mono_whole {lib : Libm K} {fee now ago d a : K} {n : Nat}
    (h : Growing lib fee now ago d) (ha : 1 ≤ a) (han : a ≤ n) :
    dilutionAdjustment lib fee now (some ago) a
      ≤ dilutionAdjustment lib fee now (some ago) n := by
  rw [dilution_le_iff h ha han]
  left
  have hd' : 0 ≤ d - 1 := (sub_pos.2 h.one_lt).le
  have hfloor : ⌊a⌋₊ ≤ n := Nat.floor_le_of_le han
  have hmean := growth_mean_mono h.one_lt.le hfloor
  have hle : (⌊a⌋₊ : K) ≤ a := Nat.floor_le (by linarith)
  have hpos : 0 ≤ growth d n :=
    Finset.sum_nonneg fun t _ => pow_nonneg (by linarith [h.one_lt]) t
  rw [Nat.floor_natCast, ← growth_mul, ← growth_mul]
  calc growth d ⌊a⌋₊ * (d - 1) * n = growth d ⌊a⌋₊ * n * (d - 1) := by ring
    _ ≤ growth d n * ⌊a⌋₊ * (d - 1) :=
        mul_le_mul_of_nonneg_right hmean hd'
    _ ≤ growth d n * a * (d - 1) :=
        mul_le_mul_of_nonneg_right (mul_le_mul_of_nonneg_left hle hpos) hd'
    _ = growth d n * (d - 1) * a := by ring

/-- What is asked of the dilution over two horizons. -/
structure Dilutes (lib : Libm K) (fee now ago a b : K) : Prop where
  mono : dilutionAdjustment lib fee now (some ago) a
    ≤ dilutionAdjustment lib fee now (some ago) b
  nonneg : ∀ horizon, 0 ≤ dilutionAdjustment lib fee now (some ago) horizon
  lt_fee : ∀ horizon, dilutionAdjustment lib fee now (some ago) horizon < fee
  flat : ∀ now' horizon, now' ≤ ago →
    dilutionAdjustment lib fee now' (some ago) horizon = 0

/-- So the drag grows from one horizon to a later one exactly then. -/
theorem dilutes_iff {lib : Libm K} {fee now ago d a b : K}
    (h : Growing lib fee now ago d) (ha : 1 ≤ a) (hab : a ≤ b) :
    Dilutes lib fee now ago a b ↔ SpreadLe d a b := by
  rw [← dilution_le_iff h ha hab]
  refine ⟨Dilutes.mono, fun hmono => ?_⟩
  exact
    { mono := hmono
      nonneg := fun horizon => (dilution_mem h horizon).1
      lt_fee := fun horizon => (dilution_mem h horizon).2
      flat := fun now' horizon hflat => dilution_flat lib hflat horizon }

-- ========================================================== one TVL

/-- A fee of 10% on a TVL that doubles in a fortnight, nearly: by a
twentieth a day. -/
theorem growing_twentieth :
    Growing realMath 10 ((21 / 20) ^ 14) 1 (21 / 20) where
  fee_pos := by norm_num
  ago_pos := one_pos
  grows := by norm_num
  daily := by
    have hpos : (0 : ℝ) < 21 / 20 := by norm_num
    have hlog : (1 / 14 : ℝ) * Real.log ((21 / 20) ^ 14)
        = Real.log (21 / 20) := by
      rw [Real.log_pow]
      push_cast
      ring
    rw [div_one]
    change Real.exp (1 / 14 * Real.log ((21 / 20) ^ 14)) = 21 / 20
    rw [hlog, Real.exp_log hpos]
  one_lt := by norm_num

theorem floor_thirty_half : ⌊(61 / 2 : ℝ)⌋₊ = 30 := by
  rw [Nat.floor_eq_iff (by norm_num)]
  norm_num

theorem dilutes_month :
    Dilutes realMath 10 ((21 / 20) ^ 14) 1 (61 / 2) 31 := by
  refine (dilutes_iff growing_twentieth (by norm_num) (by norm_num)).2 ?_
  have hwhole : ⌊(31 : ℝ)⌋₊ = 31 := Nat.floor_natCast 31
  left
  rw [floor_thirty_half, hwhole]
  norm_num

/-- Half a day more, and the dilution is less. -/
theorem dilution_falls :
    Growing realMath 10 ((21 / 20) ^ 14) 1 (21 / 20)
      ∧ dilutionAdjustment realMath 10 ((21 / 20) ^ 14) (some 1) (61 / 2)
        < dilutionAdjustment realMath 10 ((21 / 20) ^ 14) (some 1) 30 := by
  refine ⟨growing_twentieth, ?_⟩
  rw [← not_le, dilution_le_iff growing_twentieth (by norm_num)
    (by norm_num)]
  have hwhole : ⌊(30 : ℝ)⌋₊ = 30 := Nat.floor_natCast 30
  unfold SpreadLe
  rw [floor_thirty_half, hwhole]
  norm_num

end Proofstand.PcsYield
