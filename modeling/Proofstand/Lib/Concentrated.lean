/-
Concentrated liquidity, in square roots of the price.

A unit of liquidity over a span holds what the square root of the price,
clamped to the span, says it holds: both tokens inside, one of them
outside. The amounts of any entry are worth at least what the position
itself is worth (`worth_self_le`): the difference is one product
(`worth_sub_worth`), and it is zero exactly where both clamp alike
(`worth_self_eq_iff`). The position is always worth something
(`worth_pos`), inside its span it is worth less than the full range by a
square (`inside_gap`), and no amount jumps (`continuous_base`,
`continuous_quote`).

# Square roots

In the square roots of the two end prices and of the price, the amounts
are differences of reciprocals and of clamps (`base`, `quote`), and no
root has to be taken here. A caller that has prices takes their roots once.

# The loss

`worth_sub_worth` writes what the entry's amounts are worth more than the
position as a product over a positive denominator. Its two factors change
their sign together, where the two clamps meet (`clamp_gap_pos`); so it is
never negative, and zero only where the clamps agree, which strictly inside
the span is where the price is the entry's (`clamp_eq_iff`). Nothing is
asked of where the price ends: outside the span the clamp stands still and
the same formula holds.

# Continuity

An amount is a fixed expression in the clamp, and the clamp is continuous
and positive, so the three cases of a price join without a jump.
-/
import Proofstand.Lib.Numerals
import Mathlib.Tactic
import Mathlib.Topology.Order.Lattice
import Mathlib.Topology.Instances.Real.Lemmas

namespace Proofstand.Concentrated

/-- The square roots of the two prices a range ends at. -/
structure Span (K : Type) [Field K] [LinearOrder K] where
  low : K
  high : K
  low_pos : 0 < low
  low_lt_high : low < high

namespace Span

variable {K : Type} [Field K] [LinearOrder K] (r : Span K) (e s : K)

/-- The price's root, kept within the span. -/
def clamp : K := max r.low (min r.high s)

/-- The base token a unit holds. -/
def base : K := 1 / r.clamp s - 1 / r.high

/-- The quote token a unit holds. -/
def quote : K := r.clamp s - r.low

/-- What the amounts held at `e` are worth at `s`. -/
def worth : K := r.base e * s ^ 2 + r.quote e

-- =============================================================== clamp

/-- It does not fall below the span, -/
theorem low_le_clamp : r.low ≤ r.clamp s := le_max_left _ _

/-- nor rise above it. -/
theorem clamp_le_high : r.clamp s ≤ r.high :=
  max_le r.low_lt_high.le (min_le_left _ _)

/-- It is positive, whatever the price. -/
theorem clamp_pos : 0 < r.clamp s := r.low_pos.trans_le (r.low_le_clamp s)

theorem high_pos : 0 < r.high := r.low_pos.trans r.low_lt_high

variable {r e s}

/-- Below the span it is the lower end, -/
theorem clamp_of_le_low (h : s ≤ r.low) : r.clamp s = r.low := by
  rw [clamp, min_eq_right (h.trans r.low_lt_high.le), max_eq_left h]

/-- above it the upper end, -/
theorem clamp_of_high_le (h : r.high ≤ s) : r.clamp s = r.high := by
  rw [clamp, min_eq_left h, max_eq_right r.low_lt_high.le]

/-- and within it the root itself. -/
theorem clamp_of_mem (hlow : r.low ≤ s) (hhigh : s ≤ r.high) :
    r.clamp s = s := by
  rw [clamp, min_eq_right hhigh, max_eq_right hlow]

/-- A clamp above the lower end has not been lifted. -/
theorem clamp_le_self (h : r.low < r.clamp s) : r.clamp s ≤ s := by
  by_contra hlifted
  rcases le_or_gt s r.low with hs | hs
  · rw [clamp_of_le_low hs] at h
    exact lt_irrefl _ h
  · apply hlifted
    rw [clamp, max_eq_right (le_min r.low_lt_high.le hs.le)]
    exact min_le_right _ _

/-- A clamp below the upper end has not been lowered. -/
theorem self_le_clamp (h : r.clamp s < r.high) : s ≤ r.clamp s := by
  rcases le_or_gt r.high s with hs | hs
  · rw [clamp_of_high_le hs] at h
    exact absurd h (lt_irrefl _)
  · rw [clamp, min_eq_right hs.le]
    exact le_max_right _ _

/-- Only a point strictly inside clamps to itself and nothing else does. -/
theorem clamp_eq_iff (hlow : r.low < e) (hhigh : e < r.high) :
    r.clamp s = r.clamp e ↔ s = e := by
  rw [clamp_of_mem hlow.le hhigh.le]
  constructor
  · intro h
    have hle : s ≤ r.clamp s := self_le_clamp (h ▸ hhigh)
    have hge : r.clamp s ≤ s := clamp_le_self (h ▸ hlow)
    exact (le_antisymm hle hge).trans h
  · intro h
    rw [h, clamp_of_mem hlow.le hhigh.le]

-- ============================================================= amounts

theorem base_of_le_low (h : s ≤ r.low) :
    r.base s = (r.high - r.low) / (r.low * r.high) := by
  have hlow := r.low_pos.ne'
  have hhigh := r.high_pos.ne'
  rw [base, clamp_of_le_low h]
  field_simp

/-- Within the span the base held falls with the root. -/
theorem base_of_mem (hlow : r.low ≤ s) (hhigh : s ≤ r.high) :
    r.base s = (r.high - s) / (s * r.high) := by
  have hs := (r.low_pos.trans_le hlow).ne'
  have hupper := r.high_pos.ne'
  rw [base, clamp_of_mem hlow hhigh]
  field_simp

theorem base_of_high_le (h : r.high ≤ s) : r.base s = 0 := by
  rw [base, clamp_of_high_le h, sub_self]

theorem quote_of_le_low (h : s ≤ r.low) : r.quote s = 0 := by
  rw [quote, clamp_of_le_low h, sub_self]

section

variable [IsStrictOrderedRing K]

theorem base_nonneg : 0 ≤ r.base s :=
  sub_nonneg.2 (one_div_le_one_div_of_le (r.clamp_pos s)
    (r.clamp_le_high s))

theorem quote_nonneg : 0 ≤ r.quote s := sub_nonneg.2 (r.low_le_clamp s)

/-- The amounts of any entry are worth something at every price. -/
theorem worth_pos (hs : 0 < s) : 0 < r.worth e s := by
  rcases (r.clamp_le_high e).lt_or_eq with h | h
  · have hbase : 0 < r.base e :=
      sub_pos.2 (one_div_lt_one_div_of_lt (r.clamp_pos e) h)
    exact add_pos_of_pos_of_nonneg (mul_pos hbase (by positivity))
      quote_nonneg
  · have hquote : 0 < r.quote e := by
      rw [quote, h]
      exact sub_pos.2 r.low_lt_high
    exact add_pos_of_nonneg_of_pos
      (mul_nonneg base_nonneg (by positivity)) hquote

end

-- ============================================================ the loss

theorem worth_eq_of_clamp_eq (h : r.clamp s = r.clamp e) :
    r.worth s s = r.worth e s := by
  rw [worth, worth, base, base, quote, quote, h]

variable (r e s)

/-- What the position has lost against the amounts it began with: a product
of two differences of one sign. -/
theorem worth_sub_worth :
    r.worth e s - r.worth s s
      = (r.clamp s - r.clamp e) * (s ^ 2 - r.clamp e * r.clamp s)
        / (r.clamp e * r.clamp s) := by
  have he := (r.clamp_pos e).ne'
  have hs := (r.clamp_pos s).ne'
  have hhigh := r.high_pos.ne'
  rw [worth, worth, base, base, quote, quote]
  field_simp
  ring

variable {r e s}

section

variable [IsStrictOrderedRing K]

/-- Both factors change their sign where the two clamps meet. -/
theorem clamp_gap_pos (hs : 0 ≤ s) (h : r.clamp s ≠ r.clamp e) :
    0 < (r.clamp s - r.clamp e) * (s ^ 2 - r.clamp e * r.clamp s) := by
  have hcs := r.clamp_pos s
  rcases lt_or_gt_of_ne h with hlt | hgt
  · have hle : s ≤ r.clamp s :=
      self_le_clamp (hlt.trans_le (r.clamp_le_high e))
    apply mul_pos_of_neg_of_neg (sub_neg.2 hlt)
    rw [sub_neg]
    calc s ^ 2 ≤ r.clamp s ^ 2 := by gcongr
      _ = r.clamp s * r.clamp s := sq _
      _ < r.clamp e * r.clamp s := by gcongr
  · have hge : r.clamp s ≤ s :=
      clamp_le_self ((r.low_le_clamp e).trans_lt hgt)
    apply mul_pos (sub_pos.2 hgt)
    rw [sub_pos]
    calc r.clamp e * r.clamp s < r.clamp s * r.clamp s := by gcongr
      _ = r.clamp s ^ 2 := (sq _).symm
      _ ≤ s ^ 2 := by gcongr

theorem worth_self_lt (hs : 0 ≤ s) (h : r.clamp s ≠ r.clamp e) :
    r.worth s s < r.worth e s := by
  rw [← sub_pos, worth_sub_worth]
  exact div_pos (clamp_gap_pos hs h)
    (mul_pos (r.clamp_pos e) (r.clamp_pos s))

/-- A position is worth at most what holding its entry is worth. -/
theorem worth_self_le (hs : 0 ≤ s) : r.worth s s ≤ r.worth e s := by
  by_cases h : r.clamp s = r.clamp e
  · exact (worth_eq_of_clamp_eq h).le
  · exact (worth_self_lt hs h).le

/-- From an entry inside the span nothing is lost exactly at the entry's own
price. -/
theorem worth_self_eq_iff (hs : 0 ≤ s) (hlow : r.low < e)
    (hhigh : e < r.high) : r.worth s s = r.worth e s ↔ s = e := by
  rw [← clamp_eq_iff hlow hhigh]
  constructor
  · intro heq
    by_contra h
    exact (worth_self_lt hs h).ne heq
  · exact worth_eq_of_clamp_eq

end

-- ====================================================== the full range

/-- Entered at one, a position is worth this at `s`. -/
theorem worth_one (hlow : r.low < 1) (hhigh : 1 < r.high) :
    r.worth 1 s = (1 - 1 / r.high) * s ^ 2 + (1 - r.low) := by
  rw [worth, base, quote, clamp_of_mem hlow.le hhigh.le, div_one]

/-- What a unit inside its span is worth less than the full range is a
square: the full range keeps `2 * s` of what is worth `1 + s ^ 2`. -/
theorem inside_gap (hone : r.low < 1) (hone' : 1 < r.high)
    (hlow : r.low ≤ s) (hhigh : s ≤ r.high) :
    2 * s * r.worth 1 s - r.worth s s * (1 + s ^ 2)
      = (s ^ 2 / r.high + r.low) * (s - 1) ^ 2 := by
  have hs := (r.low_pos.trans_le hlow).ne'
  have hupper := r.high_pos.ne'
  rw [worth_one hone hone', worth, base, quote, clamp_of_mem hlow hhigh]
  field_simp
  ring

-- ========================================================== continuity

section

variable (r : Span ℝ)

/-- The clamped root has no jump at the ends of the span, -/
theorem continuous_clamp : Continuous r.clamp :=
  continuous_const.max (continuous_const.min continuous_id)

/-- so the base has none, -/
theorem continuous_base : Continuous r.base :=
  (continuous_const.div r.continuous_clamp
    fun s => (r.clamp_pos s).ne').sub continuous_const

/-- nor has the quote. -/
theorem continuous_quote : Continuous r.quote :=
  r.continuous_clamp.sub continuous_const

end

end Span

end Proofstand.Concentrated
