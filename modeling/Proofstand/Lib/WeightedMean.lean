/-
The weighted mean of a list of values, each with its weight.

Without any weight the mean is zero. With non-negative weights it lies
where the values lie (`weightedMean_mem`) and grows with them
(`weightedMean_mono`), and one more entry of positive weight lifts it
exactly where its value is above the mean of the others
(`weightedMean_insert_ge`).

# No weight at all

The mean of no weight is zero by definition, so the lemmas that divide
have that case apart. It does no harm: non-negative weights that come to
nothing are all zero, and so is what they weigh
(`weightedSum_eq_zero`). The product of mean and total is therefore the
weighted sum in every case (`weightedMean_mul_totalWeight`), and
inequalities between means become linear ones between sums.

# Comparing two lists

`Dominated` pairs the entries of two lists, with the same weights and no
lower values; it is a `Forall₂`, so its facts go by the two lists at once.
For an entry more, on the other hand, the weights differ, and
`weightedMean_insert_ge` says exactly when it does not lower the mean: a
value at or above the mean of the others.
-/
import Mathlib.Tactic

namespace Proofstand.WeightedMean

variable {K : Type} [Field K] [LinearOrder K]

omit [LinearOrder K] in
def totalWeight (l : List (K × K)) : K := (l.map fun e => e.2).sum

omit [LinearOrder K] in
def weightedSum (l : List (K × K)) : K := (l.map fun e => e.1 * e.2).sum

/-- Of values paired with their weights. -/
def weightedMean (l : List (K × K)) : K :=
  if totalWeight l = 0 then 0 else weightedSum l / totalWeight l

section

variable (e : K × K) (l r : List (K × K))

omit [LinearOrder K] in
@[simp] theorem totalWeight_nil : totalWeight ([] : List (K × K)) = 0 := rfl

omit [LinearOrder K] in
@[simp] theorem weightedSum_nil : weightedSum ([] : List (K × K)) = 0 := rfl

omit [LinearOrder K] in
@[simp] theorem totalWeight_cons :
    totalWeight (e :: l) = e.2 + totalWeight l := List.sum_cons

omit [LinearOrder K] in
@[simp] theorem weightedSum_cons :
    weightedSum (e :: l) = e.1 * e.2 + weightedSum l := List.sum_cons

omit [LinearOrder K] in
@[simp] theorem totalWeight_append :
    totalWeight (l ++ r) = totalWeight l + totalWeight r := by
  rw [totalWeight, List.map_append, List.sum_append]
  rfl

omit [LinearOrder K] in
@[simp] theorem weightedSum_append :
    weightedSum (l ++ r) = weightedSum l + weightedSum r := by
  rw [weightedSum, List.map_append, List.sum_append]
  rfl

end

variable [IsStrictOrderedRing K] {l m r : List (K × K)}

theorem totalWeight_nonneg (h : ∀ e ∈ l, 0 ≤ e.2) : 0 ≤ totalWeight l := by
  apply List.sum_nonneg
  intro w hw
  obtain ⟨e, he, rfl⟩ := List.mem_map.1 hw
  exact h e he

/-- Where the weights come to nothing, so does what they weigh. -/
theorem weightedSum_eq_zero (h : ∀ e ∈ l, 0 ≤ e.2)
    (hzero : totalWeight l = 0) : weightedSum l = 0 := by
  induction l with
  | nil => rfl
  | cons e l ih =>
      have he := h e List.mem_cons_self
      have hrest : ∀ e ∈ l, 0 ≤ e.2 := fun e he =>
        h e (List.mem_cons_of_mem _ he)
      have hl := totalWeight_nonneg hrest
      rw [totalWeight_cons] at hzero
      have hweight : e.2 = 0 := by linarith
      rw [weightedSum_cons, hweight, ih hrest (by linarith)]
      ring

/-- The mean carries the whole weight. -/
theorem weightedMean_mul_totalWeight (h : ∀ e ∈ l, 0 ≤ e.2) :
    weightedMean l * totalWeight l = weightedSum l := by
  unfold weightedMean
  by_cases hzero : totalWeight l = 0
  · rw [hzero, mul_zero, weightedSum_eq_zero h hzero]
  · rw [if_neg hzero, div_mul_cancel₀ _ hzero]

/-- The mean of values from 0 to 1 is one. -/
theorem weightedMean_mem (h : ∀ e ∈ l, 0 ≤ e.2 ∧ 0 ≤ e.1 ∧ e.1 ≤ 1) :
    0 ≤ weightedMean l ∧ weightedMean l ≤ 1 := by
  have hweights := totalWeight_nonneg fun e he => (h e he).1
  have hlow : 0 ≤ weightedSum l := by
    apply List.sum_nonneg
    intro x hx
    obtain ⟨e, he, rfl⟩ := List.mem_map.1 hx
    exact mul_nonneg (h e he).2.1 (h e he).1
  have hhigh : weightedSum l ≤ totalWeight l := by
    apply List.sum_le_sum
    intro e he
    exact mul_le_of_le_one_left (h e he).1 (h e he).2.2
  unfold weightedMean
  by_cases hzero : totalWeight l = 0
  · rw [if_pos hzero]
    exact ⟨le_refl _, zero_le_one⟩
  · rw [if_neg hzero]
    exact ⟨div_nonneg hlow hweights, div_le_one_of_le₀ hhigh hweights⟩

/-- Under the same weights, no less a value each. -/
def Dominated (l m : List (K × K)) : Prop :=
  List.Forall₂ (fun a b => a.2 = b.2 ∧ 0 ≤ a.2 ∧ a.1 ≤ b.1) l m

theorem Dominated.sums (h : Dominated l m) :
    totalWeight l = totalWeight m ∧ 0 ≤ totalWeight l
      ∧ weightedSum l ≤ weightedSum m := by
  induction h with
  | nil => exact ⟨rfl, le_refl _, le_refl _⟩
  | cons hab _ ih =>
      obtain ⟨hweight, hnonneg, hvalue⟩ := hab
      obtain ⟨htotal, hrest, hsum⟩ := ih
      have hproduct := mul_le_mul_of_nonneg_right hvalue hnonneg
      simp only [totalWeight_cons, weightedSum_cons]
      rw [← hweight, ← htotal]
      exact ⟨rfl, by linarith, by linarith⟩

theorem weightedMean_mono (h : Dominated l m) :
    weightedMean l ≤ weightedMean m := by
  obtain ⟨htotal, hnonneg, hsum⟩ := h.sums
  unfold weightedMean
  rw [← htotal]
  by_cases hzero : totalWeight l = 0
  · rw [if_pos hzero, if_pos hzero]
  · rw [if_neg hzero, if_neg hzero]
    exact div_le_div_of_nonneg_right hsum hnonneg

/-- An entry no lower than the mean of the others does not lower it. -/
theorem weightedMean_insert_ge {e : K × K} (hl : ∀ e ∈ l ++ r, 0 ≤ e.2)
    (he : 0 < e.2) :
    weightedMean (l ++ r) ≤ weightedMean (l ++ e :: r)
      ↔ weightedMean (l ++ r) ≤ e.1 := by
  have htotal : totalWeight (l ++ e :: r) = totalWeight (l ++ r) + e.2 := by
    simp only [totalWeight_append, totalWeight_cons]
    ring
  have hsum : weightedSum (l ++ e :: r)
      = weightedMean (l ++ r) * totalWeight (l ++ r) + e.1 * e.2 := by
    rw [weightedMean_mul_totalWeight hl]
    simp only [weightedSum_append, weightedSum_cons]
    ring
  have hrest := totalWeight_nonneg hl
  have hpos : 0 < totalWeight (l ++ r) + e.2 := by linarith
  have hmean : weightedMean (l ++ e :: r)
      = (weightedMean (l ++ r) * totalWeight (l ++ r) + e.1 * e.2)
        / (totalWeight (l ++ r) + e.2) := by
    rw [weightedMean, htotal, if_neg hpos.ne', hsum]
  rw [hmean, le_div_iff₀ hpos, mul_add, add_le_add_iff_left,
    mul_le_mul_iff_left₀ he]

end Proofstand.WeightedMean
