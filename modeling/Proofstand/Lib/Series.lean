/-
Records at the points of a grid, and tables with one record for each key.

`points` lists the multiples of a step between two bounds, in order;
a list in strict order is known by its members, so a stretch of the grid
cut at one of its points continues at the next (`mem_drop_iff`), and one
of spans that lie apart with the spans that begin after the last one
before the cut (`drop_eq_filter_after`). `keepLast`
leaves the last record of each key and nothing else to do where the keys
are already distinct.
-/
import Mathlib.Tactic
import Mathlib.Data.List.Sort

namespace Proofstand.Series

-- ============================================================= rounding up

/-- The quotient rounded up. -/
def ceilDiv (a b : Int) : Int := -(-a / b)

/-- The quotient rounded up is the least one that suffices. -/
theorem ceilDiv_le_iff {a b c : Int} (hb : 0 < b) :
    ceilDiv a b ≤ c ↔ a ≤ c * b := by
  unfold ceilDiv
  rw [neg_le, Int.le_ediv_iff_mul_le hb, neg_mul, neg_le_neg_iff]

-- ================================================================ the grid

/-- The multiples of `step` from `a` to `b`, in order. -/
def points (step a b : Int) : List Int :=
  (List.range (b / step - ceilDiv a step + 1).toNat).map
    fun i : Nat => (ceilDiv a step + (i : Int)) * step

theorem mem_points_iff {step a b x : Int} (hstep : 0 < step) :
    x ∈ points step a b ↔ step ∣ x ∧ a ≤ x ∧ x ≤ b := by
  unfold points
  rw [List.mem_map]
  constructor
  · intro h
    obtain ⟨i, hi, rfl⟩ := h
    rw [List.mem_range, Int.lt_toNat] at hi
    refine ⟨Dvd.intro_left _ rfl, ?_, ?_⟩
    · exact (ceilDiv_le_iff hstep).1 (by omega)
    · exact (Int.le_ediv_iff_mul_le hstep).1 (by omega)
  · intro h
    obtain ⟨⟨k, rfl⟩, ha, hb⟩ := h
    rw [mul_comm step k] at ha hb ⊢
    have hlo : ceilDiv a step ≤ k := (ceilDiv_le_iff hstep).2 ha
    have hhi : k ≤ b / step := (Int.le_ediv_iff_mul_le hstep).2 hb
    refine ⟨(k - ceilDiv a step).toNat, ?_, ?_⟩
    · rw [List.mem_range, Int.lt_toNat]
      omega
    · rw [Int.toNat_of_nonneg (by omega), add_sub_cancel]

theorem points_ascending {step : Int} (hstep : 0 < step) (a b : Int) :
    (points step a b).Pairwise (· < ·) := by
  unfold points
  rw [List.pairwise_map]
  refine List.pairwise_lt_range.imp fun {i j} hij => ?_
  have hij' : (i : Int) < j := by exact_mod_cast hij
  exact Int.mul_lt_mul_of_pos_right (by omega) hstep

/-- No more points than steps fit, and one. -/
theorem length_points_le {step : Int} (hstep : 0 < step) (a b : Int) :
    ((points step a b).length : Int) ≤ max 0 (ceilDiv (b - a) step + 1) := by
  unfold points
  rw [List.length_map, List.length_range, Int.toNat_eq_max, max_comm]
  apply max_le_max (le_refl 0)
  have hlo : a ≤ ceilDiv a step * step := (ceilDiv_le_iff hstep).1 (le_refl _)
  have hhi : b / step * step ≤ b := Int.ediv_mul_le b hstep.ne'
  have hdiff : b - a ≤ ceilDiv (b - a) step * step :=
    (ceilDiv_le_iff hstep).1 (le_refl _)
  have hle : b / step - ceilDiv a step ≤ ceilDiv (b - a) step := by
    apply le_of_mul_le_mul_right _ hstep
    rw [sub_mul]
    linarith
  linarith

-- =========================================================== in strict order

/-- The entries after a cut are those above the last one before it. -/
theorem mem_drop_iff {l : List Int} (h : l.Pairwise (· < ·)) {n : Nat}
    {a x : Int} (ha : (l.take n).getLast? = some a) :
    x ∈ l.drop n ↔ x ∈ l ∧ a < x := by
  rw [← List.take_append_drop n l, List.pairwise_append] at h
  obtain ⟨hinit, -, hcross⟩ := h
  have hmem : a ∈ l.take n := List.mem_of_getLast? ha
  constructor
  · intro hx
    exact ⟨List.mem_of_mem_drop hx, hcross a hmem x hx⟩
  · intro h
    obtain ⟨hx, hlt⟩ := h
    rw [← List.take_append_drop n l, List.mem_append] at hx
    rcases hx with hx | hx
    · -- in the part before the cut nothing is above its last entry
      obtain ⟨init, hl⟩ := List.getLast?_eq_some_iff.1 ha
      rw [hl, List.pairwise_append] at hinit
      rw [hl, List.mem_append, List.mem_singleton] at hx
      rcases hx with hx | rfl
      · exact absurd (hinit.2.2 x hx a List.mem_cons_self) hlt.not_gt
      · exact absurd hlt (lt_irrefl x)
    · exact hx

/-- Of spans in order and apart, those after a cut begin after the last
one before it has ended. -/
theorem drop_eq_filter_after {α : Type} {first last : α → Int} {l : List α}
    (hspan : ∀ a ∈ l, first a ≤ last a)
    (hapart : l.Pairwise fun a b => last a < first b) {n : Nat} {a : α}
    (ha : (l.take n).getLast? = some a) :
    l.drop n = l.filter fun b => last a < first b := by
  have hparts := hapart
  rw [← List.take_append_drop n l, List.pairwise_append] at hparts
  obtain ⟨hinit, -, hcross⟩ := hparts
  have hmem : a ∈ l.take n := List.mem_of_getLast? ha
  have hself : first a ≤ last a := hspan a (List.mem_of_mem_take hmem)
  have hbefore : (l.take n).filter (fun b => last a < first b) = [] := by
    rw [List.filter_eq_nil_iff]
    intro b hb
    rw [decide_eq_true_eq, not_lt]
    obtain ⟨init, hl⟩ := List.getLast?_eq_some_iff.1 ha
    rw [hl, List.pairwise_append] at hinit
    have hb' := hb
    rw [hl, List.mem_append, List.mem_singleton] at hb'
    rcases hb' with hb' | rfl
    · have hlt := hinit.2.2 b hb' a List.mem_cons_self
      have hle := hspan b (List.mem_of_mem_take hb)
      omega
    · exact hself
  have hafter : (l.drop n).filter (fun b => last a < first b)
      = l.drop n := by
    rw [List.filter_eq_self]
    intro b hb
    rw [decide_eq_true_eq]
    exact hcross a hmem b hb
  conv_rhs => rw [← List.take_append_drop n l]
  rw [List.filter_append, hbefore, hafter, List.nil_append]

-- ==================================================== one record for each key

variable {α β : Type} [DecidableEq β]

/-- The last record of each key, where it stands. -/
def keepLast (key : α → β) : List α → List α
  | [] => []
  | a :: l =>
      if l.any fun b => key b = key a then keepLast key l
      else a :: keepLast key l

theorem keepLast_eq_self {key : α → β} {l : List α}
    (h : (l.map key).Nodup) : keepLast key l = l := by
  induction l with
  | nil => rfl
  | cons a l ih =>
      rw [List.map_cons, List.nodup_cons] at h
      have hnone : ¬ (l.any fun b => key b = key a) = true := by
        intro hany
        obtain ⟨b, hb, hkey⟩ := List.any_eq_true.1 hany
        apply h.1
        rw [← of_decide_eq_true hkey]
        exact List.mem_map_of_mem hb
      rw [keepLast, if_neg hnone, ih h.2]

end Proofstand.Series
