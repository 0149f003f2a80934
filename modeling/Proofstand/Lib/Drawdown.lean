/-
The largest fall of a series from its peak so far, watched in one pass.

A point of the series falls from every earlier point, from itself and
from the level the series starts at (`drops`). The pass keeps the highest
level yet and the largest fall from it, and that is the largest of all of
them (`isGreatest_worst`).

# The induction

Series grow at their end, and so does the induction
(`List.reverseRecOn`): one more point adds the falls to that point
(`drops_snoc`), and of these the one from the peak is the largest
(`isGreatest_fall`). Two facts are carried, each an `IsGreatest` over a set
that is defined without the pass: the peak is the greatest of the starting
level and the points seen, and the fall is the greatest of zero and the
drops. A maximum over a union is the larger of the two maxima, which is
what `Watch.see` computes.

Only the order and subtraction of the levels are used; a relative fall is
the same over their logarithms.
-/
import Mathlib.Data.List.Induction
import Mathlib.Order.Bounds.Basic
import Mathlib.Algebra.Order.Group.Defs

namespace Proofstand.Drawdown

variable {K : Type} [AddCommGroup K] [LinearOrder K]

/-- The highest level yet, and the largest fall from it. -/
structure Watch (K : Type) where
  peak : K
  worst : K

def Watch.see (w : Watch K) (x : K) : Watch K where
  peak := max w.peak x
  worst := max w.worst (max w.peak x - x)

/-- One pass over a series that starts at `top`. -/
def watch (top : K) (xs : List K) : Watch K :=
  xs.foldl Watch.see ⟨top, 0⟩

/-- How far a later point lies below an earlier one, or below the top
where that is higher. -/
def drops (top : K) (xs : List K) : Set K :=
  {d | ∃ (i j : Nat) (x y : K), i ≤ j ∧ xs[i]? = some x ∧ xs[j]? = some y
    ∧ d = max top x - y}

-- ============================================================= one point

theorem watch_snoc (top : K) (xs : List K) (x : K) :
    watch top (xs ++ [x]) = (watch top xs).see x := by
  rw [watch, List.foldl_append]
  rfl

theorem setOf_mem_snoc {α : Type} (xs : List α) (x : α) :
    {y | y ∈ xs ++ [x]} = insert x {y | y ∈ xs} := by
  ext y
  simp [or_comm]

/-- The falls of a longer series: those there were, and those to its last
point. -/
theorem drops_snoc (top : K) (xs : List K) (x : K) :
    drops top (xs ++ [x])
      = drops top xs ∪ {d | ∃ y ∈ xs ++ [x], d = max top y - x} := by
  ext d
  constructor
  · intro h
    obtain ⟨i, j, y, z, hij, hy, hz, rfl⟩ := h
    by_cases hj : j < xs.length
    · rw [List.getElem?_append_left (hij.trans_lt hj)] at hy
      rw [List.getElem?_append_left hj] at hz
      exact Or.inl ⟨i, j, y, z, hij, hy, hz, rfl⟩
    · rw [List.getElem?_append_right (not_lt.1 hj)] at hz
      have hlast : z = x := List.mem_singleton.1 (List.mem_of_getElem? hz)
      exact Or.inr ⟨y, List.mem_of_getElem? hy, by rw [hlast]⟩
  · intro h
    rcases h with ⟨i, j, y, z, hij, hy, hz, rfl⟩ | ⟨y, hy, rfl⟩
    · refine ⟨i, j, y, z, hij, ?_, ?_, rfl⟩
      · rw [List.getElem?_append_left (List.getElem?_eq_some_iff.1 hy).1]
        exact hy
      · rw [List.getElem?_append_left (List.getElem?_eq_some_iff.1 hz).1]
        exact hz
    · obtain ⟨i, hi⟩ := List.mem_iff_getElem?.1 hy
      have hlt : i < (xs ++ [x]).length := (List.getElem?_eq_some_iff.1 hi).1
      rw [List.length_append, List.length_singleton] at hlt
      exact ⟨i, xs.length, y, x, Nat.le_of_lt_succ hlt, hi,
        List.getElem?_concat_length, rfl⟩

-- ============================================================ the series

/-- The peak is the greatest of the start and all values seen. -/
theorem isGreatest_peak (top : K) (xs : List K) :
    IsGreatest (insert top {x | x ∈ xs}) (watch top xs).peak := by
  induction xs using List.reverseRecOn with
  | nil => simp [watch]
  | append_singleton xs x ih =>
      rw [watch_snoc, setOf_mem_snoc, Set.insert_comm]
      show IsGreatest _ (max (watch top xs).peak x)
      rw [max_comm]
      exact ih.insert x

variable [IsOrderedAddMonoid K]

/-- Of the falls to a point the one from the peak is the largest. -/
theorem isGreatest_fall {top p : K} {xs : List K} {x : K} (hx : x ∈ xs)
    (hp : IsGreatest (insert top {y | y ∈ xs}) p) :
    IsGreatest {d | ∃ y ∈ xs, d = max top y - x} (p - x) := by
  have htop : top ≤ p := hp.2 (Set.mem_insert _ _)
  constructor
  · rcases hp.1 with rfl | hmem
    · exact ⟨x, hx, by rw [max_eq_left (hp.2 (Set.mem_insert_of_mem _ hx))]⟩
    · exact ⟨p, hmem, by rw [max_eq_right htop]⟩
  · intro d h
    obtain ⟨y, hy, rfl⟩ := h
    have hle : max top y ≤ p :=
      max_le htop (hp.2 (Set.mem_insert_of_mem _ hy))
    exact sub_le_sub_right hle x

/-- The pass finds the largest fall, or none. -/
theorem isGreatest_worst (top : K) (xs : List K) :
    IsGreatest (insert 0 (drops top xs)) (watch top xs).worst := by
  induction xs using List.reverseRecOn with
  | nil => simp [watch, drops]
  | append_singleton xs x ih =>
      have hpeak := isGreatest_peak top (xs ++ [x])
      have hfall := isGreatest_fall
        (List.mem_append_right xs (List.mem_singleton_self x)) hpeak
      rw [watch_snoc] at hfall ⊢
      rw [drops_snoc, ← Set.insert_union]
      exact ih.union hfall

end Proofstand.Drawdown
