/-
Order statistics of a list: an entry's rank by counting
(`IsOrderStatistic`) is its place in the sorted list
(`getElem?_insertionSort_iff`). The counting form says when neighbouring
ranks hold one value (`IsOrderStatistic.succ_iff`).

# Ranks by counting

`IsOrderStatistic l m v` says that `v` is the least entry that at least
`m` entries do not exceed. Nothing in it mentions sorting, so it is stable
under permutations (`IsOrderStatistic.perm`) and names one value at most
(`IsOrderStatistic.unique`). That it is the entry at place `m` of the
sorted list rests on one fact about sorted lists (`lt_countLe_iff`): the
entries that do not exceed `x` come first, so place `i` is among them
exactly where `i` is below their number.

A program that picks a neighbouring place of the sorted list returns the
right value wherever the two ranks coincide, and `succ_iff` says on which
lists they do.
-/
import Mathlib.Data.List.Sort

namespace Proofstand.OrderStatistic

variable {α : Type} [LinearOrder α]

/-- How many entries do not exceed `x`. -/
def countLe (l : List α) (x : α) : Nat := l.countP fun u => u ≤ x

/-- The least entry that at least `m` entries do not exceed. -/
structure IsOrderStatistic (l : List α) (m : Nat) (v : α) : Prop where
  mem : v ∈ l
  covers : m ≤ countLe l v
  least : ∀ u ∈ l, m ≤ countLe l u → v ≤ u

-- ============================================================= counting

theorem countLe_mono (l : List α) {x y : α} (h : x ≤ y) :
    countLe l x ≤ countLe l y := by
  apply List.countP_mono_left
  intro u _ hu
  rw [decide_eq_true_eq] at hu ⊢
  exact hu.trans h

theorem countLe_pos {l : List α} {x : α} (h : x ∈ l) : 0 < countLe l x := by
  rw [countLe, List.countP_pos_iff]
  exact ⟨x, h, decide_eq_true (le_refl x)⟩

theorem countLe_perm {l l' : List α} (h : l.Perm l') (x : α) :
    countLe l x = countLe l' x :=
  h.countP_eq _

/-- In a sorted list the entries that do not exceed `x` come first. -/
theorem lt_countLe_iff {l : List α} (h : l.Pairwise (· ≤ ·)) {i : Nat}
    {x : α} : i < countLe l x ↔ ∃ u, l[i]? = some u ∧ u ≤ x := by
  induction l generalizing i with
  | nil => simp [countLe]
  | cons a l ih =>
      obtain ⟨ha, hl⟩ := List.pairwise_cons.1 h
      by_cases hax : a ≤ x
      · have hcount : countLe (a :: l) x = countLe l x + 1 := by
          simp [countLe, hax]
        cases i with
        | zero => simp [hcount, hax]
        | succ i =>
            rw [hcount, Nat.add_lt_add_iff_right, ih hl,
              List.getElem?_cons_succ]
      · -- nothing behind an entry above `x` is counted
        have hcount : countLe (a :: l) x = 0 := by
          rw [countLe, List.countP_eq_zero]
          intro u hu
          rw [decide_eq_true_eq]
          rcases List.mem_cons.1 hu with rfl | hu
          · exact hax
          · exact fun hux => hax ((ha u hu).trans hux)
        rw [hcount]
        constructor
        · intro hlt
          exact absurd hlt (Nat.not_lt_zero i)
        · intro h
          obtain ⟨u, hu, hux⟩ := h
          have hle : a ≤ u := by
            rcases List.mem_cons.1 (List.mem_of_getElem? hu) with rfl | hu
            · exact le_refl _
            · exact ha u hu
          exact absurd (hle.trans hux) hax

-- ================================================================ ranks

theorem IsOrderStatistic.unique {l : List α} {m : Nat} {v w : α}
    (hv : IsOrderStatistic l m v) (hw : IsOrderStatistic l m w) : v = w :=
  le_antisymm (hv.least w hw.mem hw.covers) (hw.least v hv.mem hv.covers)

theorem IsOrderStatistic.perm {l l' : List α} (h : l.Perm l') {m : Nat}
    {v : α} (hv : IsOrderStatistic l m v) : IsOrderStatistic l' m v := by
  refine ⟨h.mem_iff.1 hv.mem, ?_, ?_⟩
  · rw [← countLe_perm h]
    exact hv.covers
  · intro u hu hcovers
    rw [← countLe_perm h] at hcovers
    exact hv.least u (h.mem_iff.2 hu) hcovers

theorem isOrderStatistic_of_getElem? {l : List α}
    (h : l.Pairwise (· ≤ ·)) {m : Nat} {v : α} (hv : l[m]? = some v) :
    IsOrderStatistic l (m + 1) v := by
  refine ⟨List.mem_of_getElem? hv, ?_, ?_⟩
  · exact (lt_countLe_iff h).2 ⟨v, hv, le_refl v⟩
  · intro u _ hcovers
    obtain ⟨w, hw, hwu⟩ := (lt_countLe_iff h).1 hcovers
    rw [hv] at hw
    cases hw
    exact hwu

/-- The entry at place `m` of the sorted list has rank `m + 1`. -/
theorem getElem?_insertionSort_iff {l : List α} {m : Nat} {v : α} :
    (l.insertionSort (· ≤ ·))[m]? = some v
      ↔ IsOrderStatistic l (m + 1) v := by
  have hsorted := List.pairwise_insertionSort (· ≤ ·) l
  have hperm := List.perm_insertionSort (· ≤ ·) l
  constructor
  · intro h
    exact (isOrderStatistic_of_getElem? hsorted h).perm hperm
  · intro h
    obtain ⟨w, hw, -⟩ := (lt_countLe_iff hsorted).1
      (h.perm hperm.symm).covers
    have hrank := (isOrderStatistic_of_getElem? hsorted hw).perm hperm
    rw [hw, hrank.unique h]

/-- An entry has the next rank as well, unless some entry is not exceeded
by exactly as many as its rank says. -/
theorem IsOrderStatistic.succ_iff {l : List α} {m : Nat} {v : α}
    (h : IsOrderStatistic l m v) :
    IsOrderStatistic l (m + 1) v ↔ ∀ x ∈ l, countLe l x ≠ m := by
  constructor
  · intro hnext x hx hcount
    have hle : v ≤ x := h.least x hx hcount.ge
    have := countLe_mono l hle
    have := hnext.covers
    omega
  · intro hnone
    refine ⟨h.mem, ?_, ?_⟩
    · exact lt_of_le_of_ne h.covers (Ne.symm (hnone v h.mem))
    · intro u hu hcovers
      exact h.least u hu ((Nat.le_succ m).trans hcovers)

end Proofstand.OrderStatistic
