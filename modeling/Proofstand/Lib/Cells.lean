/-
A row of cells, each empty or full: what filling or emptying one cell
does to the contents, and to the history of the cell.

# Contents

The contents of a row are its `reduceOption`. Filling an empty cell adds
one entry to them and emptying a full one takes it away, up to order,
which is all that sums and counts see.

# Histories

A row that is written cell by cell keeps one common log. `labels` says
for each entry of the log which cell it is about, and `entriesOf` reads
one cell's history back.

# How the lemmas are used

Both halves are about `List.set` at one index, so a step that writes a
cell changes everything stated over the row by one term: a sum over the
contents gains or loses the cell's (`sum_fill`, `sum_drain`), and a length
one. Draining is filling read backwards, so `reduceOption_set_none`
comes from `reduceOption_set_some`.

`histories_set` is the induction step of a relation between a cell and its
own history: the written cell has to be shown to continue its history, and
every other cell has the one it had.
-/
import Mathlib.Tactic
import Mathlib.Data.List.ReduceOption
import Mathlib.Algebra.BigOperators.Group.List.Basic

namespace Proofstand.Cells

variable {α β : Type}

-- ============================================================== contents

/-- Filling an empty cell adds its entry to those held. -/
theorem reduceOption_set_some {l : List (Option α)} {i : Nat} {a : α}
    (h : l[i]? = some none) :
    (l.set i (some a)).reduceOption.Perm (a :: l.reduceOption) := by
  induction l generalizing i with
  | nil => simp at h
  | cons o l ih =>
      cases i with
      | zero =>
          have ho : o = none := by simpa using h
          subst ho
          simp
      | succ i =>
          have hi : l[i]? = some none := by simpa using h
          cases o with
          | none => simpa using ih hi
          | some b =>
              simp only [List.set_cons_succ, List.reduceOption_cons_of_some]
              exact ((ih hi).cons b).trans (List.Perm.swap a b _)

/-- Emptying a cell takes its entry away from those held. -/
theorem reduceOption_set_none {l : List (Option α)} {i : Nat} {a : α}
    (h : l[i]? = some (some a)) :
    l.reduceOption.Perm (a :: (l.set i none).reduceOption) := by
  have hnone : (l.set i none)[i]? = some none := by
    rw [List.getElem?_set_self']
    simp [h]
  have hback : (l.set i none).set i (some a) = l := by
    obtain ⟨hlt, hget⟩ := List.getElem?_eq_some_iff.1 h
    rw [List.set_set, ← hget]
    exact List.set_getElem_self hlt
  have hperm := reduceOption_set_some (a := a) hnone
  rwa [hback] at hperm

/-- Filling an empty cell adds its value to a sum over the contents. -/
theorem sum_fill {M : Type} [AddCommMonoid M] (f : α → M)
    {l : List (Option α)} {i : Nat} {a : α} (h : l[i]? = some none) :
    ((l.set i (some a)).reduceOption.map f).sum
      = f a + (l.reduceOption.map f).sum := by
  rw [((reduceOption_set_some h).map f).sum_eq, List.map_cons, List.sum_cons]

/-- Emptying a full cell takes its value out of a sum over the contents. -/
theorem sum_drain {M : Type} [AddCommMonoid M] (f : α → M)
    {l : List (Option α)} {i : Nat} {a : α} (h : l[i]? = some (some a)) :
    (l.reduceOption.map f).sum
      = f a + ((l.set i none).reduceOption.map f).sum := by
  rw [((reduceOption_set_none h).map f).sum_eq, List.map_cons, List.sum_cons]

/-- So filling one adds one to their number, -/
theorem length_fill {l : List (Option α)} {i : Nat} {a : α}
    (h : l[i]? = some none) :
    (l.set i (some a)).reduceOption.length = l.reduceOption.length + 1 := by
  rw [(reduceOption_set_some h).length_eq, List.length_cons]

/-- and emptying one takes one off. -/
theorem length_drain {l : List (Option α)} {i : Nat} {a : α}
    (h : l[i]? = some (some a)) :
    l.reduceOption.length = (l.set i none).reduceOption.length + 1 := by
  rw [(reduceOption_set_none h).length_eq, List.length_cons]

-- ============================================================= histories

/-- The entries of a log that are about cell `i`, in order. -/
def entriesOf (labels : List Nat) (log : List β) (i : Nat) : List β :=
  ((log.zip labels).filter fun e => e.2 = i).map Prod.fst

theorem entriesOf_append {labels : List Nat} {log : List β}
    (h : labels.length = log.length) (i j : Nat) (b : β) :
    entriesOf (labels ++ [i]) (log ++ [b]) j
      = if i = j then entriesOf labels log j ++ [b]
        else entriesOf labels log j := by
  unfold entriesOf
  rw [List.zip_append h.symm, List.filter_append, List.map_append]
  by_cases hij : i = j
  · simp [hij]
  · simp [hij]

/-- What a relation says of every cell and its history, after one more
entry about cell `i`, which now holds `o`. -/
theorem histories_set {R : Nat → List β → Option α → Prop}
    {l : List (Option α)} {labels : List Nat} {log : List β}
    (hlen : labels.length = log.length)
    (hall : ∀ j o, l[j]? = some o → R j (entriesOf labels log j) o)
    {i : Nat} {o : Option α} {b : β}
    (hi : R i (entriesOf labels log i ++ [b]) o) :
    ∀ j o', (l.set i o)[j]? = some o' →
      R j (entriesOf (labels ++ [i]) (log ++ [b]) j) o' := by
  intro j o' hj
  rw [entriesOf_append hlen]
  by_cases hij : i = j
  · subst hij
    rw [if_pos rfl]
    rw [List.getElem?_set_self'] at hj
    cases hl : l[i]? with
    | none => simp [hl] at hj
    | some x =>
        have ho : o = o' := by simpa [hl] using hj
        exact ho ▸ hi
  · rw [if_neg hij]
    rw [List.getElem?_set_ne hij] at hj
    exact hall j o' hj

end Proofstand.Cells
