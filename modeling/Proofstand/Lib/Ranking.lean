/-
A stable descending sort: its head is the first of the greatest
(`head?_sort_desc`), as is what a fold keeps of a list
(`foldl_firstBest`), and what is selected from it is sorted alike
(`filter_sort_desc`). The first of the greatest stays that in every
selection it belongs to (`FirstBest.filter`).

# First of the greatest

`FirstBest key a l` is inductive over the list: `a` is at the head with
nothing greater behind it, or it is behind a head that is less. It says in
one notion what different programs compute: the head of a stable
descending sort, and the entry a fold keeps that moves on only to what is
greater.

# Selections

To select before sorting or after it makes no difference
(`filter_sort_desc`), by induction over insertions: an entry that is
selected is inserted before the first entry that does not exceed it, and
those that are dropped stand between without moving it. With
`FirstBest.filter` the winner of a ranking is then the winner of every
selection it survives.
-/
import Mathlib.Data.List.Sort

namespace Proofstand.Ranking

variable {α β : Type} [LinearOrder β] {key : α → β}

/-- `a` is the first of the greatest of a list: what stands before it is
less, what stands after it is no greater. -/
inductive FirstBest (key : α → β) (a : α) : List α → Prop
  | here {l : List α} : (∀ b ∈ l, key b ≤ key a) → FirstBest key a (a :: l)
  | later {b : α} {l : List α} : key b < key a → FirstBest key a l →
      FirstBest key a (b :: l)

theorem FirstBest.mem {a : α} {l : List α} (h : FirstBest key a l) :
    a ∈ l := by
  induction h with
  | here _ => exact List.mem_cons_self
  | later _ _ ih => exact List.mem_cons_of_mem _ ih

theorem FirstBest.le {a b : α} {l : List α} (h : FirstBest key a l)
    (hb : b ∈ l) : key b ≤ key a := by
  induction h with
  | here hall =>
      rcases List.mem_cons.1 hb with rfl | hb
      · exact le_refl _
      · exact hall b hb
  | later hlt _ ih =>
      rcases List.mem_cons.1 hb with rfl | hb
      · exact hlt.le
      · exact ih hb

theorem pairwise_sort_desc (l : List α) :
    (l.insertionSort fun a b => key b ≤ key a).Pairwise
      fun a b => key b ≤ key a := by
  have : Std.Total fun a b : α => key b ≤ key a :=
    ⟨fun a b => le_total (key b) (key a)⟩
  have : IsTrans α fun a b => key b ≤ key a :=
    ⟨fun _ _ _ hab hbc => hbc.trans hab⟩
  exact List.pairwise_insertionSort _ l

/-- A descending stable sort begins with the first of the best. -/
theorem head?_sort_desc {l : List α} {a : α} :
    (l.insertionSort fun a b => key b ≤ key a).head? = some a
      ↔ FirstBest key a l := by
  induction l generalizing a with
  | nil =>
      constructor
      · intro h
        cases h
      · intro h
        cases h
  | cons b l ih =>
      rw [List.insertionSort_cons]
      cases hsort : l.insertionSort fun a b => key b ≤ key a with
      | nil =>
          have hnil : l = [] := by
            rw [← List.length_eq_zero_iff,
              ← List.length_insertionSort (fun a b => key b ≤ key a), hsort]
            rfl
          subst hnil
          constructor
          · intro h
            cases h
            exact .here (by simp)
          · intro h
            cases h with
            | here _ => rfl
            | later _ h => cases h
      | cons c r =>
          have hc : FirstBest key c l := ih.1 (by rw [hsort]; rfl)
          by_cases hle : key c ≤ key b
          · rw [List.orderedInsert_cons, if_pos hle]
            constructor
            · intro h
              cases h
              exact .here fun x hx => (hc.le hx).trans hle
            · intro h
              cases h with
              | here _ => rfl
              | later hlt h =>
                  exact absurd ((hc.le h.mem).trans hle) hlt.not_ge
          · rw [List.orderedInsert_cons, if_neg hle]
            constructor
            · intro h
              cases h
              exact .later (not_le.1 hle) hc
            · intro h
              cases h with
              | here hall => exact absurd (hall c hc.mem) hle
              | later _ h =>
                  have hhead := ih.2 h
                  rw [hsort] at hhead
                  cases hhead
                  rfl

/-- There is one first best at most, -/
theorem FirstBest.unique {a b : α} {l : List α} (ha : FirstBest key a l)
    (hb : FirstBest key b l) : a = b :=
  Option.some.inj ((head?_sort_desc.2 ha).symm.trans (head?_sort_desc.2 hb))

/-- and in a list with entries there is one. -/
theorem exists_firstBest (key : α → β) {l : List α} (h : l ≠ []) :
    ∃ a, FirstBest key a l := by
  cases hsort : l.insertionSort fun a b => key b ≤ key a with
  | nil =>
      exfalso
      apply h
      rw [← List.length_eq_zero_iff,
        ← List.length_insertionSort (fun a b => key b ≤ key a), hsort]
      rfl
  | cons a r => exact ⟨a, head?_sort_desc.1 (by rw [hsort]; rfl)⟩

/-- It is the head unless the tail has a better one. -/
theorem firstBest_cons {a b : α} {l : List α} :
    FirstBest key a (b :: l)
      ↔ a = b ∧ (∀ c ∈ l, key c ≤ key b)
        ∨ key b < key a ∧ FirstBest key a l := by
  constructor
  · intro h
    cases h with
    | here hall => exact Or.inl ⟨rfl, hall⟩
    | later hlt h => exact Or.inr ⟨hlt, h⟩
  · intro h
    rcases h with ⟨rfl, hall⟩ | ⟨hlt, h⟩
    · exact .here hall
    · exact .later hlt h

/-- It stays the first best among those that pass, if it passes. -/
theorem FirstBest.filter {p : α → Bool} {a : α} {l : List α}
    (h : FirstBest key a l) (hp : p a = true) :
    FirstBest key a (l.filter p) := by
  induction h with
  | here hall =>
      rw [List.filter_cons_of_pos hp]
      exact .here fun b hb => hall b (List.mem_of_mem_filter hb)
  | @later b l hlt _ ih =>
      by_cases hb : p b = true
      · rw [List.filter_cons_of_pos hb]
        exact .later hlt ih
      · rw [List.filter_cons_of_neg hb]
        exact ih

/-- A fold that moves to what is greater than its best so far. -/
theorem foldl_firstBest (a : α) (l : List α) :
    FirstBest key
      (l.foldl (fun best b => if key best < key b then b else best) a)
      (a :: l) := by
  induction l generalizing a with
  | nil => exact .here (by simp)
  | cons b l ih =>
      rw [List.foldl_cons]
      by_cases hlt : key a < key b
      · rw [if_pos hlt]
        have hb := ih b
        exact .later (hlt.trans_le (hb.le List.mem_cons_self)) hb
      · rw [if_neg hlt]
        rcases firstBest_cons.1 (ih a) with ⟨heq, hall⟩ | ⟨hless, hrest⟩
        · rw [heq]
          apply FirstBest.here
          intro c hc
          rcases List.mem_cons.1 hc with rfl | hc
          · exact not_lt.1 hlt
          · exact hall c hc
        · exact .later hless (.later ((not_lt.1 hlt).trans_lt hless) hrest)

/-- Keys that order a list alike have one first of the greatest. -/
theorem FirstBest.of_keys {γ : Type} [LinearOrder γ] {key' : α → γ} {a : α}
    {l : List α}
    (hkeys : ∀ b ∈ l, ∀ c ∈ l, key b ≤ key c ↔ key' b ≤ key' c)
    (h : FirstBest key a l) : FirstBest key' a l := by
  induction h with
  | here hall =>
      apply FirstBest.here
      intro b hb
      exact (hkeys b (List.mem_cons_of_mem _ hb) _ List.mem_cons_self).1
        (hall b hb)
  | later hlt h ih =>
      apply FirstBest.later
      · have hkey := hkeys _ (List.mem_cons_of_mem _ h.mem) _
          List.mem_cons_self
        exact lt_of_not_ge fun hle => absurd (hkey.2 hle) hlt.not_ge
      · apply ih
        intro b hb c hc
        exact hkeys b (List.mem_cons_of_mem _ hb) c
          (List.mem_cons_of_mem _ hc)

-- ============================================================ selections

/-- What is at least as good as all goes to the front. -/
theorem orderedInsert_of_le {a : α} {l : List α}
    (h : ∀ b ∈ l, key b ≤ key a) :
    l.orderedInsert (fun a b => key b ≤ key a) a = a :: l := by
  cases l with
  | nil => rfl
  | cons b l => rw [List.orderedInsert_cons, if_pos (h b List.mem_cons_self)]

theorem filter_orderedInsert (p : α → Bool) {a : α} {l : List α}
    (h : l.Pairwise fun a b => key b ≤ key a) :
    (l.orderedInsert (fun a b => key b ≤ key a) a).filter p
      = if p a then
          (l.filter p).orderedInsert (fun a b => key b ≤ key a) a
        else l.filter p := by
  induction l with
  | nil =>
      by_cases hp : p a
      · simp [hp]
      · simp [hp]
  | cons b l ih =>
      obtain ⟨hb, hl⟩ := List.pairwise_cons.1 h
      by_cases hle : key b ≤ key a
      · have hall : ∀ c ∈ (b :: l).filter p, key c ≤ key a := by
          intro c hc
          rcases List.mem_cons.1 (List.mem_filter.1 hc).1 with rfl | hc
          · exact hle
          · exact (hb c hc).trans hle
        rw [List.orderedInsert_cons, if_pos hle, List.filter_cons,
          orderedInsert_of_le hall]
      · rw [List.orderedInsert_cons, if_neg hle]
        by_cases hpb : p b
        · by_cases hpa : p a
          · simp [hpa, hpb, ih hl, hle]
          · simp [hpa, hpb, ih hl]
        · simp [hpb, ih hl]

theorem filter_sort_desc (p : α → Bool) (l : List α) :
    (l.insertionSort fun a b => key b ≤ key a).filter p
      = (l.filter p).insertionSort fun a b => key b ≤ key a := by
  induction l with
  | nil => rfl
  | cons a l ih =>
      rw [List.insertionSort_cons,
        filter_orderedInsert p (pairwise_sort_desc l), ih]
      by_cases hp : p a
      · rw [if_pos hp, List.filter_cons_of_pos hp, List.insertionSort_cons]
      · rw [if_neg hp, List.filter_cons_of_neg hp]

end Proofstand.Ranking
