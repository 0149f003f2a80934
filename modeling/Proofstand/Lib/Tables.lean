/-
Lists as tables: joins on a key, and groups by a key.

A join of rows with distinct keys takes each row that points at one of
them once (`join_perm`). Grouping is an append to a dict of lists, row by
row; a group holds the rows of its key, in order (`groups_groupsOf`).

# Joins

Distinct keys are what makes a join a selection: a key that is there
selects one row (`filter_key`), so a join over all rows of the keyed table
takes no row of the other twice, and the induction over the keyed table
adds disjoint selections (`filter_or_perm`). A left join has a null where
there is no match; dropping the nulls gives the inner join back
(`leftJoin_last`), and its first column is the first table wherever each
of its rows has one match (`leftJoin_first`).

# Groups

`GroupsOf` is the invariant of grouping: the keys are distinct, and a
group is the non-empty selection of its key's rows, in order. One appended
row keeps it (`GroupsOf.append`), whether it opens a group or joins one.
-/
import Mathlib.Tactic

namespace Proofstand.Tables

variable {α β ι : Type} [DecidableEq ι]

-- ================================================================= joins

/-- The rows with the key of one that is there. -/
theorem filter_key {f : α → ι} {l : List α} (h : (l.map f).Nodup) {a : α}
    (ha : a ∈ l) : l.filter (fun b => f b = f a) = [a] := by
  induction l with
  | nil => cases ha
  | cons c l ih =>
      rw [List.map_cons, List.nodup_cons] at h
      obtain ⟨hc, hl⟩ := h
      rcases List.mem_cons.1 ha with rfl | ha
      · have hrest : l.filter (fun b => f b = f a) = [] := by
          rw [List.filter_eq_nil_iff]
          intro b hb hkey
          apply hc
          rw [← of_decide_eq_true hkey]
          exact List.mem_map_of_mem hb
        rw [List.filter_cons_of_pos (by simp), hrest]
      · have hne : ¬ f c = f a := by
          intro hkey
          apply hc
          rw [hkey]
          exact List.mem_map_of_mem ha
        rw [List.filter_cons_of_neg (by simpa using hne), ih hl ha]

/-- A loop with an `if` is a filter. -/
theorem flatMap_if (p : α → Bool) (l : List α) :
    (l.flatMap fun a => if p a then [a] else []) = l.filter p := by
  induction l with
  | nil => rfl
  | cons a l ih =>
      rw [List.flatMap_cons, ih, List.filter_cons]
      by_cases hp : p a
      · simp [hp]
      · simp [hp]

/-- Two selections that share nothing make up the selection of either. -/
theorem filter_or_perm {p q : α → Prop} [DecidablePred p] [DecidablePred q]
    {l : List α} (h : ∀ a ∈ l, p a → ¬ q a) :
    (l.filter (fun a => p a) ++ l.filter (fun a => q a)).Perm
      (l.filter fun a => p a ∨ q a) := by
  induction l with
  | nil => exact List.Perm.refl _
  | cons a l ih =>
      have hrest := ih fun b hb => h b (List.mem_cons_of_mem a hb)
      by_cases hp : p a
      · have hq : ¬ q a := h a List.mem_cons_self hp
        simp only [List.filter_cons, hp, hq, decide_true, decide_false,
          true_or, if_true, List.cons_append]
        exact hrest.cons a
      · by_cases hq : q a
        · simp only [List.filter_cons, hp, hq, decide_true, decide_false,
            or_true, if_true]
          exact List.perm_middle.trans (hrest.cons a)
        · simpa [List.filter_cons, hp, hq] using hrest

/-- Joining rows with distinct keys to the rows that point at them takes
each of those once. -/
theorem join_perm {f : α → ι} {g : β → ι} {l : List α} (rs : List β)
    (h : (l.map f).Nodup) :
    (l.flatMap fun a => rs.filter fun r => g r = f a).Perm
      (rs.filter fun r => g r ∈ l.map f) := by
  induction l with
  | nil => simp
  | cons a l ih =>
      rw [List.map_cons, List.nodup_cons] at h
      obtain ⟨ha, hl⟩ := h
      have hapart : ∀ r ∈ rs, g r = f a → ¬ g r ∈ l.map f := by
        intro r _ hr
        rw [hr]
        exact ha
      have hboth : (rs.filter fun r => g r ∈ (a :: l).map f)
          = rs.filter fun r => g r = f a ∨ g r ∈ l.map f := by
        apply List.filter_congr
        intro r _
        rw [List.map_cons, decide_eq_decide, List.mem_cons]
      rw [List.flatMap_cons, hboth]
      exact ((ih hl).append_left _).trans (filter_or_perm hapart)

/-- What a `LEFT JOIN` pairs a row with: its matches, or one null. -/
def leftMatches : List β → List (Option β)
  | [] => [none]
  | b :: bs => (b :: bs).map some

@[simp] theorem filterMap_leftMatches (bs : List β) :
    (leftMatches bs).filterMap id = bs := by
  cases bs with
  | nil => rfl
  | cons b bs => simp [leftMatches]

@[simp] theorem flatMap_leftMatches (as : List α) (g : α → List β) :
    ((leftMatches as).flatMap fun a => a.elim [] g) = as.flatMap g := by
  cases as with
  | nil => rfl
  | cons a as => simp [leftMatches, List.flatMap_map]

/-- The rows of the last of three tables, left joined in a row, are those
of the inner join. -/
theorem leftJoin_last (as : List α) (g : α → List β) :
    ((leftMatches as).flatMap fun a =>
        (leftMatches (a.elim [] g)).map fun b => (a, b)).filterMap Prod.snd
      = as.flatMap g := by
  rw [List.filterMap_flatMap, ← flatMap_leftMatches as g]
  apply congrArg (fun f => (leftMatches as).flatMap f)
  funext a
  rw [List.filterMap_map]
  exact filterMap_leftMatches _

/-- Where each row of the first has one match, those of the join are its
rows. -/
theorem leftJoin_first {as : List α} {g : α → List β}
    (h : ∀ a ∈ as, (g a).length = 1) :
    ((leftMatches as).flatMap fun a =>
        (leftMatches (a.elim [] g)).map fun b => (a, b)).filterMap Prod.fst
      = as := by
  have hrow : ∀ a ∈ as, ((leftMatches (g a)).map fun b =>
      (some a, b)).filterMap Prod.fst = [a] := by
    intro a ha
    obtain ⟨b, hb⟩ := List.length_eq_one_iff.1 (h a ha)
    rw [hb]
    rfl
  rw [List.filterMap_flatMap]
  cases as with
  | nil => rfl
  | cons a as =>
      rw [leftMatches, List.flatMap_map]
      exact (List.flatMap_congr hrow).trans (List.flatMap_singleton' _)

-- ================================================================ groups

/-- `d.setdefault(k, []).append(a)`. -/
def addTo (k : ι) (a : α) : List (ι × List α) → List (ι × List α)
  | [] => [(k, [a])]
  | (k', as) :: d =>
      if k' = k then (k', as ++ [a]) :: d else (k', as) :: addTo k a d

/-- The rows by key, each group in order. -/
def groups (key : α → ι) (l : List α) : List (ι × List α) :=
  l.foldl (fun d a => addTo (key a) a d) []

/-- A dict of groups whose keys are distinct and which holds just the rows
of a list. -/
structure GroupsOf (key : α → ι) (l : List α) (d : List (ι × List α)) :
    Prop where
  keys : (d.map Prod.fst).Nodup
  rows : ∀ k as, (k, as) ∈ d ↔ as ≠ [] ∧ as = l.filter fun a => key a = k

/-- A new key comes last, a known one stays where it is. -/
theorem addTo_keys (k : ι) (a : α) (d : List (ι × List α)) :
    (addTo k a d).map Prod.fst
      = if k ∈ d.map Prod.fst then d.map Prod.fst
        else d.map Prod.fst ++ [k] := by
  induction d with
  | nil => rfl
  | cons e d ih =>
      obtain ⟨k₀, bs⟩ := e
      by_cases hk : k₀ = k
      · simp [addTo, hk]
      · have hk' : ¬ k = k₀ := fun h => hk h.symm
        rw [addTo, if_neg hk, List.map_cons, ih]
        by_cases hin : k ∈ d.map Prod.fst
        · have hin' : k ∈ ((k₀, bs) :: d).map Prod.fst :=
            List.mem_cons_of_mem _ hin
          rw [if_pos hin, if_pos hin']
          rfl
        · have hnot : k ∉ ((k₀, bs) :: d).map Prod.fst := by
            rw [List.map_cons, List.mem_cons]
            exact not_or.2 ⟨hk', hin⟩
          rw [if_neg hin, if_neg hnot]
          rfl

/-- The other groups are left alone. -/
theorem mem_addTo_of_ne {k k' : ι} {a : α} {as : List α}
    {d : List (ι × List α)} (hne : k' ≠ k) :
    (k', as) ∈ addTo k a d ↔ (k', as) ∈ d := by
  induction d with
  | nil => simp [addTo, hne]
  | cons e d ih =>
      obtain ⟨k₀, bs⟩ := e
      by_cases hk : k₀ = k
      · simp [addTo, hk, hne]
      · simp [addTo, hk, ih]

/-- The group of the key gets the row at its end. -/
theorem mem_addTo_self {k : ι} {a : α} {as : List α}
    {d : List (ι × List α)} (h : (d.map Prod.fst).Nodup) :
    (k, as) ∈ addTo k a d
      ↔ (∃ bs, (k, bs) ∈ d ∧ as = bs ++ [a])
        ∨ (k ∉ d.map Prod.fst ∧ as = [a]) := by
  induction d with
  | nil => simp [addTo]
  | cons e d ih =>
      obtain ⟨k₀, bs⟩ := e
      rw [List.map_cons, List.nodup_cons] at h
      obtain ⟨h₀, hd⟩ := h
      by_cases hk : k₀ = k
      · subst hk
        have hrest : ∀ cs, (k₀, cs) ∉ d :=
          fun cs hcs => h₀ (List.mem_map.2 ⟨_, hcs, rfl⟩)
        simp [addTo, hrest]
      · have hk' : ¬ k = k₀ := fun h => hk h.symm
        simp only [addTo, if_neg hk, List.mem_cons, Prod.mk.injEq, hk',
          false_and, false_or, ih hd, List.map_cons]

/-- One more row. -/
theorem GroupsOf.append {key : α → ι} {l : List α} {d : List (ι × List α)}
    (h : GroupsOf key l d) (a : α) :
    GroupsOf key (l ++ [a]) (addTo (key a) a d) := by
  constructor
  · rw [addTo_keys]
    by_cases hin : key a ∈ d.map Prod.fst
    · rw [if_pos hin]
      exact h.keys
    · rw [if_neg hin]
      simpa using h.keys.concat hin
  · intro k as
    by_cases hk : k = key a
    · subst hk
      rw [mem_addTo_self h.keys, List.filter_append]
      have hone : [a].filter (fun b => key b = key a) = [a] := by simp
      rw [hone]
      constructor
      · intro h
        rcases h with ⟨bs, hbs, rfl⟩ | ⟨hnew, rfl⟩
        · rw [← ((h.rows _ _).1 hbs).2]
          exact ⟨by simp, rfl⟩
        · refine ⟨by simp, ?_⟩
          have hnone : l.filter (fun b => key b = key a) = [] := by
            by_contra hsome
            apply hnew
            exact List.mem_map_of_mem ((h.rows _ _).2 ⟨hsome, rfl⟩)
          rw [hnone, List.nil_append]
      · intro h
        obtain ⟨-, rfl⟩ := h
        by_cases hnone : l.filter (fun b => key b = key a) = []
        · right
          refine ⟨?_, by rw [hnone, List.nil_append]⟩
          intro hin
          obtain ⟨⟨k', bs⟩, hbs, hkey⟩ := List.mem_map.1 hin
          simp only at hkey
          subst hkey
          obtain ⟨hne, hbs⟩ := (h.rows _ _).1 hbs
          exact hne (hbs.trans hnone)
        · left
          exact ⟨_, (h.rows _ _).2 ⟨hnone, rfl⟩, rfl⟩
    · have hzero : [a].filter (fun b => key b = k) = [] := by
        simp [Ne.symm hk]
      rw [mem_addTo_of_ne hk, h.rows, List.filter_append, hzero,
        List.append_nil]

theorem GroupsOf.foldl {key : α → ι} {l rest : List α}
    {d : List (ι × List α)} (h : GroupsOf key l d) :
    GroupsOf key (l ++ rest)
      (rest.foldl (fun d a => addTo (key a) a d) d) := by
  induction rest generalizing l d with
  | nil => simpa using h
  | cons a rest ih =>
      have h' := ih (h.append a)
      rwa [List.append_assoc] at h'

/-- Grouping loses no row, and mixes no two keys. -/
theorem groups_groupsOf (key : α → ι) (l : List α) :
    GroupsOf key l (groups key l) := by
  have hstart : GroupsOf key ([] : List α) [] := by
    constructor
    · exact List.nodup_nil
    · intro k as
      simp
  exact hstart.foldl

end Proofstand.Tables
