/-
Rows under keys, replaced or added: a statement's `ON CONFLICT … DO
UPDATE`.

After a row is upserted its key finds it and every other key finds what it
found (`find_upsert_self`, `find_upsert_other`); after a list of rows with
distinct keys, each of their keys finds its row (`find_upserts`), and where
they have all the keys there were, they are what is there
(`upserts_perm`).

# Replacing all

`upsert` either replaces the rows with the new row's key, each in its
place, or appends. Both keep the keys' order and their being distinct
(`nodup_upsert`), so after any list of rows the keys are the old ones and
the new ones (`mem_keys_upserts`).

Whoever recomputes a whole table row by row wants to know that nothing of
the old one is left. That is so where the new rows have all the keys of
the old (`upserts_perm`): each remaining row has a new row's key, a key is
found once, and what is found there is the new row (`find_upserts`). A
table with a key that is not recomputed keeps its old row for it, which is
`find_upserts_other`.
-/
import Mathlib.Tactic

namespace Proofstand.Upserts

variable {α ι : Type} [DecidableEq ι]

/-- The row in the place of the one with its key, or at the end. -/
def upsert (key : α → ι) (rows : List α) (row : α) : List α :=
  if rows.any fun r => key r = key row then
    rows.map fun r => if key r = key row then row else r
  else rows ++ [row]

/-- The first row with a key. -/
def find (key : α → ι) (rows : List α) (k : ι) : Option α :=
  rows.find? fun r => key r = k

variable {key : α → ι} {rows : List α} {row : α} {k : ι}

theorem find_eq_none_iff :
    find key rows k = none ↔ k ∉ rows.map key := by
  simp [find]

theorem find_key {r : α} (h : find key rows k = some r) : key r = k := by
  have hr := List.find?_some h
  exact of_decide_eq_true hr

theorem any_key_iff :
    (rows.any fun r => key r = key row) = true ↔ key row ∈ rows.map key := by
  simp

/-- The rows with their keys as they were. -/
theorem key_replaced (r : α) :
    key (if key r = key row then row else r) = key r := by
  split
  · exact Eq.symm (by assumption)
  · rfl

theorem keys_upsert : (upsert key rows row).map key
    = if key row ∈ rows.map key then rows.map key
      else rows.map key ++ [key row] := by
  unfold upsert
  by_cases hin : key row ∈ rows.map key
  · rw [if_pos hin, if_pos (any_key_iff.2 hin), List.map_map]
    apply List.map_congr_left
    intro r _
    exact key_replaced r
  · rw [if_neg hin, if_neg (fun h => hin (any_key_iff.1 h)),
      List.map_append]
    rfl

theorem mem_keys_upsert :
    k ∈ (upsert key rows row).map key ↔ k = key row ∨ k ∈ rows.map key := by
  rw [keys_upsert]
  split
  case isTrue hin =>
    constructor
    · exact Or.inr
    · intro h
      rcases h with rfl | h
      · exact hin
      · exact h
  case isFalse =>
    rw [List.mem_append, List.mem_singleton]
    exact or_comm

theorem find_replaced (k : ι) :
    find key (rows.map fun r => if key r = key row then row else r) k
      = (find key rows k).map
        fun r => if key r = key row then row else r := by
  unfold find
  rw [List.find?_map]
  apply congrArg (Option.map _)
  apply congrArg (fun p => rows.find? p)
  funext r
  have hsame : key (if key r = key row then row else r) = key r :=
    key_replaced r
  show decide (key _ = k) = decide (key r = k)
  rw [hsame]

theorem find_upsert_self :
    find key (upsert key rows row) (key row) = some row := by
  unfold upsert
  by_cases hin : key row ∈ rows.map key
  · rw [if_pos (any_key_iff.2 hin), find_replaced]
    cases hfind : find key rows (key row) with
    | none => exact absurd hin (find_eq_none_iff.1 hfind)
    | some r =>
        rw [Option.map_some, if_pos (find_key hfind)]
  · rw [if_neg (fun h => hin (any_key_iff.1 h)), find, List.find?_append,
      ← find, find_eq_none_iff.2 hin]
    simp

theorem find_upsert_other (hne : k ≠ key row) :
    find key (upsert key rows row) k = find key rows k := by
  unfold upsert
  split
  case isTrue =>
    rw [find_replaced]
    cases hfind : find key rows k with
    | none => rfl
    | some r =>
        have hr : key r ≠ key row := by
          rw [find_key hfind]
          exact hne
        rw [Option.map_some, if_neg hr]
  case isFalse =>
    have hlast : ¬ key row = k := fun h => hne h.symm
    rw [find, List.find?_append, ← find]
    simp [hlast]

-- ============================================================ several rows

theorem mem_keys_upserts (new : List α) :
    k ∈ (new.foldl (upsert key) rows).map key
      ↔ k ∈ new.map key ∨ k ∈ rows.map key := by
  induction new generalizing rows with
  | nil => simp
  | cons row new ih =>
      rw [List.foldl_cons, ih, mem_keys_upsert, List.map_cons,
        List.mem_cons]
      tauto

/-- A key none of the rows has keeps its row. -/
theorem find_upserts_other {new : List α} (hnot : k ∉ new.map key) :
    find key (new.foldl (upsert key) rows) k = find key rows k := by
  induction new generalizing rows with
  | nil => rfl
  | cons row new ih =>
      rw [List.map_cons, List.mem_cons, not_or] at hnot
      rw [List.foldl_cons, ih hnot.2, find_upsert_other hnot.1]

/-- Of rows with distinct keys, each is found. -/
theorem find_upserts {new : List α} (hnew : (new.map key).Nodup)
    (hrow : row ∈ new) :
    find key (new.foldl (upsert key) rows) (key row) = some row := by
  induction new generalizing rows with
  | nil => cases hrow
  | cons first new ih =>
      rw [List.map_cons, List.nodup_cons] at hnew
      rw [List.foldl_cons]
      rcases List.mem_cons.1 hrow with rfl | hrow
      · rw [find_upserts_other hnew.1, find_upsert_self]
      · exact ih hnew.2 hrow

theorem nodup_upsert (h : (rows.map key).Nodup) :
    ((upsert key rows row).map key).Nodup := by
  rw [keys_upsert]
  split
  case isTrue => exact h
  case isFalse hnot => simpa using h.concat hnot

theorem nodup_upserts {new : List α} (h : (rows.map key).Nodup) :
    ((new.foldl (upsert key) rows).map key).Nodup := by
  induction new generalizing rows with
  | nil => exact h
  | cons row new ih => exact ih (nodup_upsert h)

/-- A row is found under its key, which no other has. -/
theorem find_of_mem (h : (rows.map key).Nodup) (hrow : row ∈ rows) :
    find key rows (key row) = some row := by
  cases hfind : find key rows (key row) with
  | none =>
      exact absurd (List.mem_map_of_mem hrow) (find_eq_none_iff.1 hfind)
  | some r =>
      have hr := List.mem_of_find?_eq_some hfind
      rw [List.inj_on_of_nodup_map h hr hrow (find_key hfind)]

/-- Rows with all the keys there were take the place of what there was. -/
theorem upserts_perm {new : List α} (hrows : (rows.map key).Nodup)
    (hnew : (new.map key).Nodup)
    (hsub : ∀ k ∈ rows.map key, k ∈ new.map key) :
    (new.foldl (upsert key) rows).Perm new := by
  have hkeys : ((new.foldl (upsert key) rows).map key).Nodup :=
    nodup_upserts hrows
  rw [List.perm_ext_iff_of_nodup (List.Nodup.of_map key hkeys)
    (List.Nodup.of_map key hnew)]
  intro r
  constructor
  · intro hr
    have hin : key r ∈ new.map key := by
      rcases (mem_keys_upserts new).1 (List.mem_map_of_mem hr) with h | h
      · exact h
      · exact hsub _ h
    obtain ⟨n, hn, hkey⟩ := List.mem_map.1 hin
    have hfound : find key (new.foldl (upsert key) rows) (key n) = some n :=
      find_upserts hnew hn
    rw [hkey, find_of_mem hkeys hr] at hfound
    cases hfound
    exact hn
  · exact fun hr => List.mem_of_find?_eq_some (find_upserts hnew hr)

end Proofstand.Upserts
