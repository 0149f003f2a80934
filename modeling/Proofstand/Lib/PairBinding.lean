/-
What a top says of the entries below it where `join` is not injective.

No join to a finite type is, so `PairInjective` is asked only of the
pairs that were joined: those of one tree against those of another
(`Tells`). Two trees of one height whose tops agree then have the same
entries, whoever built the second.

# Why both trees are named

A collision anywhere below either top could make the tops agree, so the
pairs of both trees are needed, and no others: a join may well collide
outside them. `Tells` is therefore a relation between two finite lists of
pairs, symmetric (`Tells.symm`) and smaller for smaller lists
(`Tells.mono`), and it can be checked for two given trees by listing their
joins.

The induction goes down from the top, a level at a time. That the entries
of the upper levels agree is the hypothesis, and a joined value then gives
up its two parts (`mem_of_levelUp_subset`), which are entries below; an
unpaired last entry is a pair with itself and needs no case of its own.
-/
import Proofstand.Lib.PairTree

namespace Proofstand.PairTree

variable {α : Type} (join : α → α → α)

-- ============================================================= the pairs

/-- The pairs one level joins. -/
def pairs : List α → List (α × α)
  | [] => []
  | [a] => [(a, a)]
  | a :: b :: rest => (a, b) :: pairs rest

/-- The pairs joined below the `k`-th level. -/
def joined (l : List α) : Nat → List (α × α)
  | 0 => []
  | k + 1 => joined l k ++ pairs (levels join l k)

/-- `join` tells the pairs of `ps` from those of `qs`, up to the order in
a pair. -/
def Tells (ps qs : List (α × α)) : Prop :=
  ∀ p ∈ ps, ∀ q ∈ qs, join p.1 p.2 = join q.1 q.2 →
    (p.1 = q.1 ∧ p.2 = q.2) ∨ (p.1 = q.2 ∧ p.2 = q.1)

theorem levelUp_eq_map (l : List α) :
    levelUp join l = (pairs l).map fun p => join p.1 p.2 := by
  induction l using levelUp.induct with
  | case1 => rfl
  | case2 a => rfl
  | case3 a b rest ih => rw [levelUp, pairs, List.map_cons, ih]

/-- An entry is a part of some pair. -/
theorem exists_pair {l : List α} {x : α} (hx : x ∈ l) :
    ∃ p ∈ pairs l, x = p.1 ∨ x = p.2 := by
  induction l using pairs.induct with
  | case1 => cases hx
  | case2 a =>
      exact ⟨(a, a), List.mem_singleton_self _,
        Or.inl (List.mem_singleton.1 hx)⟩
  | case3 a b rest ih =>
      rcases List.mem_cons.1 hx with rfl | hx
      · exact ⟨(x, b), List.mem_cons_self, Or.inl rfl⟩
      · rcases List.mem_cons.1 hx with rfl | hx
        · exact ⟨(a, x), List.mem_cons_self, Or.inr rfl⟩
        · obtain ⟨p, hp, hor⟩ := ih hx
          exact ⟨p, List.mem_cons_of_mem _ hp, hor⟩

/-- The parts of a pair are entries. -/
theorem mem_of_pair {l : List α} {p : α × α} (hp : p ∈ pairs l) :
    p.1 ∈ l ∧ p.2 ∈ l := by
  induction l using pairs.induct with
  | case1 => cases hp
  | case2 a =>
      rw [List.mem_singleton.1 hp]
      exact ⟨List.mem_singleton_self a, List.mem_singleton_self a⟩
  | case3 a b rest ih =>
      rcases List.mem_cons.1 hp with rfl | hp
      · exact ⟨List.mem_cons_self, List.mem_cons_of_mem _ List.mem_cons_self⟩
      · obtain ⟨h1, h2⟩ := ih hp
        exact ⟨List.mem_cons_of_mem _ (List.mem_cons_of_mem _ h1),
          List.mem_cons_of_mem _ (List.mem_cons_of_mem _ h2)⟩

-- =============================================================== binding

variable {join}

theorem Tells.symm {ps qs : List (α × α)} (h : Tells join ps qs) :
    Tells join qs ps := by
  intro q hq p hp heq
  rcases h p hp q hq heq.symm with ⟨h1, h2⟩ | ⟨h1, h2⟩
  · exact Or.inl ⟨h1.symm, h2.symm⟩
  · exact Or.inr ⟨h2.symm, h1.symm⟩

theorem Tells.mono {ps ps' qs qs' : List (α × α)} (h : Tells join ps qs)
    (hp : ∀ p ∈ ps', p ∈ ps) (hq : ∀ q ∈ qs', q ∈ qs) :
    Tells join ps' qs' :=
  fun p hmem q hmem' => h p (hp p hmem) q (hq q hmem')

/-- Members above that the other level has too come from members below
that it has too. -/
theorem mem_of_levelUp_subset {l m : List α}
    (htells : Tells join (pairs l) (pairs m))
    (h : ∀ x ∈ levelUp join l, x ∈ levelUp join m) : ∀ x ∈ l, x ∈ m := by
  intro x hx
  obtain ⟨p, hp, hor⟩ := exists_pair hx
  have hup : join p.1 p.2 ∈ levelUp join m := by
    apply h
    rw [levelUp_eq_map]
    exact List.mem_map.2 ⟨p, hp, rfl⟩
  rw [levelUp_eq_map] at hup
  obtain ⟨q, hq, heq⟩ := List.mem_map.1 hup
  obtain ⟨hq1, hq2⟩ := mem_of_pair hq
  rcases htells p hp q hq heq.symm with ⟨h1, h2⟩ | ⟨h1, h2⟩
  · rcases hor with rfl | rfl
    · exact h1 ▸ hq1
    · exact h2 ▸ hq2
  · rcases hor with rfl | rfl
    · exact h1 ▸ hq2
    · exact h2 ▸ hq1

/-- Trees whose `k`-th levels have the same members have the same members
at the bottom, where `join` tells the pairs of one from the other's. -/
theorem mem_iff_of_tells {l m : List α} {k : Nat}
    (htells : Tells join (joined join l k) (joined join m k))
    (h : ∀ x, x ∈ levels join l k ↔ x ∈ levels join m k) :
    ∀ x, x ∈ l ↔ x ∈ m := by
  induction k with
  | zero => exact h
  | succ k ih =>
      rw [levels_succ, levels_succ] at h
      have hlevel : Tells join (pairs (levels join l k))
          (pairs (levels join m k)) :=
        htells.mono (fun p hp => List.mem_append_right _ hp)
          fun q hq => List.mem_append_right _ hq
      refine ih (htells.mono (fun p hp => List.mem_append_left _ hp)
        fun q hq => List.mem_append_left _ hq) fun x => ⟨?_, ?_⟩
      · exact mem_of_levelUp_subset hlevel (fun y hy => (h y).1 hy) x
      · exact mem_of_levelUp_subset hlevel.symm (fun y hy => (h y).2 hy) x

end Proofstand.PairTree
