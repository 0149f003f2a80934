/-
Pair trees: the levels a bottom-up pairwise reduction goes through, the
sibling path that leads from one entry to the top, and what the top
says about the entries below it.

A level is a list; the level above joins neighbours, and an odd last
entry is joined with itself. `join` is any binary function. Two facts
about it are used, each only where it is needed:

- commutativity, for completeness (`climb_siblings`): a climber who
  does not know on which side it stands still reaches the top;
- unordered injectivity (`PairInjective`), for binding
  (`climb_mem_levels`, `mem_iff_of_levelUp`): a joined value determines
  its two parts up to their order.

# The height

`levels join l (Nat.clog 2 l.length)` is a singleton on every non-empty
`l` (`levels_top`): halving rounded up reaches one after exactly
`clog 2` steps, whatever the parities on the way.
-/
import Mathlib

namespace Proofstand.PairTree

variable {α : Type} (join : α → α → α)

-- ========================================================== the levels

/-- One level up: neighbours joined, an odd last entry joined with
itself. -/
def levelUp : List α → List α
  | [] => []
  | [a] => [join a a]
  | a :: b :: rest => join a b :: levelUp rest

/-- The `k`-th level above `l`. -/
def levels (l : List α) (k : Nat) : List α := (levelUp join)^[k] l

/-- The value a climber reaches from `x` along `path`. -/
def climb (x : α) (path : List α) : α := path.foldl join x

/-- The partner of entry `i`: its neighbour, or itself at an odd tail. -/
def sibling (l : List α) (i : Nat) : Option α :=
  if i + 1 = l.length ∧ l.length % 2 = 1 then l[i]? else l[i ^^^ 1]?

@[simp] theorem levels_zero (l : List α) : levels join l 0 = l := rfl

theorem levels_succ (l : List α) (k : Nat) :
    levels join l (k + 1) = levelUp join (levels join l k) :=
  Function.iterate_succ_apply' _ _ _

/-- The same level, counted from the level above. -/
theorem levels_succ' (l : List α) (k : Nat) :
    levels join l (k + 1) = levels join (levelUp join l) k :=
  Function.iterate_succ_apply _ _ _

@[simp] theorem climb_nil (x : α) : climb join x [] = x := rfl

@[simp] theorem climb_cons (x s : α) (path : List α) :
    climb join x (s :: path) = climb join (join x s) path := rfl

theorem climb_snoc (x s : α) (path : List α) :
    climb join x (path ++ [s]) = join (climb join x path) s := by
  simp [climb]

-- ========================================================== the height

theorem levelUp_length (l : List α) :
    (levelUp join l).length = (l.length + 1) / 2 := by
  induction l using levelUp.induct with
  | case1 => simp [levelUp]
  | case2 a => simp [levelUp]
  | case3 a b rest ih =>
      simp only [levelUp, List.length_cons, ih]
      omega

/-- The top is reached after exactly `clog 2` steps, and it is a single
entry. -/
theorem levels_top (l : List α) (hl : 0 < l.length) :
    (levels join l (Nat.clog 2 l.length)).length = 1 := by
  induction hn : l.length using Nat.strong_induction_on generalizing l with
  | _ n ih =>
      subst hn
      by_cases h1 : l.length = 1
      · simp [h1]
      · have h2 : 2 ≤ l.length := by omega
        have hup := levelUp_length join l
        have hlt : (levelUp join l).length < l.length := by omega
        have hpos : 0 < (levelUp join l).length := by omega
        have htop := ih _ hlt (levelUp join l) hpos rfl
        rw [Nat.clog_of_two_le (by omega) h2, levels_succ']
        rw [hup] at htop
        exact htop

-- ======================================================= completeness

/-- Flipping the last bit of an index: the other half of its pair. -/
theorem xor_one (i : Nat) :
    i ^^^ 1 = if i % 2 = 0 then i + 1 else i - 1 := by
  split
  case isTrue h => exact Nat.xor_one_of_even (Nat.even_iff.mpr h)
  case isFalse h =>
      exact Nat.xor_one_of_odd (Nat.odd_iff.mpr (Nat.mod_two_ne_zero.mp h))

/-- Every entry in range has a sibling. -/
theorem sibling_isSome {l : List α} {i : Nat} (hi : i < l.length) :
    ∃ s, sibling l i = some s := by
  unfold sibling
  split
  case isTrue => exact ⟨l[i], List.getElem?_eq_getElem hi⟩
  case isFalse hodd =>
      have hx : i ^^^ 1 < l.length := by
        rw [xor_one]
        split <;> omega
      exact ⟨l[i ^^^ 1], List.getElem?_eq_getElem hx⟩

/-- Two entries further down, the sibling is the tail's own. -/
theorem sibling_cons_cons (a b : α) (rest : List α) (i : Nat) :
    sibling (a :: b :: rest) (i + 2) = sibling rest i := by
  have hx : (i + 2) ^^^ 1 = (i ^^^ 1) + 2 := by
    rw [xor_one, xor_one]
    split <;> split <;> omega
  unfold sibling
  rw [hx]
  simp only [List.length_cons, List.getElem?_cons_succ]
  congr 1
  simp only [eq_iff_iff]
  omega

/-- One step of the climb: an entry joined with its sibling is the node
above it, when `join` does not look at the order. -/
theorem levelUp_step (hcomm : ∀ a b, join a b = join b a) {l : List α}
    {i : Nat} {a s : α} (ha : l[i]? = some a)
    (hs : sibling l i = some s) :
    (levelUp join l)[i / 2]? = some (join a s) := by
  induction l using levelUp.induct generalizing i with
  | case1 => simp at ha
  | case2 b =>
      match i with
      | 0 =>
          simp only [List.getElem?_cons_zero, Option.some.injEq] at ha
          have hbs : b = s := by simpa [sibling] using hs
          subst ha hbs
          rfl
      | i + 1 => simp at ha
  | case3 b c rest ih =>
      match i with
      | 0 =>
          simp only [List.getElem?_cons_zero, Option.some.injEq] at ha
          have hcs : c = s := by simpa [sibling] using hs
          subst ha hcs
          rfl
      | 1 =>
          have hca : c = a := by simpa using ha
          have hbs : b = s := by
            rw [sibling, if_neg (by
              intro h
              obtain ⟨h, hodd⟩ := h
              simp only [List.length_cons] at h hodd
              omega)] at hs
            simpa using hs
          subst hca hbs
          show some (join b c) = some (join c b)
          rw [hcomm]
      | i + 2 =>
          rw [sibling_cons_cons] at hs
          have hdiv : (i + 2) / 2 = i / 2 + 1 := by omega
          rw [hdiv]
          exact ih (by simpa using ha) hs

/-- The siblings met on the way up from entry `i`, one a level. -/
inductive Siblings : List α → Nat → List α → Prop
  | nil (l : List α) (i : Nat) : Siblings l i []
  | cons {l : List α} {i : Nat} {s : α} {path : List α} :
      sibling l i = some s → Siblings (levelUp join l) (i / 2) path →
      Siblings l i (s :: path)

/-- Climbing along the siblings of entry `i` follows the levels: after
`k` steps the climber stands on the `k`-th level, above `i`. -/
theorem climb_siblings (hcomm : ∀ a b, join a b = join b a) {l : List α}
    {i : Nat} {a : α} {path : List α} (ha : l[i]? = some a)
    (hp : Siblings join l i path) :
    (levels join l path.length)[i / 2 ^ path.length]?
      = some (climb join a path) := by
  induction hp generalizing a with
  | nil l i => simpa using ha
  | @cons l i s path hs _ ih =>
      have hup := levelUp_step join hcomm ha hs
      have h := ih hup
      rw [List.length_cons, levels_succ', pow_succ', ← Nat.div_div_eq_div_mul]
      exact h

-- ===================================================== node properties

/-- What joins have and every entry has, every node above has. -/
theorem levelUp_all {P : α → Prop} (hjoin : ∀ a b, P (join a b))
    (l : List α) : ∀ x ∈ levelUp join l, P x := by
  intro x hx
  induction l using levelUp.induct with
  | case1 => cases hx
  | case2 a =>
      rw [List.mem_singleton.1 hx]
      exact hjoin a a
  | case3 a b rest ih =>
      rcases List.mem_cons.1 hx with rfl | hrest
      · exact hjoin a b
      · exact ih hrest

/-- What holds of the leaves and of every join holds on every level. -/
theorem levels_all {P : α → Prop} (hjoin : ∀ a b, P (join a b))
    {l : List α} (hl : ∀ x ∈ l, P x) (k : Nat) :
    ∀ x ∈ levels join l k, P x := by
  cases k with
  | zero => exact hl
  | succ k =>
      rw [levels_succ]
      exact levelUp_all join hjoin _

/-- The same of the siblings met on the way up. -/
theorem siblings_all {P : α → Prop} (hjoin : ∀ a b, P (join a b))
    {l : List α} (hl : ∀ x ∈ l, P x) {i : Nat} {path : List α}
    (hp : Siblings join l i path) : ∀ s ∈ path, P s := by
  induction hp with
  | nil => simp
  | @cons l i s path hs _ ih =>
      intro t ht
      rcases List.mem_cons.1 ht with rfl | ht
      · unfold sibling at hs
        split at hs
        · exact hl t (List.mem_of_getElem? hs)
        · exact hl t (List.mem_of_getElem? hs)
      · exact ih (levelUp_all join hjoin l) t ht

-- ============================================================ binding

/-- A joined value determines its two parts, up to their order. -/
def PairInjective : Prop :=
  ∀ a b c d, join a b = join c d → (a = c ∧ b = d) ∨ (a = d ∧ b = c)

/-- Every node above is a join of two entries below. -/
theorem mem_levelUp {l : List α} {x : α} (hx : x ∈ levelUp join l) :
    ∃ a ∈ l, ∃ b ∈ l, x = join a b := by
  induction l using levelUp.induct with
  | case1 => cases hx
  | case2 a =>
      have hxa : x = join a a := by simpa [levelUp] using hx
      exact ⟨a, by simp, a, by simp, hxa⟩
  | case3 a b rest ih =>
      rcases List.mem_cons.1 hx with rfl | hrest
      · exact ⟨a, by simp, b, by simp, rfl⟩
      · obtain ⟨c, hc, d, hd, rfl⟩ := ih hrest
        exact ⟨c, by simp [hc], d, by simp [hd], rfl⟩

/-- Every entry below is part of a node above. -/
theorem mem_part_of_levelUp {l : List α} {x : α} (hx : x ∈ l) :
    ∃ a b, join a b ∈ levelUp join l ∧ (x = a ∨ x = b) := by
  induction l using levelUp.induct with
  | case1 => cases hx
  | case2 a =>
      exact ⟨a, a, by simp [levelUp], Or.inl (List.mem_singleton.1 hx)⟩
  | case3 a b rest ih =>
      rcases List.mem_cons.1 hx with rfl | hx
      · exact ⟨x, b, by simp [levelUp], Or.inl rfl⟩
      · rcases List.mem_cons.1 hx with rfl | hx
        · exact ⟨a, x, by simp [levelUp], Or.inr rfl⟩
        · obtain ⟨c, d, hmem, hor⟩ := ih hx
          exact ⟨c, d, by simp [levelUp, hmem], hor⟩

/-- A part of a node above is an entry below. -/
theorem mem_of_join_mem (hinj : PairInjective join) {l : List α} {a b : α}
    (h : join a b ∈ levelUp join l) : a ∈ l ∧ b ∈ l := by
  obtain ⟨c, hc, d, hd, he⟩ := mem_levelUp join h
  rcases hinj _ _ _ _ he with ⟨rfl, rfl⟩ | ⟨rfl, rfl⟩
  · exact ⟨hc, hd⟩
  · exact ⟨hd, hc⟩

/-- Binding: a climb that ends on the `k`-th level started on the level
its length says. A climb of at most `k` steps started `path.length`
levels below; a longer one passed through an entry of `l` itself, `k`
steps before its end. -/
theorem climb_mem_levels (hinj : PairInjective join) {l : List α} {x : α}
    {path : List α} {k : Nat} (h : climb join x path ∈ levels join l k) :
    (path.length ≤ k → x ∈ levels join l (k - path.length))
      ∧ (k ≤ path.length →
          climb join x (path.take (path.length - k)) ∈ l) := by
  induction path using List.reverseRecOn generalizing k with
  | nil =>
      refine ⟨fun _ => by simpa using h, fun hk => ?_⟩
      have hk0 : k = 0 := by simpa using hk
      subst hk0
      simpa using h
  | append_singleton path s ih =>
      cases k with
      | zero =>
          refine ⟨fun hle => by simp at hle, fun _ => ?_⟩
          rw [Nat.sub_zero, List.take_length]
          exact h
      | succ k =>
          rw [climb_snoc, levels_succ] at h
          have hbelow := ih (mem_of_join_mem join hinj h).1
          have hlen : (path ++ [s]).length = path.length + 1 := by simp
          refine ⟨fun hle => ?_, fun hle => ?_⟩
          · rw [hlen, Nat.add_sub_add_right]
            exact hbelow.1 (by omega)
          · rw [hlen, Nat.add_sub_add_right,
              List.take_append_of_le_length (by omega)]
            exact hbelow.2 (by omega)

/-- Equal members above are equal members below. -/
theorem mem_iff_of_levelUp (hinj : PairInjective join) {l m : List α}
    (h : ∀ x, x ∈ levelUp join l ↔ x ∈ levelUp join m) :
    ∀ x, x ∈ l ↔ x ∈ m := by
  have half : ∀ {l m : List α},
      (∀ x, x ∈ levelUp join l ↔ x ∈ levelUp join m) →
      ∀ x, x ∈ l → x ∈ m := by
    intro l m h x hx
    obtain ⟨a, b, hab, hor⟩ := mem_part_of_levelUp join hx
    have hm := mem_of_join_mem join hinj ((h _).1 hab)
    rcases hor with rfl | rfl
    · exact hm.1
    · exact hm.2
  exact fun x => ⟨half h x, half (fun y => (h y).symm) x⟩

/-- Equal members at the `k`-th level are equal members at the bottom. -/
theorem mem_iff_of_levels (hinj : PairInjective join) {l m : List α}
    {k : Nat} (h : ∀ x, x ∈ levels join l k ↔ x ∈ levels join m k) :
    ∀ x, x ∈ l ↔ x ∈ m := by
  induction k with
  | zero => exact h
  | succ k ih =>
      rw [levels_succ, levels_succ] at h
      exact ih (mem_iff_of_levelUp join hinj h)

/-- The two parts of a joined value, as an unordered pair. -/
noncomputable def parts (x : α) : Multiset α :=
  open Classical in
  if h : ∃ p : α × α, x = join p.1 p.2 then {h.choose.1, h.choose.2} else 0

/-- A join's parts are what was joined, where joins are injective. -/
theorem parts_join (hinj : PairInjective join) (a b : α) :
    parts join (join a b) = {a, b} := by
  have h : ∃ p : α × α, join a b = join p.1 p.2 := ⟨(a, b), rfl⟩
  rw [parts, dif_pos h]
  rcases hinj _ _ _ _ h.choose_spec with ⟨ha, hb⟩ | ⟨ha, hb⟩
  · rw [← ha, ← hb]
  · rw [← ha, ← hb]
    exact Multiset.pair_comm b a

/-- Below a level that came from an even one lie its nodes' parts. -/
theorem bind_parts_levelUp (hinj : PairInjective join) {l : List α}
    (heven : l.length % 2 = 0) :
    (levelUp join l : Multiset α).bind (parts join) = l := by
  induction l using levelUp.induct with
  | case1 => rfl
  | case2 a => simp at heven
  | case3 a b rest ih =>
      have hrest : rest.length % 2 = 0 := by
        simp only [List.length_cons] at heven
        omega
      rw [levelUp, ← Multiset.cons_coe, Multiset.cons_bind,
        parts_join join hinj, ih hrest]
      rfl

/-- Under a tree without odd tails, equal multisets at the `k`-th level
are equal multisets at the bottom. -/
theorem perm_of_levels (hinj : PairInjective join) {l m : List α} {k n : Nat}
    (hl : l.length = 2 ^ k * n) (hm : m.length = 2 ^ k * n)
    (h : (levels join l k).Perm (levels join m k)) : l.Perm m := by
  induction k generalizing l m with
  | zero => exact h
  | succ k ih =>
      have hpow : 2 ^ (k + 1) * n = 2 * (2 ^ k * n) := by
        rw [pow_succ]
        ring
      rw [levels_succ', levels_succ'] at h
      have hup := ih (by rw [levelUp_length, hl]; omega)
        (by rw [levelUp_length, hm]; omega) h
      have hbind := congrArg (fun s => Multiset.bind s (parts join))
        (Multiset.coe_eq_coe.2 hup)
      rw [bind_parts_levelUp join hinj (by omega),
        bind_parts_levelUp join hinj (by omega)] at hbind
      exact Multiset.coe_eq_coe.1 hbind

end Proofstand.PairTree
