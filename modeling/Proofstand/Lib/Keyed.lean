/-
Dicts that are filled in a loop, each row under a key of its own.

The loop reads a row from each entry of a list and puts it under its key,
over what was there. It returns exactly when every entry is read
(`fill_returns_iff`), and then a key holds the row of the last entry that
has it (`lookup_fill_iff`). `last` is told by an order of the entries, so
that a list in strict order needs no splitting at positions.

# Positions by an order

That an entry is the last one with its key is said without indices:
`LastRow` asks that no entry further on, by an order in which the list is
strictly increasing, is read to a row of that key. A cons of such a list
has its head before all the rest, so the induction of `lookup_fill_from`
has one step (`lastRow_cons_iff`): the last row of a key is that of the
rest, or the head's where the rest has none.

The induction runs over the list with the dict that is filled free, and
says of a key either that the list decides it or that it holds what it
held before; `lookup_fill_iff` is the case of an empty dict.
-/
import Proofstand.Lib.Fallible

namespace Proofstand.Keyed

open Fallible

variable {ε α β κ : Type} [DecidableEq κ]

-- =============================================================== one key

/-- `d[k] = v`. -/
def put (k : κ) (v : β) : List (κ × β) → List (κ × β)
  | [] => [(k, v)]
  | (k', v') :: d => if k' = k then (k, v) :: d else (k', v') :: put k v d

theorem lookup_cons_if (k k' : κ) (v : β) (d : List (κ × β)) :
    ((k, v) :: d).lookup k' = if k' = k then some v else d.lookup k' := by
  by_cases hk : k' = k
  · simp [hk]
  · rw [List.lookup_cons, beq_false_of_ne hk, if_neg hk]

theorem lookup_put (k k' : κ) (v : β) (d : List (κ × β)) :
    (put k v d).lookup k' = if k' = k then some v else d.lookup k' := by
  induction d with
  | nil => exact lookup_cons_if k k' v []
  | cons e d ih =>
      obtain ⟨k₀, v₀⟩ := e
      by_cases h₀ : k₀ = k
      · subst h₀
        rw [put, if_pos rfl, lookup_cons_if, lookup_cons_if]
        by_cases hk : k' = k₀
        · rw [if_pos hk, if_pos hk]
        · rw [if_neg hk, if_neg hk, if_neg hk]
      · rw [put, if_neg h₀, lookup_cons_if, lookup_cons_if, ih]
        by_cases hk : k' = k₀
        · subst hk
          rw [if_pos rfl, if_neg h₀, if_pos rfl]
        · rw [if_neg hk, if_neg hk]

-- ============================================================== the loop

/-- `for a in l: b = f(a); d[key(b)] = b`. -/
def fill (key : β → κ) (f : α → Except ε β) (d : List (κ × β))
    (l : List α) : Except ε (List (κ × β)) :=
  l.foldlM (fun d a => do
    let b ← f a
    pure (put (key b) b d)) d

theorem fill_cons (key : β → κ) (f : α → Except ε β) (d : List (κ × β))
    (a : α) (l : List α) :
    fill key f d (a :: l)
      = f a >>= fun b => fill key f (put (key b) b d) l := by
  rw [fill, List.foldlM_cons, bind_assoc]
  rfl

/-- The loop returns exactly when every entry is read. -/
theorem fill_returns_iff {key : β → κ} {f : α → Except ε β}
    {d : List (κ × β)} {l : List α} :
    (∃ out, fill key f d l = .ok out) ↔ ∀ a ∈ l, ∃ b, f a = .ok b := by
  induction l generalizing d with
  | nil => simp [fill]
  | cons a l ih =>
      rw [List.forall_mem_cons, fill_cons]
      constructor
      · intro hreturns
        obtain ⟨out, hout⟩ := hreturns
        obtain ⟨b, hb, hrest⟩ := bind_eq_ok.1 hout
        exact ⟨⟨b, hb⟩, ih.1 ⟨out, hrest⟩⟩
      · intro hread
        obtain ⟨⟨b, hb⟩, hl⟩ := hread
        obtain ⟨out, hout⟩ := ih.2 hl
        exact ⟨out, bind_eq_ok.2 ⟨b, hb, hout⟩⟩

section

variable {ι : Type} [Preorder ι] {pos : α → ι}

/-- The row `b` is read from an entry that is the last to have its key. -/
def LastRow (key : β → κ) (f : α → Except ε β) (pos : α → ι) (l : List α)
    (k : κ) (b : β) : Prop :=
  ∃ a ∈ l, f a = .ok b ∧ key b = k
    ∧ ∀ c ∈ l, pos a < pos c → ∀ b', f c = .ok b' → key b' ≠ k

omit [DecidableEq κ] in
/-- The last entry with a key is the first one, and no other has it, or it
is the last of the rest. -/
theorem lastRow_cons_iff {key : β → κ} {f : α → Except ε β} {a : α}
    {l : List α} {k : κ} {b : β} (hlater : ∀ c ∈ l, pos a < pos c) :
    LastRow key f pos (a :: l) k b
      ↔ LastRow key f pos l k b
        ∨ f a = .ok b ∧ key b = k
          ∧ ∀ c ∈ l, ∀ b', f c = .ok b' → key b' ≠ k := by
  constructor
  · intro hrow
    obtain ⟨c, hc, hread, hkey, hlast⟩ := hrow
    rcases List.mem_cons.1 hc with rfl | hc
    · right
      exact ⟨hread, hkey, fun c' hc' =>
        hlast c' (List.mem_cons_of_mem c hc') (hlater c' hc')⟩
    · left
      exact ⟨c, hc, hread, hkey, fun c' hc' =>
        hlast c' (List.mem_cons_of_mem a hc')⟩
  · intro hrow
    rcases hrow with ⟨c, hc, hread, hkey, hlast⟩ | ⟨hread, hkey, hnone⟩
    · refine ⟨c, List.mem_cons_of_mem a hc, hread, hkey, ?_⟩
      intro c' hc' hpos
      rcases List.mem_cons.1 hc' with rfl | hc'
      · exact absurd hpos (lt_asymm (hlater c hc))
      · exact hlast c' hc' hpos
    · refine ⟨a, List.mem_cons_self, hread, hkey, ?_⟩
      intro c hc hpos
      rcases List.mem_cons.1 hc with rfl | hc
      · exact absurd hpos (lt_irrefl _)
      · exact hnone c hc

/-- What a key holds after the loop: the row of the last entry that has
it, or what it held before if none has. -/
theorem lookup_fill_from {key : β → κ} {f : α → Except ε β}
    {d out : List (κ × β)} {l : List α}
    (horder : l.Pairwise fun a c => pos a < pos c)
    (hout : fill key f d l = .ok out) {k : κ} {b : β} :
    out.lookup k = some b
      ↔ LastRow key f pos l k b
        ∨ d.lookup k = some b
          ∧ ∀ a ∈ l, ∀ b', f a = .ok b' → key b' ≠ k := by
  induction l generalizing d with
  | nil =>
      cases hout
      simp [LastRow]
  | cons a l ih =>
      obtain ⟨hlater, horder⟩ := List.pairwise_cons.1 horder
      rw [fill_cons] at hout
      obtain ⟨b₀, hb₀, hrest⟩ := bind_eq_ok.1 hout
      rw [ih horder hrest, lastRow_cons_iff hlater, List.forall_mem_cons,
        lookup_put, or_assoc]
      apply or_congr_right
      by_cases hk : k = key b₀
      · -- the row read here is put over what the key held
        rw [if_pos hk, hb₀]
        constructor
        · intro hheld
          obtain ⟨hb, hnone⟩ := hheld
          obtain rfl : b₀ = b := Option.some.inj hb
          exact Or.inl ⟨rfl, hk.symm, hnone⟩
        · intro hrow
          rcases hrow with ⟨hb, -, hnone⟩ | ⟨-, hfirst, -⟩
          · obtain rfl : b₀ = b := Except.ok.inj hb
            exact ⟨rfl, hnone⟩
          · exact absurd hk.symm (hfirst b₀ rfl)
      · rw [if_neg hk, hb₀]
        constructor
        · intro hold
          obtain ⟨hheld, hnone⟩ := hold
          refine Or.inr ⟨hheld, ?_, hnone⟩
          intro b' hb'
          obtain rfl : b₀ = b' := Except.ok.inj hb'
          exact fun hkey => hk hkey.symm
        · intro hrow
          rcases hrow with ⟨hb, hkey, -⟩ | ⟨hheld, -, hnone⟩
          · obtain rfl : b₀ = b := Except.ok.inj hb
            exact absurd hkey.symm hk
          · exact ⟨hheld, hnone⟩

/-- From an empty dict, a key holds the row of the last entry that has
it. -/
theorem lookup_fill_iff {key : β → κ} {f : α → Except ε β}
    {out : List (κ × β)} {l : List α}
    (horder : l.Pairwise fun a c => pos a < pos c)
    (hout : fill key f [] l = .ok out) {k : κ} {b : β} :
    out.lookup k = some b ↔ LastRow key f pos l k b := by
  rw [lookup_fill_from horder hout]
  simp

end

end Proofstand.Keyed
