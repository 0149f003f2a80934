/-
Computations that may fail: sequencing taken apart, lists read entry by
entry, and the rules for a loop whose body may fail.

# The loop rules

`foldlM_total` is for a body that never fails from a state that has the
invariant; `foldlM_keeps` for a loop known to have returned; `foldlM_at`
stops such a loop at one entry of its list, and `foldlM_take_keeps` is
for an invariant that counts or refers to the entries done; `foldlM_rel`
for two loops over one list that have both returned, under a condition
on the steps of the first (`AlongRun`); `foldlM_map` for two loops whose
steps a map of states takes one to the other, failures included.
-/
import Mathlib.Tactic

namespace Proofstand.Fallible

variable {ε α β γ : Type}

-- ========================================================= one sequence

/-- A sequence has returned exactly when both its parts have. -/
theorem bind_eq_ok {x : Except ε α} {f : α → Except ε β} {b : β} :
    x >>= f = .ok b ↔ ∃ a, x = .ok a ∧ f a = .ok b := by
  cases x with
  | error e =>
      constructor
      · intro h
        cases h
      · intro h
        obtain ⟨a, h, -⟩ := h
        cases h
  | ok a =>
      constructor
      · intro h
        exact ⟨a, rfl, h⟩
      · intro h
        obtain ⟨a', h, hb⟩ := h
        cases h
        exact hb

@[simp] theorem ok_bind (a : α) (f : α → Except ε β) :
    (Except.ok a >>= f) = f a := rfl

@[simp] theorem pure_eq_ok (a : α) : (pure a : Except ε α) = .ok a := rfl

/-- A sequence returns where its first part does and every continuation
it may reach. -/
theorem bind_total {x : Except ε α} {f : α → Except ε β}
    (hx : ∃ a, x = .ok a) (hf : ∀ a, x = .ok a → ∃ b, f a = .ok b) :
    ∃ b, x >>= f = .ok b := by
  obtain ⟨a, ha⟩ := hx
  obtain ⟨b, hb⟩ := hf a ha
  exact ⟨b, bind_eq_ok.2 ⟨a, ha, hb⟩⟩

/-- Two continuations that agree wherever they are reached. -/
theorem bind_congr_ok {x : Except ε α} {f g : α → Except ε β}
    (h : ∀ a, x = .ok a → f a = g a) : x >>= f = x >>= g := by
  cases x with
  | error e => rfl
  | ok a => exact h a rfl

/-- A function of a sequence's result is one of its second part's. -/
theorem map_bind (x : Except ε α) (f : α → Except ε β) (φ : β → γ) :
    (x >>= f).map φ = x >>= fun a => (f a).map φ := by
  cases x <;> rfl

/-- A continuation of a mapped result takes the function in. -/
theorem bind_map (x : Except ε α) (φ : α → β) (f : β → Except ε γ) :
    x.map φ >>= f = x >>= fun a => f (φ a) := by
  cases x <;> rfl

/-- Continuing with a test: the result of a computation that returned and
whose value passes. -/
def okAnd (x : Except ε α) (p : α → Bool) : Bool :=
  match x with
  | .ok a => p a
  | .error _ => false

theorem exists_of_okAnd {x : Except ε α} {p : α → Bool}
    (h : okAnd x p = true) : ∃ a, x = .ok a ∧ p a = true := by
  cases x with
  | error e => cases h
  | ok a => exact ⟨a, rfl, h⟩

-- ========================================================= entry by entry

/-- A loop has returned exactly when it has for the first entry and for the
rest. -/
theorem mapM_cons_eq_ok {f : α → Except ε β} {a : α} {l : List α}
    {m : List β} :
    (a :: l).mapM f = .ok m
      ↔ ∃ b m', f a = .ok b ∧ l.mapM f = .ok m' ∧ m = b :: m' := by
  rw [List.mapM_cons, bind_eq_ok]
  constructor
  · intro h
    obtain ⟨b, hb, h⟩ := h
    obtain ⟨m', hm', h⟩ := bind_eq_ok.1 h
    cases h
    exact ⟨b, m', hb, hm', rfl⟩
  · intro h
    obtain ⟨b, m', hb, hm', rfl⟩ := h
    exact ⟨b, hb, bind_eq_ok.2 ⟨m', hm', rfl⟩⟩

theorem mapM_length {f : α → Except ε β} {l : List α} {m : List β}
    (h : l.mapM f = .ok m) : m.length = l.length := by
  induction l generalizing m with
  | nil =>
      cases h
      rfl
  | cons a l ih =>
      obtain ⟨b, m', -, hm', rfl⟩ := mapM_cons_eq_ok.1 h
      rw [List.length_cons, List.length_cons, ih hm']

/-- An entry of the list is read, and its value is the entry in place. -/
theorem mapM_getElem? {f : α → Except ε β} {l : List α} {m : List β}
    (h : l.mapM f = .ok m) {i : Nat} {a : α} (ha : l[i]? = some a) :
    ∃ b, f a = .ok b ∧ m[i]? = some b := by
  induction l generalizing m i with
  | nil => simp at ha
  | cons c l ih =>
      obtain ⟨b, m', hb, hm', rfl⟩ := mapM_cons_eq_ok.1 h
      match i with
      | 0 =>
          have hca : c = a := by simpa using ha
          subst hca
          exact ⟨b, hb, rfl⟩
      | i + 1 => exact ih hm' (by simpa using ha)

/-- The values of the entries, and nothing else. -/
theorem mem_mapM_iff {f : α → Except ε β} {l : List α} {m : List β}
    (h : l.mapM f = .ok m) {b : β} :
    b ∈ m ↔ ∃ a ∈ l, f a = .ok b := by
  induction l generalizing m with
  | nil =>
      cases h
      simp
  | cons a l ih =>
      obtain ⟨c, m', hc, hm', rfl⟩ := mapM_cons_eq_ok.1 h
      rw [List.mem_cons, ih hm', List.exists_mem_cons_iff, hc,
        Except.ok.injEq, eq_comm]

theorem mapM_total {f : α → Except ε β} {l : List α}
    (h : ∀ a ∈ l, ∃ b, f a = .ok b) : ∃ m, l.mapM f = .ok m := by
  induction l with
  | nil => exact ⟨[], rfl⟩
  | cons a l ih =>
      obtain ⟨b, hb⟩ := h a List.mem_cons_self
      obtain ⟨m, hm⟩ := ih fun c hc => h c (List.mem_cons_of_mem a hc)
      exact ⟨b :: m, mapM_cons_eq_ok.2 ⟨b, m, hb, hm, rfl⟩⟩

/-- What was written entry by entry reads back. -/
theorem mapM_map_eq_ok {f : β → Except ε α} {g : α → β}
    (h : ∀ a, f (g a) = .ok a) (l : List α) :
    (l.map g).mapM f = .ok l := by
  induction l with
  | nil => rfl
  | cons a l ih =>
      rw [List.map_cons]
      exact mapM_cons_eq_ok.2 ⟨a, l, h a, ih, rfl⟩

-- ================================================================= loops

/-- A loop whose body succeeds and keeps `P` succeeds and keeps `P`. -/
theorem foldlM_total {P : β → Prop} {f : β → α → Except ε β} {l : List α}
    (h : ∀ s a, a ∈ l → P s → ∃ s', f s a = .ok s' ∧ P s') {s : β}
    (hs : P s) : ∃ s', l.foldlM f s = .ok s' ∧ P s' := by
  induction l generalizing s with
  | nil => exact ⟨s, rfl, hs⟩
  | cons a l ih =>
      obtain ⟨s₁, hstep, hs₁⟩ := h s a List.mem_cons_self hs
      obtain ⟨s', hrest, hs'⟩ :=
        ih (fun s b hb => h s b (List.mem_cons_of_mem a hb)) hs₁
      refine ⟨s', ?_, hs'⟩
      rw [List.foldlM_cons, hstep, ok_bind, hrest]

/-- What every step keeps, the loop keeps. -/
theorem foldlM_keeps {P : β → Prop} {f : β → α → Except ε β} {l : List α}
    (h : ∀ s a s', a ∈ l → P s → f s a = .ok s' → P s') {s s' : β}
    (hs : P s) (hrun : l.foldlM f s = .ok s') : P s' := by
  induction l generalizing s with
  | nil =>
      cases hrun
      exact hs
  | cons a l ih =>
      rw [List.foldlM_cons, bind_eq_ok] at hrun
      obtain ⟨s₁, hstep, hrest⟩ := hrun
      apply ih (fun s b s' hb => h s b s' (List.mem_cons_of_mem a hb))
      · exact h s a s₁ List.mem_cons_self hs hstep
      · exact hrest

/-- A loop that returned, stopped at an entry: the state it comes to the
entry in, the state it leaves it in, and the rest of the run. -/
theorem foldlM_at {f : β → α → Except ε β} {l : List α} {s s' : β}
    (hrun : l.foldlM f s = .ok s') {i : Nat} {a : α} (ha : l[i]? = some a) :
    ∃ t t', (l.take i).foldlM f s = .ok t ∧ f t a = .ok t'
      ∧ (l.take (i + 1)).foldlM f s = .ok t'
      ∧ (l.drop (i + 1)).foldlM f t' = .ok s' := by
  induction l generalizing i s with
  | nil => simp at ha
  | cons c l ih =>
      rw [List.foldlM_cons, bind_eq_ok] at hrun
      obtain ⟨s₁, hstep, hrest⟩ := hrun
      match i with
      | 0 =>
          have hca : c = a := by simpa using ha
          subst hca
          refine ⟨s, s₁, rfl, hstep, ?_, hrest⟩
          rw [List.take_succ_cons, List.take_zero, List.foldlM_cons, hstep]
          rfl
      | i + 1 =>
          obtain ⟨t, t', ht, hat, ht', hsuffix⟩ := ih hrest (by simpa using ha)
          refine ⟨t, t', ?_, hat, ?_, hsuffix⟩
          · rw [List.take_succ_cons, List.foldlM_cons, hstep, ok_bind, ht]
          · rw [List.take_succ_cons, List.foldlM_cons, hstep, ok_bind, ht']

/-- What the start has and every step of the run keeps, `P n` after the
first `n` entries, holds after each of its prefixes. -/
theorem foldlM_take_keeps {P : Nat → β → Prop} {f : β → α → Except ε β}
    {l : List α} {s : β} (hstart : P 0 s)
    (hstep : ∀ n a t t', l[n]? = some a → (l.take n).foldlM f s = .ok t →
      P n t → f t a = .ok t' → P (n + 1) t')
    {n : Nat} (hn : n ≤ l.length) {t : β}
    (hrun : (l.take n).foldlM f s = .ok t) : P n t := by
  induction n generalizing t with
  | zero =>
      cases hrun
      exact hstart
  | succ n ih =>
      have ha : l[n]? = some l[n] := List.getElem?_eq_getElem hn
      rw [List.take_add_one, ha, List.foldlM_append] at hrun
      obtain ⟨t₁, ht₁, hlast⟩ := bind_eq_ok.1 hrun
      have hone : f t₁ l[n] = .ok t := by
        simpa only [Option.toList_some, List.foldlM_cons, List.foldlM_nil,
          bind_pure] using hlast
      exact hstep n l[n] t₁ t ha ht₁ (ih (by omega) ht₁) hone

/-- `P` holds before every step the loop takes, of the state it is in and
the element it comes to. -/
def AlongRun (f : β → α → Except ε β) (P : β → α → Prop) : β → List α → Prop
  | _, [] => True
  | s, a :: l => P s a ∧ ∀ s', f s a = .ok s' → AlongRun f P s' l

/-- What holds of every state and element holds along every run. -/
theorem alongRun_of_forall {f : β → α → Except ε β} {P : β → α → Prop}
    (h : ∀ s a, P s a) {s : β} {l : List α} : AlongRun f P s l := by
  induction l generalizing s with
  | nil => exact trivial
  | cons a l ih => exact ⟨h s a, fun s' _ => ih⟩

/-- What a step of one loop and a step of the other keep between their
states, where `P` holds along the first, the loops keep. -/
theorem foldlM_rel {R : β → β → Prop} {P : β → α → Prop}
    {f g : β → α → Except ε β} {l : List α}
    (h : ∀ s t a s' t', P s a → R s t → f s a = .ok s' → g t a = .ok t'
      → R s' t')
    {s t s' t' : β} (hP : AlongRun f P s l) (hst : R s t)
    (hf : l.foldlM f s = .ok s') (hg : l.foldlM g t = .ok t') : R s' t' := by
  induction l generalizing s t with
  | nil =>
      cases hf
      cases hg
      exact hst
  | cons a l ih =>
      obtain ⟨hPs, hrest⟩ := hP
      rw [List.foldlM_cons, bind_eq_ok] at hf hg
      obtain ⟨s₁, hf₁, hfrest⟩ := hf
      obtain ⟨t₁, hg₁, hgrest⟩ := hg
      apply ih (hrest s₁ hf₁)
      · exact h s t a s₁ t₁ hPs hst hf₁ hg₁
      · exact hfrest
      · exact hgrest

/-- A loop commutes with a map of states that its steps commute with. -/
theorem foldlM_map {φ : β → γ} {f : β → α → Except ε β}
    {g : γ → α → Except ε γ} (h : ∀ s a, g (φ s) a = (f s a).map φ)
    (s : β) (l : List α) : l.foldlM g (φ s) = (l.foldlM f s).map φ := by
  induction l generalizing s with
  | nil => rfl
  | cons a l ih =>
      rw [List.foldlM_cons, List.foldlM_cons, h, bind_map, map_bind]
      apply bind_congr
      intro t
      exact ih t

end Proofstand.Fallible
