/-
Executable transition systems: a partial step function, its runs, and
the rules by which a fact about one step becomes a fact about a run.

# The rules

- `run_invariant`: what every step keeps, a run keeps;
- `run_stable`: a reflexive, transitive relation that every step from
  an invariant state respects relates the two ends of a run;
- `run_invariant_of_guard`, `run_stable_of_guard`: the same for what only
  the steps meeting a guard keep, on runs all of whose steps do;
- `run_invariant_along`: what every step into a state with some property
  keeps, on runs all of whose states have it;
- `exists_unguarded`: the first step of a run that does not meet it;
- `guarded_or_of_run`: where that step leads somewhere no step leads out
  of, a run meets the guard throughout or ends there;
- `run_simulated`: where each step looks like a run of another system, so
  does a run;
- `run_cached`: what each step leaves or takes afresh from the state is, in
  the end, what it was or what the state showed at some moment.

Each rule takes the state's standing invariant separately, so that one
induction over a system's structural facts serves every later result.
-/
import Mathlib

namespace Proofstand.Transition

variable {σ α : Type} (step : σ → α → Option σ)

-- ================================================================ runs

/-- The state after a list of actions, if each was enabled. -/
def run (s : σ) : List α → Option σ
  | [] => some s
  | a :: as => (step s a).bind fun s' => run s' as

@[simp] theorem run_nil (s : σ) : run step s [] = some s := rfl

/-- A run is a first step and a run from there. -/
theorem run_cons_eq_some {s s' : σ} {a : α} {as : List α} :
    run step s (a :: as) = some s'
      ↔ ∃ t, step s a = some t ∧ run step t as = some s' :=
  Option.bind_eq_some_iff

theorem run_append (s : σ) (as bs : List α) :
    run step s (as ++ bs) = (run step s as).bind fun t => run step t bs := by
  induction as generalizing s with
  | nil => rfl
  | cons a as ih =>
      rw [List.cons_append, run, run]
      cases h : step s a with
      | none => rfl
      | some t => exact ih t

/-- A run of two parts has a state in between. -/
theorem run_append_eq_some {s s' : σ} {as bs : List α} :
    run step s (as ++ bs) = some s'
      ↔ ∃ t, run step s as = some t ∧ run step t bs = some s' := by
  rw [run_append, Option.bind_eq_some_iff]

/-- Every step of the run meets `guard`, each in the state it is taken
in. -/
def guarded (guard : σ → α → Bool) (s : σ) : List α → Bool
  | [] => true
  | a :: as => guard s a && (step s a).all fun s' => guarded guard s' as

theorem guarded_append {guard : σ → α → Bool} {s t : σ} {as bs : List α}
    (hrun : run step s as = some t) :
    guarded step guard s (as ++ bs)
      = (guarded step guard s as && guarded step guard t bs) := by
  induction as generalizing s with
  | nil =>
      injection hrun with h
      rw [h]
      rfl
  | cons a as ih =>
      obtain ⟨u, hu, hrest⟩ := (run_cons_eq_some step).1 hrun
      rw [List.cons_append, guarded, guarded, hu, Option.all_some,
        Option.all_some, ih hrest, Bool.and_assoc]

/-- A guard that admits every action holds along every run of them. -/
theorem guarded_of_forall {guard : σ → α → Bool} {s t : σ} {as : List α}
    (hguard : ∀ s, ∀ a ∈ as, guard s a = true)
    (hrun : run step s as = some t) : guarded step guard s as = true := by
  induction as generalizing s with
  | nil => rfl
  | cons a as ih =>
      obtain ⟨u, hu, hrest⟩ := (run_cons_eq_some step).1 hrun
      rw [guarded, hguard s a List.mem_cons_self, hu, Option.all_some,
        ih (fun s b hb => hguard s b (List.mem_cons_of_mem a hb)) hrest]
      rfl

/-- `Q` holds in every state the run leads to. -/
def Along (Q : σ → Prop) (s : σ) (as : List α) : Prop :=
  ∀ bs t, bs <+: as → run step s bs = some t → Q t

-- =============================================================== rules

section

variable {step} {Inv : σ → Prop}

theorem run_invariant
    (hstep : ∀ {s a s'}, Inv s → step s a = some s' → Inv s')
    {s s' : σ} {as : List α} (hs : Inv s) (hrun : run step s as = some s') :
    Inv s' := by
  induction as generalizing s with
  | nil =>
      injection hrun with h
      exact h ▸ hs
  | cons a as ih =>
      obtain ⟨t, ht, hrest⟩ := (run_cons_eq_some step).1 hrun
      exact ih (hstep hs ht) hrest

/-- A preorder between a state and its next, under an invariant, is one
between the ends of a run. -/
theorem run_stable {R : σ → σ → Prop}
    (hinv : ∀ {s a s'}, Inv s → step s a = some s' → Inv s')
    (hrefl : ∀ s, R s s) (htrans : ∀ {s t u}, R s t → R t u → R s u)
    (hstep : ∀ {s a s'}, Inv s → step s a = some s' → R s s')
    {s s' : σ} {as : List α} (hs : Inv s) (hrun : run step s as = some s') :
    R s s' := by
  induction as generalizing s with
  | nil =>
      injection hrun with h
      exact h ▸ hrefl s
  | cons a as ih =>
      obtain ⟨t, ht, hrest⟩ := (run_cons_eq_some step).1 hrun
      exact htrans (hstep hs ht) (ih (hinv hs ht) hrest)

/-- What a step keeps where the guard admits it, a guarded run keeps. -/
theorem run_invariant_of_guard {guard : σ → α → Bool} {P : σ → Prop}
    (hinv : ∀ {s a s'}, Inv s → step s a = some s' → Inv s')
    (hstep : ∀ {s a s'}, Inv s → guard s a = true → P s →
      step s a = some s' → P s')
    {s s' : σ} {as : List α} (hs : Inv s) (hP : P s)
    (hguard : guarded step guard s as = true)
    (hrun : run step s as = some s') : P s' := by
  induction as generalizing s with
  | nil =>
      injection hrun with h
      exact h ▸ hP
  | cons a as ih =>
      obtain ⟨t, ht, hrest⟩ := (run_cons_eq_some step).1 hrun
      rw [guarded, Bool.and_eq_true, ht, Option.all_some] at hguard
      exact ih (hinv hs ht) (hstep hs hguard.1 hP ht) hguard.2 hrest

theorem along_cons {Q : σ → Prop} {s t : σ} {a : α} {as : List α}
    (h : Along step Q s (a :: as)) (ht : step s a = some t) :
    Q t ∧ Along step Q t as := by
  have hrun : ∀ bs u, run step t bs = some u →
      run step s (a :: bs) = some u := fun bs u hu =>
    (run_cons_eq_some step).2 ⟨t, ht, hu⟩
  refine ⟨h [a] t ?_ (hrun [] t rfl), fun bs u hbs hu => ?_⟩
  · exact ⟨as, rfl⟩
  · exact h (a :: bs) u ((List.prefix_cons_inj a).2 hbs) (hrun bs u hu)

theorem along_nil {Q : σ → Prop} {s : σ} (hs : Q s) : Along step Q s [] := by
  intro bs t hbs ht
  rw [List.prefix_nil] at hbs
  rw [hbs, run_nil, Option.some.injEq] at ht
  exact ht ▸ hs

theorem along_of_cons {Q : σ → Prop} {s t : σ} {a : α} {as : List α}
    (hs : Q s) (ht : step s a = some t) (h : Along step Q t as) :
    Along step Q s (a :: as) := by
  intro bs u hbs hu
  cases bs with
  | nil =>
      rw [run_nil, Option.some.injEq] at hu
      exact hu ▸ hs
  | cons b bs =>
      obtain ⟨rfl, hpart⟩ := List.cons_prefix_cons.1 hbs
      obtain ⟨t', ht', hrest⟩ := (run_cons_eq_some step).1 hu
      rw [ht, Option.some.injEq] at ht'
      exact h bs u hpart (ht' ▸ hrest)

/-- What a step into a state with `Q` keeps, a run along which `Q` holds
keeps. -/
theorem run_invariant_along {Q : σ → Prop} {s s' : σ} {as : List α}
    (hstep : ∀ {s a s'}, Inv s → a ∈ as → Q s' → step s a = some s' →
      Inv s')
    (hs : Inv s) (halong : Along step Q s as)
    (hrun : run step s as = some s') : Inv s' := by
  induction as generalizing s with
  | nil =>
      injection hrun with h
      exact h ▸ hs
  | cons a as ih =>
      obtain ⟨t, ht, hrest⟩ := (run_cons_eq_some step).1 hrun
      obtain ⟨hQ, hothers⟩ := along_cons halong ht
      refine ih (fun hi ha => hstep hi (List.mem_cons_of_mem _ ha)) ?_
        hothers hrest
      exact hstep hs List.mem_cons_self hQ ht

/-- The same with a guard in the place of the invariant. -/
theorem run_stable_of_guard {guard : σ → α → Bool} {R : σ → σ → Prop}
    (hrefl : ∀ s, R s s) (htrans : ∀ {s t u}, R s t → R t u → R s u)
    (hstep : ∀ {s a s'}, guard s a = true → step s a = some s' → R s s')
    {s s' : σ} {as : List α} (hguard : guarded step guard s as = true)
    (hrun : run step s as = some s') : R s s' := by
  induction as generalizing s with
  | nil =>
      injection hrun with h
      exact h ▸ hrefl s
  | cons a as ih =>
      obtain ⟨t, ht, hrest⟩ := (run_cons_eq_some step).1 hrun
      rw [guarded, Bool.and_eq_true, ht, Option.all_some] at hguard
      exact htrans (hstep hguard.1 ht) (ih hguard.2 hrest)

/-- Where a run does not meet the guard throughout, there is a step of it
that does not. -/
theorem exists_unguarded {guard : σ → α → Bool} {s s' : σ} {as : List α}
    (hrun : run step s as = some s')
    (hguard : guarded step guard s as = false) :
    ∃ p a q u v, as = p ++ a :: q ∧ run step s p = some u
      ∧ guard u a = false ∧ step u a = some v ∧ run step v q = some s' := by
  induction as generalizing s with
  | nil => cases hguard
  | cons a as ih =>
      obtain ⟨t, ht, hrest⟩ := (run_cons_eq_some step).1 hrun
      cases hg : guard s a with
      | false => exact ⟨[], a, as, s, t, rfl, rfl, hg, ht, hrest⟩
      | true =>
          rw [guarded, hg, ht, Option.all_some, Bool.true_and] at hguard
          obtain ⟨p, b, q, u, v, rfl, hp, hrest⟩ := ih hrest hguard
          exact ⟨a :: p, b, q, u, v, rfl,
            (run_cons_eq_some step).2 ⟨t, ht, hp⟩, hrest⟩

/-- A run either meets the guard throughout or ends where the first step
that did not led, if every step stays there. -/
theorem guarded_or_of_run {guard : σ → α → Bool} {P : σ → Prop}
    (hinv : ∀ {s a s'}, Inv s → step s a = some s' → Inv s')
    (hbreak : ∀ {s a s'}, Inv s → guard s a = false → step s a = some s' →
      P s')
    (hstay : ∀ {s a s'}, Inv s → P s → step s a = some s' → P s')
    {s s' : σ} {as : List α} (hs : Inv s) (hrun : run step s as = some s') :
    guarded step guard s as = true ∨ P s' := by
  induction as generalizing s with
  | nil => exact Or.inl rfl
  | cons a as ih =>
      obtain ⟨t, ht, hrest⟩ := (run_cons_eq_some step).1 hrun
      cases hg : guard s a with
      | false =>
          have hkeep : ∀ {s a s'}, Inv s ∧ P s → step s a = some s' →
              Inv s' ∧ P s' :=
            fun h hst => ⟨hinv h.1 hst, hstay h.1 h.2 hst⟩
          exact Or.inr
            (run_invariant hkeep ⟨hinv hs ht, hbreak hs hg ht⟩ hrest).2
      | true =>
          rcases ih (hinv hs ht) hrest with hrest | hP
          · refine Or.inl ?_
            rw [guarded, hg, ht, Option.all_some, hrest]
            rfl
          · exact Or.inr hP

/-- A run seen through a view under which every step is a run. -/
theorem run_simulated {τ β : Type} {step' : τ → β → Option τ} {view : σ → τ}
    (hstep : ∀ {s a s'}, step s a = some s' →
      ∃ bs, run step' (view s) bs = some (view s'))
    {s s' : σ} {as : List α} (hrun : run step s as = some s') :
    ∃ bs, run step' (view s) bs = some (view s') := by
  induction as generalizing s with
  | nil =>
      injection hrun with h
      exact ⟨[], h ▸ rfl⟩
  | cons a as ih =>
      obtain ⟨t, ht, hrest⟩ := (run_cons_eq_some step).1 hrun
      obtain ⟨bs, hbs⟩ := hstep ht
      obtain ⟨cs, hcs⟩ := ih hrest
      exact ⟨bs ++ cs, (run_append_eq_some step').2 ⟨view t, hbs, hcs⟩⟩

/-- A copy that a step may renew is as old as its last renewal. -/
theorem run_cached {β : Type} {copy view : σ → β}
    (hinv : ∀ {s a s'}, Inv s → step s a = some s' → Inv s')
    (hstep : ∀ {s a s'}, Inv s → step s a = some s' →
      copy s' = copy s ∨ copy s' = view s)
    {s s' : σ} {as : List α} (hs : Inv s) (hrun : run step s as = some s') :
    copy s' = copy s ∨ ∃ p q u, as = p ++ q ∧ run step s p = some u
      ∧ run step u q = some s' ∧ copy s' = view u := by
  induction as generalizing s with
  | nil =>
      injection hrun with h
      exact Or.inl (h ▸ rfl)
  | cons a as ih =>
      obtain ⟨t, ht, hrest⟩ := (run_cons_eq_some step).1 hrun
      rcases ih (hinv hs ht) hrest with hkept | ⟨p, q, u, rfl, hp, hq, hu⟩
      · rcases hstep hs ht with hsame | hview
        · exact Or.inl (hkept.trans hsame)
        · exact Or.inr ⟨[], a :: as, s, rfl, rfl, hrun,
            hkept.trans hview⟩
      · exact Or.inr ⟨a :: p, q, u, rfl,
          (run_cons_eq_some step).2 ⟨t, ht, hp⟩, hq, hu⟩

end

end Proofstand.Transition
