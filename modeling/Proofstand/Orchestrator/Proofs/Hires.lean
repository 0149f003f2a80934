/-
When a cancelled hire is cancelled.

`_run` looks at the flag twice: before the harness, where it raises and
the hire comes to `failed`, and after it, for the final status. Between
the two looks nothing stops `run_hire`, and a call that is past its own
look at the status answers True whatever has happened since. So what a
True promises is kept by the runs that meet `honours` at each step
(`honoured_of_guarded`), and a run that does not meet it breaks the
promise as soon as the calls under way have answered
(`guarded_of_honoured`).

The runs are those of any interleaving: `Transition.run` from `start`,
with the steps of any number of calls between those of `_run`.
-/
import Proofstand.Orchestrator.Hires
import Proofstand.Orchestrator.Proofs.Persist

namespace Proofstand.Hires

open Session Persist Transition

variable {K S D P : Type}

-- ============================================================== the promise

/-- Past its look at the status: the call has answered True, or will. -/
def Call.accepted : Call → Bool
  | .passed | .marked | .returned true => true
  | .called | .returned false => false

/-- Some call has answered True. -/
def answered (s : State K) : Bool :=
  s.calls.any fun c => c = .returned true

/-- Some call has answered True, or will. -/
def accepted (s : State K) : Bool := s.calls.any Call.accepted

/-- Wherever the run `as` goes: once a call has answered True, no receipt
is written, and a hire that ends is cancelled. -/
def Honoured (job : Job K) (db : Db K) (as : List Act) : Prop :=
  ∀ p q r s t, as = p ++ q ++ r →
    run (step job) (start db) p = some s → run (step job) s q = some t →
    answered s = true →
      t.db.receipts = s.db.receipts
        ∧ (t.pc = .ended → t.hire.status = .cancelled)

/-- What a step needs to keep the promise: at the commit no call has
answered True, and at a status that is not `cancelled` no call has or
will. -/
def honours (job : Job K) (s : State K) : Act → Bool
  | .run .harness =>
      match (job.runHire s.db).1 with
      | .ok _ => !answered s
      | .error _ => true
  | .run .settle =>
      match s.pc with
      | .flagRead false => !accepted s
      | _ => true
  | .run .fail => !accepted s
  | _ => true

/-- The steps that bring a call to its answer. -/
def Act.answers : Act → Bool
  | .mark _ | .answer _ => true
  | _ => false

theorem honours_of_answers (job : Job K) (s : State K) {a : Act}
    (h : a.answers = true) : honours job s a = true := by
  cases a with
  | mark i => rfl
  | answer i => rfl
  | run r => cases h
  | call => cases h
  | look i => cases h

-- ==================================================================== calls

theorem accepted_of_answered {s : State K} (h : answered s = true) :
    accepted s = true := by
  obtain ⟨c, hc, hret⟩ := List.any_eq_true.1 h
  have hret' : c = .returned true := of_decide_eq_true hret
  exact List.any_eq_true.2 ⟨c, hc, by rw [hret']; rfl⟩

/-- An entry other than the one replaced is still there. -/
theorem mem_set_of_ne {α : Type} {l : List α} {i : Nat} {a b c : α}
    (hi : l[i]? = some a) (hb : b ∈ l) (hne : b ≠ a) : b ∈ l.set i c := by
  obtain ⟨j, hj, rfl⟩ := List.mem_iff_getElem.1 hb
  have hij : i ≠ j := by
    intro heq
    subst heq
    rw [List.getElem?_eq_getElem hj] at hi
    injection hi with hi
    exact hne hi
  rw [List.mem_iff_getElem]
  refine ⟨j, ?_, ?_⟩
  · rwa [List.length_set]
  · rw [List.getElem_set_ne hij]

/-- What a step of a call leaves, and what it adds: a call passes its look
only at a status that can be cancelled. -/
structure CallStep (s s' : State K) : Prop where
  pc : s'.pc = s.pc
  db : s'.db = s.db
  status : s'.hire.status = s.hire.status
  answered : answered s = true → answered s' = true
  accepted : accepted s = true → accepted s' = true
  passed : Hires.accepted s' = true →
    Hires.accepted s = true ∨ cancellable s.hire = true

/-- A call moves on. -/
theorem callStep_set {s : State K} {i : Nat} {c c' : Call} {h : Hire K}
    (hi : s.calls[i]? = some c) (hstatus : h.status = s.hire.status)
    (hret : c ≠ .returned true)
    (hkeep : c.accepted = true → c'.accepted = true)
    (hpass : c'.accepted = true →
      c.accepted = true ∨ cancellable s.hire = true) :
    CallStep s { s with hire := h, calls := s.calls.set i c' } where
  pc := rfl
  db := rfl
  status := hstatus
  answered := by
    intro hans
    obtain ⟨b, hb, hb'⟩ := List.any_eq_true.1 hans
    have hbr : b = .returned true := of_decide_eq_true hb'
    refine List.any_eq_true.2 ⟨b, mem_set_of_ne hi hb ?_, hb'⟩
    rw [hbr]
    exact fun heq => hret heq.symm
  accepted := by
    intro hacc
    obtain ⟨b, hb, hb'⟩ := List.any_eq_true.1 hacc
    by_cases hbc : b = c
    · have hlt := (List.getElem?_eq_some_iff.1 hi).1
      exact List.any_eq_true.2
        ⟨c', List.mem_set hlt c', hkeep (hbc ▸ hb')⟩
    · exact List.any_eq_true.2 ⟨b, mem_set_of_ne hi hb hbc, hb'⟩
  passed := by
    intro hacc
    obtain ⟨b, hb, hb'⟩ := List.any_eq_true.1 hacc
    rcases List.mem_or_eq_of_mem_set hb with hold | rfl
    · exact Or.inl (List.any_eq_true.2 ⟨b, hold, hb'⟩)
    · rcases hpass hb' with hc | hcan
      · exact Or.inl
          (List.any_eq_true.2 ⟨c, List.mem_of_getElem? hi, hc⟩)
      · exact Or.inr hcan

/-- Every step that is not one of `_run`'s is one of a call. -/
theorem callStep_of_step {job : Job K} {s s' : State K} {a : Act}
    (hcall : ∀ r, a ≠ .run r) (h : step job s a = some s') :
    CallStep s s' := by
  cases a with
  | run r => exact absurd rfl (hcall r)
  | call =>
      cases h
      refine ⟨rfl, rfl, rfl, ?_, ?_, ?_⟩
      · intro hans
        simp only [answered, List.any_append, Bool.or_eq_true]
        exact Or.inl hans
      · intro hacc
        simp only [accepted, List.any_append, Bool.or_eq_true]
        exact Or.inl hacc
      · intro hacc
        simp only [accepted, List.any_append, Bool.or_eq_true] at hacc
        rcases hacc with hacc | hnew
        · exact Or.inl hacc
        · cases hnew
  | look i =>
      simp only [step] at h
      split at h
      case h_2 => cases h
      case h_1 hi =>
        cases h
        refine callStep_set (h := s.hire) hi rfl (by simp) ?_ ?_
        · intro hacc
          cases hacc
        · intro hacc
          cases hcan : cancellable s.hire with
          | true => exact Or.inr rfl
          | false =>
              rw [hcan] at hacc
              cases hacc
  | mark i =>
      simp only [step] at h
      split at h
      case h_2 => cases h
      case h_1 hi =>
        cases h
        exact callStep_set hi rfl (by simp) (fun _ => rfl)
          fun _ => Or.inl rfl
  | answer i =>
      simp only [step] at h
      split at h
      case h_2 => cases h
      case h_1 hi =>
        cases h
        exact callStep_set (h := s.hire) hi rfl (by simp) (fun _ => rfl)
          fun _ => Or.inl rfl

-- ===================================================================== _run

/-- What a step of `_run` does to the tables and to the status, once it is
set. -/
inductive Ran (job : Job K) (s s' : State K) : RunStep → Prop
  | went {r : RunStep} (hr : r ≠ .harness ∧ r ≠ .settle ∧ r ≠ .fail)
      (hpc : s'.pc ≠ .ended) (hdb : s'.db = s.db) : Ran job s s' r
  | hired (hpc : s'.pc ≠ .ended) (hdb : s'.db = (job.runHire s.db).2) :
      Ran job s s' .harness
  | settled (flag : Bool) (hflag : s.pc = .flagRead flag)
      (hpc : s'.pc = .ended) (hdb : s'.db = s.db)
      (hstatus : s'.hire.status = if flag then .cancelled else .ok) :
      Ran job s s' .settle
  | failed (hpc : s'.pc = .ended) (hdb : s'.db = s.db)
      (hstatus : s'.hire.status = .failed) : Ran job s s' .fail

/-- And a step of `_run` leaves the calls alone. -/
theorem runStep_ran {job : Job K} {s s' : State K} {r : RunStep}
    (h : runStep job s r = some s') :
    s'.calls = s.calls ∧ Ran job s s' r := by
  cases r with
  | begin =>
      simp only [runStep] at h
      split at h
      case h_2 => cases h
      case h_1 =>
        cases h
        exact ⟨rfl, .went (by simp) (by simp) rfl⟩
  | build =>
      simp only [runStep] at h
      split at h
      case h_3 => cases h
      case h_1 =>
        cases h
        exact ⟨rfl, .went (by simp) (by simp) rfl⟩
      case h_2 =>
        cases h
        exact ⟨rfl, .went (by simp) (by simp) rfl⟩
  | check =>
      simp only [runStep] at h
      split at h
      case h_2 => cases h
      case h_1 =>
        split at h
        · cases h
          exact ⟨rfl, .went (by simp) (by simp) rfl⟩
        · cases h
          exact ⟨rfl, .went (by simp) (by simp) rfl⟩
  | emit =>
      simp only [runStep] at h
      split at h
      case h_2 => cases h
      case h_1 =>
        cases h
        exact ⟨rfl, .went (by simp) (by simp) rfl⟩
  | harness =>
      simp only [runStep] at h
      split at h
      case h_3 => cases h
      case h_1 _ hout =>
        cases h
        exact ⟨rfl, .hired (by simp) (by rw [hout])⟩
      case h_2 _ hout =>
        cases h
        exact ⟨rfl, .hired (by simp) (by rw [hout])⟩
  | done =>
      simp only [runStep] at h
      split at h
      case h_2 => cases h
      case h_1 =>
        cases h
        exact ⟨rfl, .went (by simp) (by simp) rfl⟩
  | readFlag =>
      simp only [runStep] at h
      split at h
      case h_2 => cases h
      case h_1 =>
        cases h
        exact ⟨rfl, .went (by simp) (by simp) rfl⟩
  | settle =>
      simp only [runStep] at h
      split at h
      case h_2 => cases h
      case h_1 flag hpc =>
        cases h
        exact ⟨rfl, .settled flag hpc rfl rfl rfl⟩
  | fail =>
      simp only [runStep] at h
      split at h
      case h_2 => cases h
      case h_1 =>
        cases h
        exact ⟨rfl, .failed rfl rfl rfl⟩

/-- Past its last assignment, `_run` does nothing. -/
theorem runStep_ended {job : Job K} {s : State K} {r : RunStep}
    (h : s.pc = .ended) : runStep job s r = none := by
  cases r <;> simp only [runStep, h]

/-- A hire that ended can not be cancelled any more. -/
def Closed (s : State K) : Prop :=
  s.pc = .ended → cancellable s.hire = false

/-- A hire that has not begun has not ended, -/
theorem closed_start (db : Db K) : Closed (start db) := by
  intro h
  cases h

/-- and every step keeps an ended hire from being cancelled. -/
theorem closed_step {job : Job K} {s s' : State K} {a : Act}
    (hs : Closed s) (h : step job s a = some s') : Closed s' := by
  by_cases hrun : ∃ r, a = .run r
  · obtain ⟨r, rfl⟩ := hrun
    obtain ⟨-, hran⟩ := runStep_ran h
    intro hended
    cases hran with
    | went _ hpc _ => exact absurd hended hpc
    | hired hpc _ => exact absurd hended hpc
    | settled flag _ _ _ hstatus =>
        cases flag <;> simp [cancellable, hstatus]
    | failed _ _ hstatus => simp [cancellable, hstatus]
  · have hcall := callStep_of_step (fun r hr => hrun ⟨r, hr⟩) h
    intro hended
    rw [hcall.pc] at hended
    have hsame : cancellable s'.hire = cancellable s.hire := by
      simp only [cancellable, hcall.status]
    rw [hsame]
    exact hs hended

-- ============================================================= honoured runs

/-- `run_hire` raises and leaves the receipts, or writes one. -/
def OneReceipt (job : Job K) : Prop :=
  ∀ db, ((∃ e, (job.runHire db).1 = .error e)
      ∧ (job.runHire db).2.receipts = db.receipts)
    ∨ (∃ hired, (job.runHire db).1 = .ok hired)
      ∧ ∃ r, (job.runHire db).2.receipts = db.receipts ++ [r]

theorem oneReceipt_ofAgent [Field K] [LinearOrder K] [DecidableEq P]
    (build : Py Unit) (sha : PyVal K → String)
    (baseline : PyVal K → Py (Result K)) (agent : LiveAgent K S D P)
    (tier : Nat) (inputs : Dict K) (sv : Server K) :
    OneReceipt (Job.ofAgent build sha baseline agent tier inputs sv) := by
  intro db
  rcases (runHire_whole sha baseline agent tier inputs none true sv db).1
    with hleft | ⟨-, hwrote⟩ | ⟨hfalse, -⟩
  · exact Or.inl ⟨hleft.1, hleft.2.2⟩
  · obtain ⟨hired, _, _, r, _, hok, -, hreceipts, -⟩ := hwrote
    exact Or.inr ⟨⟨hired, hok⟩, r, hreceipts⟩
  · cases hfalse

/-- No receipt after a True. -/
def NoneWritten (s s' : State K) : Prop :=
  answered s = true →
    s'.db.receipts = s.db.receipts ∧ answered s' = true

theorem NoneWritten.refl (s : State K) : NoneWritten s s :=
  fun h => ⟨rfl, h⟩

theorem NoneWritten.trans {s t u : State K} (hst : NoneWritten s t)
    (htu : NoneWritten t u) : NoneWritten s u := by
  intro h
  obtain ⟨hsame, ht⟩ := hst h
  obtain ⟨hsame', hu⟩ := htu ht
  exact ⟨hsame'.trans hsame, hu⟩

/-- A guarded step writes no receipt after a True. -/
theorem noneWritten_step {job : Job K} (hjob : OneReceipt job)
    {s s' : State K} {a : Act} (hguard : honours job s a = true)
    (h : step job s a = some s') : NoneWritten s s' := by
  intro hans
  by_cases hrun : ∃ r, a = .run r
  · obtain ⟨r, rfl⟩ := hrun
    obtain ⟨hcalls, hran⟩ := runStep_ran h
    refine ⟨?_, by rwa [answered, hcalls]⟩
    cases hran with
    | went _ _ hdb => rw [hdb]
    | settled _ _ _ hdb _ => rw [hdb]
    | failed _ hdb _ => rw [hdb]
    | hired _ hdb =>
        rw [hdb]
        rcases hjob s.db with ⟨-, hsame⟩ | ⟨⟨hired, hok⟩, -⟩
        · exact hsame
        · rw [honours, hok] at hguard
          simp [hans] at hguard
  · have hcall := callStep_of_step (fun r hr => hrun ⟨r, hr⟩) h
    exact ⟨by rw [hcall.db], hcall.answered hans⟩

/-- Ended otherwise than cancelled, and no call has answered True or
will. -/
def NothingOwed (s : State K) : Prop :=
  s.pc = .ended → s.hire.status ≠ .cancelled → accepted s = false

/-- At the start nothing has ended, -/
theorem nothingOwed_start (db : Db K) : NothingOwed (start db) := by
  intro h
  cases h

/-- and a guarded step ends nothing against a call's answer. -/
theorem nothingOwed_step {job : Job K} {s s' : State K} {a : Act} (hs : Closed s)
    (hguard : honours job s a = true) (howed : NothingOwed s)
    (h : step job s a = some s') : NothingOwed s' := by
  intro hended hstatus
  by_cases hrun : ∃ r, a = .run r
  · obtain ⟨r, rfl⟩ := hrun
    obtain ⟨hcalls, hran⟩ := runStep_ran h
    rw [accepted, hcalls]
    cases hran with
    | went _ hpc _ => exact absurd hended hpc
    | hired hpc _ => exact absurd hended hpc
    | settled flag hflag _ _ hset =>
        cases flag with
        | true => exact absurd hset hstatus
        | false =>
            rw [honours, hflag] at hguard
            exact Bool.not_eq_true' _ ▸ hguard
    | failed _ _ _ => exact Bool.not_eq_true' _ ▸ hguard
  · have hcall := callStep_of_step (fun r hr => hrun ⟨r, hr⟩) h
    rw [hcall.pc] at hended
    rw [hcall.status] at hstatus
    cases hacc : accepted s' with
    | false => rfl
    | true =>
        rcases hcall.passed hacc with hold | hcan
        · rw [howed hended hstatus] at hold
          cases hold
        · rw [hs hended] at hcan
          cases hcan

/-- A run whose steps all meet `honours` keeps what each True promised. -/
theorem honoured_of_guarded {job : Job K} (hjob : OneReceipt job)
    {db : Db K} {as : List Act} {s' : State K}
    (hrun : run (step job) (start db) as = some s')
    (hguard : guarded (step job) (honours job) (start db) as = true) :
    Honoured job db as := by
  intro p q r s t heq
  subst heq
  intro hp hq hans
  obtain ⟨t', ht', -⟩ := (run_append_eq_some (step job)).1 hrun
  have hguard := (Bool.and_eq_true_iff.1
    (guarded_append (step job) ht' ▸ hguard)).1
  have hfirst := Bool.and_eq_true_iff.1
    (guarded_append (step job) hp ▸ hguard)
  have hpq : run (step job) (start db) (p ++ q) = some t :=
    (run_append_eq_some (step job)).2 ⟨s, hp, hq⟩
  have hwritten : NoneWritten s t :=
    run_stable_of_guard NoneWritten.refl NoneWritten.trans
      (noneWritten_step hjob) hfirst.2 hq
  obtain ⟨hnone, hans'⟩ := hwritten hans
  refine ⟨hnone, ?_⟩
  intro hended
  by_contra hstatus
  have howed : NothingOwed t :=
    run_invariant_of_guard closed_step nothingOwed_step (closed_start db)
      (nothingOwed_start db) hguard hpq
  have hnone := howed hended hstatus
  rw [accepted_of_answered hans'] at hnone
  cases hnone

-- =========================================================== broken promises

/-- Ended otherwise than cancelled, though some call has answered True or
will. -/
def Owed (s : State K) : Prop :=
  s.pc = .ended ∧ s.hire.status ≠ .cancelled ∧ accepted s = true

/-- A hire that has ended ended for good, and no answer is taken back. -/
theorem owed_step {job : Job K} {s s' : State K} {a : Act} (hs : Owed s)
    (h : step job s a = some s') : Owed s' := by
  obtain ⟨hended, hstatus, hacc⟩ := hs
  by_cases hrun : ∃ r, a = .run r
  · obtain ⟨r, rfl⟩ := hrun
    rw [step, runStep_ended hended] at h
    cases h
  · have hcall := callStep_of_step (fun r hr => hrun ⟨r, hr⟩) h
    exact ⟨hcall.pc.trans hended, by rwa [hcall.status], hcall.accepted hacc⟩

/-- A step that does not meet `honours` writes a receipt after a True, or
ends the hire with a True owed. -/
theorem written_or_owed {job : Job K} (hjob : OneReceipt job)
    {s s' : State K} {a : Act} (hguard : honours job s a = false)
    (h : step job s a = some s') :
    answered s = true ∧ (∃ r, s'.db.receipts = s.db.receipts ++ [r])
      ∨ Owed s' := by
  cases a with
  | call => cases hguard
  | look i => cases hguard
  | mark i => cases hguard
  | answer i => cases hguard
  | run r =>
      obtain ⟨hcalls, hran⟩ := runStep_ran h
      have hsame : accepted s' = accepted s := by rw [accepted, hcalls]; rfl
      cases hran with
      | went hr _ _ =>
          obtain ⟨hharness, hsettle, hfail⟩ := hr
          cases r with
          | harness => exact absurd rfl hharness
          | settle => exact absurd rfl hsettle
          | fail => exact absurd rfl hfail
          | begin | build | check | emit | done | readFlag => cases hguard
      | hired _ hdb =>
          rcases hjob s.db with ⟨⟨e, he⟩, -⟩ | ⟨⟨hired, hok⟩, r, hr⟩
          · rw [honours, he] at hguard
            cases hguard
          · rw [honours, hok, Bool.not_eq_false'] at hguard
            exact Or.inl ⟨hguard, r, by rw [hdb, hr]⟩
      | settled flag hflag hpc _ hstatus =>
          rw [honours, hflag] at hguard
          cases flag with
          | true => cases hguard
          | false =>
              rw [Bool.not_eq_false'] at hguard
              exact Or.inr ⟨hpc, by simp [hstatus], hsame.trans hguard⟩
      | failed hpc _ hstatus =>
          rw [honours, Bool.not_eq_false'] at hguard
          exact Or.inr ⟨hpc, by simp [hstatus], hsame.trans hguard⟩

/-- A call that is past its look can be brought to its True. -/
theorem exists_answers (job : Job K) {s : State K}
    (h : accepted s = true) :
    ∃ bs t, bs.all Act.answers = true ∧ run (step job) s bs = some t
      ∧ answered t = true := by
  obtain ⟨c, hc, hacc⟩ := List.any_eq_true.1 h
  obtain ⟨i, hi, hget⟩ := List.mem_iff_getElem.1 hc
  have hi? : s.calls[i]? = some c := by
    rw [List.getElem?_eq_getElem hi, hget]
  have hanswer : ∀ u : State K, u.calls[i]? = some .marked →
      ∃ t, run (step job) u [.answer i] = some t ∧ answered t = true := by
    intro u hu
    refine ⟨{ u with calls := u.calls.set i (.returned true) }, ?_, ?_⟩
    · rw [run, step, hu]
      rfl
    · have hlt := (List.getElem?_eq_some_iff.1 hu).1
      exact List.any_eq_true.2 ⟨_, List.mem_set hlt _, by simp⟩
  cases c with
  | called => cases hacc
  | passed =>
      obtain ⟨t, ht, hans⟩ := hanswer
        { s with
          hire := { s.hire with cancelled := true }
          calls := s.calls.set i .marked }
        (List.getElem?_set_self hi)
      refine ⟨[.mark i, .answer i], t, rfl, ?_, hans⟩
      rw [run, step, hi?]
      exact ht
  | marked =>
      obtain ⟨t, ht, hans⟩ := hanswer s hi?
      exact ⟨[.answer i], t, rfl, ht, hans⟩
  | returned answer =>
      cases answer with
      | false => cases hacc
      | true =>
          exact ⟨[], s, rfl, rfl, List.any_eq_true.2 ⟨_, hc, by simp⟩⟩

/-- What is owed stays owed, whatever the calls do. -/
theorem owed_run {job : Job K} {s s' : State K} {as : List Act}
    (hs : Owed s) (hrun : run (step job) s as = some s') : Owed s' :=
  run_invariant (fun hs h => owed_step hs h) hs hrun

/-- If every completion of a run keeps its promises, the run's own steps all
meet `honours`: the first that does not would break one. -/
theorem guarded_of_honoured {job : Job K} (hjob : OneReceipt job)
    {db : Db K} {as : List Act} {s : State K}
    (hrun : run (step job) (start db) as = some s)
    (h : ∀ bs t, bs.all Act.answers = true →
      run (step job) s bs = some t → Honoured job db (as ++ bs)) :
    guarded (step job) (honours job) (start db) as = true := by
  by_contra hguard
  obtain ⟨p, a, q, u, v, rfl, hp, hbad, hstep, hq⟩ :=
    exists_unguarded hrun (Bool.eq_false_of_not_eq_true hguard)
  rcases written_or_owed hjob hbad hstep with ⟨hans, r, hr⟩ | howed
  · have hnow := h [] s rfl rfl
    obtain ⟨hsame, -⟩ := hnow p [a] q u v (by simp) hp
      ((run_cons_eq_some (step job)).2 ⟨v, hstep, rfl⟩) hans
    rw [hr] at hsame
    simp at hsame
  · have howed' := owed_run howed hq
    obtain ⟨bs, t, hbs, hrest, hans⟩ := exists_answers job howed'.2.2
    have hall : run (step job) (start db) (p ++ a :: q ++ bs) = some t :=
      (run_append_eq_some (step job)).2 ⟨s, hrun, hrest⟩
    obtain ⟨-, hcancelled⟩ := h bs t hbs hrest (p ++ a :: q ++ bs) [] [] t t
      (by simp) hall rfl hans
    obtain ⟨hended, hstatus, -⟩ := owed_run howed' hrest
    exact hstatus (hcancelled hended)

/-- A run of a hire keeps what its calls answer, in whatever way those
under way come to answer, exactly if its steps all meet `honours`: no
receipt is committed after a True, and no status other than `cancelled`
is set with a call past its look. -/
theorem honoured_iff [Field K] [LinearOrder K] [DecidableEq P]
    (build : Py Unit) (sha : PyVal K → String)
    (baseline : PyVal K → Py (Result K)) (agent : LiveAgent K S D P)
    (tier : Nat) (inputs : Dict K) (sv : Server K) (db : Db K)
    (as : List Act) (s : State K)
    (hrun : run
      (step (Job.ofAgent build sha baseline agent tier inputs sv))
      (start db) as = some s) :
    guarded (step (Job.ofAgent build sha baseline agent tier inputs sv))
        (honours (Job.ofAgent build sha baseline agent tier inputs sv))
        (start db) as = true
      ↔ ∀ bs t, bs.all Act.answers = true →
          run (step (Job.ofAgent build sha baseline agent tier inputs sv)) s
            bs = some t →
          Honoured (Job.ofAgent build sha baseline agent tier inputs sv) db
            (as ++ bs) := by
  have hjob := oneReceipt_ofAgent build sha baseline agent tier inputs sv
  constructor
  · intro hguard bs t hbs hrest
    apply honoured_of_guarded hjob
      ((run_append_eq_some _).2 ⟨s, hrun, hrest⟩)
    rw [guarded_append _ hrun, hguard, Bool.true_and]
    refine guarded_of_forall _ ?_ hrest
    intro s a ha
    exact honours_of_answers _ s (List.all_eq_true.1 hbs a ha)
  · exact guarded_of_honoured hjob hrun

-- ===================================================== one agent, cancelled

/-- An agent that reports 1 for whatever it is asked. -/
def steady : LiveAgent ℚ Unit Unit Unit where
  manifest :=
    { id := "steady"
      tiers := [0]
      inputs := []
      baseline := "do_nothing"
      advantageMetric := ⟨"net_pnl_usd", "USD", true⟩
      maxLossPct := none
      name := "Steady"
      category := "yield" }
  init := ()
  snapshot := fun _ => .dict []
  observe := fun s _ => .ok ((), s)
  decide := fun s _ => .ok (⟨"hold", ()⟩, s)
  act := fun s _ _ => .ok ({}, s)
  report := fun s _ _ => .ok (⟨"net_pnl_usd", "USD", 1⟩, s)

/-- Its hire at tier 0, on a server that refuses nothing. -/
def steadyJob : Job ℚ :=
  Job.ofAgent (.ok ()) (fun _ => "")
    (fun _ => .ok ⟨"net_pnl_usd", "USD", 0⟩) steady 0 []
    { upsert := .ok ()
      upsertCommit := .ok ()
      agentRunId := .ok 1
      baselineRunId := .ok 2
      receiptId := .ok 3
      commit := .ok ()
      pairId := 4
      now := 0
      createdAt := 0
      agentWall := 0
      baselineWall := 0 }

def emptyDb : Db ℚ := ⟨[], [], []⟩

/-- A call from its beginning to its answer. -/
def wholeCall : List Act := [.call, .look 0, .mark 0, .answer 0]

/-- `_run` up to the last phase before the commit. -/
def untilCommit : List Act :=
  .run .begin :: .run .build :: .run .check
    :: harnessPhases.map fun _ => .run .emit

/-- A call between the commit and the last look at the flag. -/
def lateCall : List Act :=
  untilCommit.append (.run .harness :: wholeCall.append
    [.run .done, .run .readFlag, .run .settle])

/-- A call between `persist` and the commit. -/
def callAtPersist : List Act := untilCommit.append wholeCall

/-- A call before the hire begins. -/
def callAtStart : List Act :=
  wholeCall.append [.run .begin, .run .build, .run .check, .run .fail]

/-- A late call is honoured: nothing is left to write, and the status is
`cancelled`. -/
theorem honoured_late : ∃ s,
    run (step steadyJob) (start emptyDb) lateCall = some s
      ∧ ∀ bs t, bs.all Act.answers = true →
        run (step steadyJob) s bs = some t →
        Honoured steadyJob emptyDb (lateCall ++ bs) := by
  have hsome : (run (step steadyJob) (start emptyDb) lateCall).isSome
      = true := by decide +kernel
  obtain ⟨s, hrun⟩ := Option.isSome_iff_exists.1 hsome
  exact ⟨s, hrun, (honoured_iff _ _ _ _ _ _ _ _ _ s hrun).1
    (by decide +kernel)⟩

/-- A True before the commit: the receipt is written all the same. A True
before the hire begins: it fails. -/
theorem cancelled_not_honoured :
    ¬ Honoured steadyJob emptyDb (callAtPersist ++ [.run .harness])
      ∧ ¬ Honoured steadyJob emptyDb callAtStart := by
  constructor
  · intro h
    have hruns : ((run (step steadyJob) (start emptyDb) callAtPersist).any
        fun s => answered s
          && (run (step steadyJob) s [.run .harness]).any fun t =>
            t.db.receipts.length ≠ s.db.receipts.length) = true := by
      decide +kernel
    obtain ⟨s, hs, hcond⟩ := (Option.any_eq_true _ _).1 hruns
    obtain ⟨hans, hrest⟩ := Bool.and_eq_true_iff.1 hcond
    obtain ⟨t, ht, hmore⟩ := (Option.any_eq_true _ _).1 hrest
    obtain ⟨hsame, -⟩ := h _ _ [] s t (List.append_nil _).symm hs ht hans
    rw [hsame] at hmore
    simp at hmore
  · intro h
    have hruns : ((run (step steadyJob) (start emptyDb) callAtStart).any
        fun s => answered s && (s.hire.status = .failed
          && (s.pc matches .ended))) = true := by
      decide +kernel
    obtain ⟨s, hs, hcond⟩ := (Option.any_eq_true _ _).1 hruns
    obtain ⟨hans, hend⟩ := Bool.and_eq_true_iff.1 hcond
    obtain ⟨hfailed, hpc⟩ := Bool.and_eq_true_iff.1 hend
    have hpc' : s.pc = .ended := by
      split at hpc
      · assumption
      · cases hpc
    obtain ⟨-, hcancelled⟩ := h _ [] [] s s (by simp) hs rfl hans
    rw [hcancelled hpc'] at hfailed
    simp at hfailed

end Proofstand.Hires
