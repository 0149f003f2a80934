/-
The contract under calls by anyone: who gets an event logged, and what an
id stands for.

The writers are the addresses the owner let in and has not shut out since
(`isWriter_iff`), so every `BatchAnchored` is a call of one of them
(`mem_log_iff`). The contract keeps no record of ids: a second call with
an id gets its event too, and an id stands for one root as long as its
writers pass one. `submit_batch` does (`events_agree`).

# A history per deployment

The storage after some calls is a fold over them, and who may write is
read off it. `Authorised` says the same of the calls alone: the last call
of the owner about an address, if there is one, decides, and the deployer
is let in by the constructor. The induction appends one call, and of those
only the owner's own about this address changes the answer
(`authorised_snoc_iff`).

# What an id stands for

The contract would log any root under any id, as often as it is asked. On
chains that the pipeline's clients write to, the invariant of the
anchoring system says what was passed: the commitment of the batch, and
one batch has one (`events_agree`).
-/
import Proofstand.Anchor.Proofs.Anchoring

namespace Proofstand.Anchor.ReceiptAnchor

open Hex Transition

-- ================================================================ calls

/-- A call of the contract, by whoever sends it. -/
inductive Call
  | setWriter (sender writer : Address) (allowed : Bool)
  | anchor (sender : Address) (batchId : Nat) (root : Bytes)
      (count ts : Nat)

/-- What a call leaves in storage and what it logs. One that reverts does
neither. -/
def transact (c : ReceiptAnchor) : Call → ReceiptAnchor × List Event
  | .setWriter sender writer allowed =>
      match c.setWriter sender writer allowed with
      | .ok (c', event) => (c', [event])
      | .error _ => (c, [])
  | .anchor sender batchId root count ts =>
      match c.anchor sender batchId root count ts with
      | .ok event => (c, [event])
      | .error _ => (c, [])

/-- The contract with its log, the oldest event first. -/
structure History where
  storage : ReceiptAnchor
  log : List Event

/-- A deployment and the calls since. -/
def history (owner : Address) (calls : List Call) : History :=
  calls.foldl
    (fun d call => ⟨(d.storage.transact call).1,
      d.log ++ (d.storage.transact call).2⟩)
    ⟨(deployed owner).1, [(deployed owner).2]⟩

theorem history_snoc (owner : Address) (calls : List Call) (call : Call) :
    history owner (calls ++ [call])
      = ⟨((history owner calls).storage.transact call).1,
          (history owner calls).log
            ++ ((history owner calls).storage.transact call).2⟩ := by
  rw [history, List.foldl_append]
  rfl

/-- The owner sets who may write, -/
theorem transact_setWriter_owner {c : ReceiptAnchor} {sender : Address}
    (h : sender = c.owner) (writer : Address) (allowed : Bool) :
    c.transact (.setWriter sender writer allowed)
      = ({ c with isWriter := Function.update c.isWriter writer allowed },
          [.writerSet writer allowed]) := by
  simp [transact, setWriter, h]

/-- nobody else does, -/
theorem transact_setWriter_other {c : ReceiptAnchor} {sender : Address}
    (h : sender ≠ c.owner) (writer : Address) (allowed : Bool) :
    c.transact (.setWriter sender writer allowed) = (c, []) := by
  simp [transact, setWriter, h]

/-- and an anchor is logged exactly where its sender may write. -/
theorem transact_anchor (c : ReceiptAnchor) (sender : Address)
    (batchId : Nat) (root : Bytes) (count ts : Nat) :
    c.transact (.anchor sender batchId root count ts)
      = (c, if c.isWriter sender then
          [.batchAnchored batchId root count ts] else []) := by
  unfold transact anchor
  by_cases h : c.isWriter sender = true
  · simp [h]
  · simp [h]

/-- A call logs `BatchAnchored` for a writer, and nobody else. -/
theorem mem_transact_iff {c : ReceiptAnchor} {call : Call}
    {b count ts : Nat} {root : Bytes} :
    Event.batchAnchored b root count ts ∈ (c.transact call).2
      ↔ ∃ sender, call = .anchor sender b root count ts
          ∧ c.isWriter sender = true := by
  cases call with
  | setWriter sender writer allowed =>
      have hnone : Event.batchAnchored b root count ts
          ∉ (c.transact (.setWriter sender writer allowed)).2 := by
        by_cases hsender : sender = c.owner
        · rw [transact_setWriter_owner hsender]
          simp
        · rw [transact_setWriter_other hsender]
          exact List.not_mem_nil
      refine iff_of_false hnone ?_
      intro h
      obtain ⟨sender', hcall, -⟩ := h
      cases hcall
  | anchor sender b' root' count' ts' =>
      rw [transact_anchor]
      constructor
      · intro h
        by_cases hwriter : c.isWriter sender = true
        · rw [if_pos hwriter] at h
          cases List.mem_singleton.1 h
          exact ⟨sender, rfl, hwriter⟩
        · rw [if_neg hwriter] at h
          cases h
      · intro h
        obtain ⟨sender', hcall, hwriter⟩ := h
        cases hcall
        rw [if_pos hwriter]
        exact List.mem_singleton_self _

-- ============================================================== writers

/-- The owner let the address in, deploying or by a call, and has not shut
it out since. -/
def Authorised (owner a : Address) (calls : List Call) : Prop :=
  ∃ since, Call.setWriter owner a false ∉ since
    ∧ (a = owner ∧ calls = since
      ∨ ∃ before, calls = before ++ Call.setWriter owner a true :: since)

/-- Where an entry of a longer list stands. -/
theorem snoc_eq_append_cons {α : Type} {l p q : List α} {a x : α} :
    l ++ [a] = p ++ x :: q
      ↔ (q = [] ∧ p = l ∧ x = a) ∨ ∃ q', q = q' ++ [a] ∧ l = p ++ x :: q' := by
  constructor
  · intro h
    rcases List.eq_nil_or_concat' q with rfl | ⟨q', a', rfl⟩
    · obtain ⟨hl, ha⟩ := List.append_inj' h rfl
      cases ha
      exact Or.inl ⟨rfl, hl.symm, rfl⟩
    · rw [← List.cons_append, ← List.append_assoc] at h
      obtain ⟨hl, ha⟩ := List.append_inj' h rfl
      cases ha
      exact Or.inr ⟨q', rfl, hl⟩
  · intro h
    rcases h with ⟨rfl, rfl, rfl⟩ | ⟨q', rfl, rfl⟩
    · rfl
    · rw [List.append_assoc, List.cons_append]

/-- Before any call the owner alone may write; -/
theorem authorised_deployed (owner a : Address) :
    Authorised owner a [] ↔ a = owner := by
  constructor
  · intro h
    rcases h with ⟨since, -, ⟨howner, -⟩ | ⟨before, hcalls⟩⟩
    · exact howner
    · exact absurd hcalls.symm
        (List.append_ne_nil_of_right_ne_nil _ (List.cons_ne_nil _ _))
  · intro howner
    exact ⟨[], List.not_mem_nil, Or.inl ⟨howner, rfl⟩⟩

/-- whoever the owner lets in last may, -/
theorem authorised_let_in (owner a : Address) (calls : List Call) :
    Authorised owner a (calls ++ [.setWriter owner a true]) :=
  ⟨[], List.not_mem_nil, Or.inr ⟨calls, rfl⟩⟩

/-- and whoever he shuts out last may not. -/
theorem not_authorised_shut_out (owner a : Address) (calls : List Call) :
    ¬ Authorised owner a (calls ++ [.setWriter owner a false]) := by
  intro h
  rcases h with ⟨since, hsince, ⟨-, hcalls⟩ | ⟨before, hcalls⟩⟩
  · rw [← hcalls] at hsince
    exact hsince (List.mem_append_right _ List.mem_cons_self)
  · rcases snoc_eq_append_cons.1 hcalls with
      ⟨-, -, heq⟩ | ⟨since', rfl, -⟩
    · cases heq
    · exact hsince (List.mem_append_right _ List.mem_cons_self)

/-- Any other call leaves an address what it was. -/
theorem authorised_snoc_iff {owner a : Address} {call : Call}
    (h : ∀ allowed, call ≠ .setWriter owner a allowed) (calls : List Call) :
    Authorised owner a (calls ++ [call]) ↔ Authorised owner a calls := by
  constructor
  · intro h
    rcases h with ⟨since, hsince, ⟨howner, rfl⟩ | ⟨before, hcalls⟩⟩
    · exact ⟨calls, fun hmem => hsince (List.mem_append_left _ hmem),
        Or.inl ⟨howner, rfl⟩⟩
    · rcases snoc_eq_append_cons.1 hcalls with
        ⟨-, -, heq⟩ | ⟨since', rfl, hcalls'⟩
      · exact absurd heq.symm (h true)
      · exact ⟨since', fun hmem => hsince (List.mem_append_left _ hmem),
          Or.inr ⟨before, hcalls'⟩⟩
  · intro h
    obtain ⟨since, hsince, hcalls⟩ := h
    refine ⟨since ++ [call], ?_, ?_⟩
    · intro hmem
      rcases List.mem_append.1 hmem with hmem | hmem
      · exact hsince hmem
      · exact h false (List.mem_singleton.1 hmem).symm
    · rcases hcalls with ⟨howner, rfl⟩ | ⟨before, rfl⟩
      · exact Or.inl ⟨howner, rfl⟩
      · exact Or.inr ⟨before, by rw [List.append_assoc, List.cons_append]⟩

/-- The contract's writers are the authorised addresses; its owner stays
the deployer. -/
theorem isWriter_iff (owner : Address) (calls : List Call) :
    (history owner calls).storage.owner = owner
      ∧ ∀ a, (history owner calls).storage.isWriter a = true
          ↔ Authorised owner a calls := by
  induction calls using List.reverseRecOn with
  | nil =>
      refine ⟨rfl, ?_⟩
      intro a
      rw [authorised_deployed]
      exact decide_eq_true_iff
  | append_singleton calls call ih =>
      obtain ⟨howner, hwriters⟩ := ih
      rw [history_snoc]
      cases call with
      | anchor sender batchId root count ts =>
          rw [transact_anchor]
          refine ⟨howner, ?_⟩
          intro a
          rw [authorised_snoc_iff (fun _ h => by cases h)]
          exact hwriters a
      | setWriter sender writer allowed =>
          by_cases hsender : sender = owner
          · subst hsender
            rw [transact_setWriter_owner howner.symm]
            refine ⟨howner, ?_⟩
            intro a
            show Function.update (history sender calls).storage.isWriter
              writer allowed a = true ↔ _
            by_cases ha : a = writer
            · subst ha
              rw [Function.update_self]
              cases allowed with
              | false =>
                  exact iff_of_false Bool.false_ne_true
                    (not_authorised_shut_out sender a calls)
              | true =>
                  exact iff_of_true rfl (authorised_let_in sender a calls)
            · rw [Function.update_of_ne ha, hwriters a, authorised_snoc_iff]
              intro allowed' heq
              cases heq
              exact ha rfl
          · rw [transact_setWriter_other (howner.symm ▸ hsender)]
            refine ⟨howner, ?_⟩
            intro a
            rw [hwriters a, authorised_snoc_iff]
            intro allowed' heq
            cases heq
            exact hsender rfl

-- =============================================================== events

/-- Somewhere among the calls is this one, by an address authorised at the
time. -/
def AnchoredIn (owner : Address) (calls : List Call) (batchId : Nat)
    (root : Bytes) (count ts : Nat) : Prop :=
  ∃ pre sender post,
    calls = pre ++ Call.anchor sender batchId root count ts :: post
      ∧ Authorised owner sender pre

/-- What one more call logs. -/
theorem log_snoc (owner : Address) (calls : List Call) (call : Call) :
    ∃ events,
      (history owner (calls ++ [call])).log
          = (history owner calls).log ++ events
        ∧ ∀ b root count ts,
            Event.batchAnchored b root count ts ∈ events
              ↔ ∃ sender, call = .anchor sender b root count ts
                  ∧ Authorised owner sender calls := by
  rw [history_snoc]
  refine ⟨_, rfl, ?_⟩
  intro b root count ts
  rw [mem_transact_iff]
  simp only [(isWriter_iff owner calls).2]

theorem mem_log_iff {owner : Address} {calls : List Call}
    {b count ts : Nat} {root : Bytes} :
    Event.batchAnchored b root count ts ∈ (history owner calls).log
      ↔ AnchoredIn owner calls b root count ts := by
  induction calls using List.reverseRecOn with
  | nil =>
      refine iff_of_false ?_ ?_
      · intro h
        cases List.mem_singleton.1 h
      · intro h
        obtain ⟨pre, sender, post, hcalls, -⟩ := h
        exact absurd hcalls.symm
          (List.append_ne_nil_of_right_ne_nil _ (List.cons_ne_nil _ _))
  | append_singleton calls call ih =>
      obtain ⟨events, hlog, hevents⟩ := log_snoc owner calls call
      rw [hlog, List.mem_append, ih, hevents]
      constructor
      · intro h
        rcases h with ⟨pre, sender, post, rfl, hauth⟩ | ⟨sender, rfl, hauth⟩
        · exact ⟨pre, sender, post ++ [call],
            by rw [List.append_assoc, List.cons_append], hauth⟩
        · exact ⟨calls, sender, [], rfl, hauth⟩
      · intro h
        obtain ⟨pre, sender, post, hcalls, hauth⟩ := h
        rcases snoc_eq_append_cons.1 hcalls with
          ⟨-, rfl, rfl⟩ | ⟨post', -, rfl⟩
        · exact Or.inr ⟨sender, rfl, hauth⟩
        · exact Or.inl ⟨pre, sender, post', rfl, hauth⟩

-- ============================================================ one root

/-- No id goes with two roots or two counts. -/
def OneCommitment (anchored : Nat → Bytes → Nat → Nat → Prop) : Prop :=
  ∀ b root root' count count' ts ts', anchored b root count ts →
    anchored b root' count' ts' → root = root' ∧ count = count'

/-- On every chain the system reaches, the events are one commitment a batch. -/
theorem events_agree {K : Keccak} {acts : List Action} {s : State}
    (hrun : run (step K) init acts = some s) :
    OneCommitment fun b root count ts =>
      ∃ addr, (addr, Event.batchAnchored b root count ts) ∈ s.chain.logs := by
  have hs := inv_run (inv_init K) hrun
  intro b root root' count count' ts ts' h
  obtain ⟨addr, he⟩ := h
  intro h
  obtain ⟨addr', he'⟩ := h
  exact committed_agree (hs.chain.anchored addr b root count ts he)
    (hs.chain.anchored addr' b root' count' ts' he')

/-- Over every sequence of calls: each call logs `BatchAnchored` for an
address authorised at that moment and for nobody else, and the events of
an id agree as long as the authorised calls with it do. Where only
`submit_batch` calls, they do. -/
theorem anchored_by_writers (owner : Address) (calls : List Call) :
    (∀ call, ∃ events,
        (history owner (calls ++ [call])).log
            = (history owner calls).log ++ events
          ∧ ∀ b root count ts,
              Event.batchAnchored b root count ts ∈ events
                ↔ ∃ sender, call = .anchor sender b root count ts
                    ∧ Authorised owner sender calls)
      ∧ (∀ b root count ts,
          Event.batchAnchored b root count ts ∈ (history owner calls).log
            ↔ AnchoredIn owner calls b root count ts)
      ∧ (OneCommitment (fun b root count ts =>
            Event.batchAnchored b root count ts ∈ (history owner calls).log)
          ↔ OneCommitment (AnchoredIn owner calls))
      ∧ ∀ (K : Keccak) (acts : List Action) (s : State),
          run (step K) init acts = some s →
          OneCommitment fun b root count ts =>
            ∃ addr,
              (addr, Event.batchAnchored b root count ts) ∈ s.chain.logs := by
  refine ⟨log_snoc owner calls, fun _ _ _ _ => mem_log_iff, ?_,
    fun _ _ _ => events_agree⟩
  unfold OneCommitment
  simp only [mem_log_iff]

/-- A root of one byte over and over. -/
def rootOf (x : Byte) : Bytes := List.replicate 32 x

/-- The owner anchors an id twice, with two roots. -/
theorem anchored_twice :
    ¬ OneCommitment (fun b root count ts =>
      Event.batchAnchored b root count ts ∈ (history 7
        [.anchor 7 1 (rootOf 0) 1 100, .anchor 7 1 (rootOf 1) 1 200]).log) := by
  intro h
  have hfirst : Event.batchAnchored 1 (rootOf 0) 1 100 ∈ (history 7
      [.anchor 7 1 (rootOf 0) 1 100, .anchor 7 1 (rootOf 1) 1 200]).log := by
    decide
  have hsecond : Event.batchAnchored 1 (rootOf 1) 1 200 ∈ (history 7
      [.anchor 7 1 (rootOf 0) 1 100, .anchor 7 1 (rootOf 1) 1 200]).log := by
    decide
  exact absurd (h 1 _ _ _ _ _ _ hfirst hsecond).1 (by decide)

end Proofstand.Anchor.ReceiptAnchor
