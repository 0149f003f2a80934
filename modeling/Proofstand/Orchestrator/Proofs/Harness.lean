/-
What a `run_hire` that returned went through, for any agent: one
inversion lemma for each of its three parts.

# How it is used

The parts are chains of `Except` binds, so each lemma takes the chain
apart with `bind_eq_ok` and puts every intermediate value into the
conclusion: the accepted inputs, the data, the decision, the actions, the
result and the two hashes. Proofs about a particular agent start from
these and never unfold `run_hire`.

The purity check costs nothing there: the agents of this module decide by
a function, and a function's second answer is its first. What the check
is for is seen in `Orchestrator.Proofs.Persist`, where an agent may answer
otherwise. `forTier_cases` is the same kind of inversion for the context
an agent acts in.
-/
import Proofstand.Orchestrator.Harness
import Proofstand.Lib.Fallible

namespace Proofstand

namespace Harness

open Fallible

variable {K S D P : Type} [Field K] [LinearOrder K]

omit [Field K] [LinearOrder K] in
/-- For an agent whose `decide` is a function, the second call changes
nothing. -/
theorem assertPure_eq [DecidableEq P] (agent : Agent K S D P) (d : D) :
    assertPure agent d = agent.decide d := by
  unfold assertPure
  cases agent.decide d with
  | error e => rfl
  | ok dec => simp

/-- A run that gets past its decision: accepted inputs, what was observed
from them, what was decided from that, and the two hashes. -/
theorem prepare_eq_ok [DecidableEq P] {sha : PyVal K → String}
    {agent : Agent K S D P} {tier : Nat} {raw : Dict K}
    {signer : Option String} {w : World K} {p : Prepared K S D P}
    (h : prepare sha agent tier raw signer w = .ok p) :
    ∃ inputs, acceptInputs agent.manifest tier raw = .ok inputs
      ∧ agent.observe agent.init inputs w = .ok (p.data, p.state)
      ∧ agent.decide p.data = .ok p.decision
      ∧ ExecContext.forTier tier signer = .ok p.ctx ∧ p.tier = tier
      ∧ p.taskHash = canonicalHash sha (task agent.manifest tier inputs)
      ∧ p.snapshotHash = canonicalHash sha (agent.snapshot p.data) := by
  unfold prepare at h
  obtain ⟨inputs, hinputs, h⟩ := bind_eq_ok.1 h
  obtain ⟨ctx, hctx, h⟩ := bind_eq_ok.1 h
  obtain ⟨⟨data, state⟩, hobserve, h⟩ := bind_eq_ok.1 h
  obtain ⟨decision, hdecide, h⟩ := bind_eq_ok.1 h
  rw [assertPure_eq] at hdecide
  cases h
  exact ⟨inputs, hinputs, hobserve, hdecide, hctx, rfl, rfl, rfl⟩

/-- The receipt's values, from the baseline's result. -/
theorem settle_eq_ok {sha : PyVal K → String} {lib : Libm K}
    {m : Manifest K} {tier : Nat} {taskHash snapshotHash : String}
    {data : PyVal K} {r : Result K} {w : World K} {out : HireOutcome K}
    (h : settle sha lib m tier taskHash snapshotHash data r w = .ok out) :
    out.agentRun = r ∧ out.taskHash = taskHash
      ∧ out.dataSnapshotHash = snapshotHash := by
  unfold settle at h
  obtain ⟨b, -, h⟩ := bind_eq_ok.1 h
  by_cases hunit : b.unit ≠ r.unit ∨ b.metric ≠ r.metric
  · rw [if_pos hunit] at h
    cases h
  · rw [if_neg hunit] at h
    cases h
    exact ⟨rfl, rfl, rfl⟩

/-- A run that comes through: the agent acts and reports, and the hashes are
those of before. -/
theorem conclude_eq_ok {sha : PyVal K → String} {lib : Libm K}
    {agent : Agent K S D P} {p : Prepared K S D P} {w : World K}
    {out : HireOutcome K} (h : conclude sha lib agent p w = .ok out) :
    ∃ actions state, agent.act p.state p.decision p.ctx
        = .ok (actions, state)
      ∧ agent.report state p.decision actions = .ok out.agentRun
      ∧ out.taskHash = p.taskHash ∧ out.dataSnapshotHash = p.snapshotHash := by
  unfold conclude at h
  obtain ⟨⟨actions, state⟩, hact, h⟩ := bind_eq_ok.1 h
  refine ⟨actions, state, hact, ?_⟩
  by_cases hsigned :
      p.tier < 2 ∧ (actions.txHashes ≠ [] ∨ p.ctx.signer.isSome = true)
  · simp only [hsigned] at h
    cases h
  · simp only [hsigned, if_false] at h
    obtain ⟨r, hreport, h⟩ := bind_eq_ok.1 h
    obtain ⟨hrun, htask, hsnap⟩ := settle_eq_ok h
    rw [hrun]
    exact ⟨hreport, htask, hsnap⟩

/-- Everything a run that returned a receipt went through. -/
theorem runHire_eq_ok [DecidableEq P] {sha : PyVal K → String}
    {lib : Libm K} {agent : Agent K S D P} {tier : Nat} {raw : Dict K}
    {signer : Option String} {w w' : World K} {out : HireOutcome K}
    (h : runHire sha lib agent tier raw signer w w' = .ok out) :
    ∃ inputs d state dec ctx actions state',
      acceptInputs agent.manifest tier raw = .ok inputs
      ∧ agent.observe agent.init inputs w = .ok (d, state)
      ∧ agent.decide d = .ok dec
      ∧ ExecContext.forTier tier signer = .ok ctx
      ∧ agent.act state dec ctx = .ok (actions, state')
      ∧ agent.report state' dec actions = .ok out.agentRun
      ∧ out.taskHash = canonicalHash sha (task agent.manifest tier inputs)
      ∧ out.dataSnapshotHash = canonicalHash sha (agent.snapshot d) := by
  obtain ⟨p, hprepare, hconclude⟩ := bind_eq_ok.1 h
  obtain ⟨inputs, hinputs, hobserve, hdecide, hctx, -, htask, hsnap⟩ :=
    prepare_eq_ok hprepare
  obtain ⟨actions, state', hact, hreport, htask', hsnap'⟩ :=
    conclude_eq_ok hconclude
  exact ⟨inputs, p.data, p.state, p.decision, p.ctx, actions, state',
    hinputs, hobserve, hdecide, hctx, hact, hreport, htask'.trans htask,
    hsnap'.trans hsnap⟩

/-- Below tier 2 a context is unsigned; at tier 2 it can sign. -/
theorem forTier_cases {tier : Nat} {signer : Option String}
    {ctx : ExecContext} (h : ExecContext.forTier tier signer = .ok ctx) :
    ctx.tier = tier ∧ (tier < 2 ∧ ctx.signer = none
      ∨ tier = 2 ∧ ctx.signer.isSome = true) := by
  unfold ExecContext.forTier at h
  by_cases htier : tier ≠ 0 ∧ tier ≠ 1 ∧ tier ≠ 2
  · rw [if_pos htier] at h
    cases h
  · rw [if_neg htier] at h
    by_cases hlow : tier < 2
    · rw [if_pos hlow] at h
      cases h
      exact ⟨rfl, Or.inl ⟨hlow, rfl⟩⟩
    · rw [if_neg hlow] at h
      cases signer with
      | none => cases h
      | some s =>
          cases h
          exact ⟨rfl, Or.inr ⟨by omega, rfl⟩⟩

end Harness

end Proofstand
