/-
When the report keeps backtests out of the live numbers.

Every row of an agent is in the agent's one task, whatever its tier, and
the task has one label. So a replay is told apart exactly where the agent
has nothing else in the tables and the registry still knows what it is
(`KeptApart`): one live run turns every replay before it into a live
number (`replay_among_live`).

# How it goes

`Report` gives each agent one task over its joined rows, so the statement
about labels becomes one about the rows of an agent (`aggregates_rows`).
One direction reads off the task that a replay is in what its label says
of the other rows; the other builds the task of an aggregated replay and
finds the label. No assumption is made on the tables: rows without a run,
runs without an agent and agents without an entry are all among them.
-/
import Proofstand.Orchestrator.Proofs.Report

namespace Proofstand.Report

variable {K : Type} [Field K] [LinearOrder K] [FloorRing K]

/-- A run of tier 0 or 1 of an agent whose category is replayed. -/
def ReplayedRun (db : Db K) (ar : RunRow K) (category : String) : Prop :=
  (ar.tier = 0 ∨ ar.tier = 1) ∧ category ∈ backtestCategories
    ∧ ⟨ar.agentId, category⟩ ∈ db.agents

/-- The receipt, with this agent run, is among the rows of the task. -/
def Aggregates (reg : Registry K) (db : Db K) (t : Task K)
    (rc : ReceiptRow K) (ar : RunRow K) : Prop :=
  ∃ agentId rows, (agentId, rows) ∈ byAgent db
    ∧ taskForGroup agentId rows reg = .ok t
    ∧ ∃ j ∈ rows, j.receipt = rc ∧ j.agentRun = ar

/-- No live task aggregates a replay, and each replay is aggregated in a
backtest that states the replay method of its category. -/
def NeverFolded (reg : Registry K) (db : Db K) (rep : AdvantageReport K) :
    Prop :=
  ∀ rc ∈ db.receipts, ∀ ar ∈ db.runs, ar.id = rc.agentRunId →
    ∀ c, ReplayedRun db ar c →
      (∀ t ∈ rep.tasks, t.kind = .LIVE → ¬ Aggregates reg db t rc ar)
      ∧ ∃ t ∈ rep.tasks, t.kind = .BACKTEST ∧ Aggregates reg db t rc ar
        ∧ ∃ text, replayMethods.lookup c = some text
          ∧ t.replayMethod = some text

/-- A replay has its baseline run, the registry has its agent in its
category, and none of the agent's joined runs is of a higher tier. -/
def KeptApart (reg : Registry K) (db : Db K) : Prop :=
  ∀ rc ∈ db.receipts, ∀ ar ∈ db.runs, ar.id = rc.agentRunId →
    ∀ c, ReplayedRun db ar c →
      (∃ br ∈ db.runs, br.id = rc.baselineRunId)
      ∧ Listed reg ar.agentId c
      ∧ ∀ j ∈ joinRuns db, j.agentRun.agentId = ar.agentId →
        j.agentRun.tier ≤ 1

-- ============================================================ the methods

theorem replayMethod_stated {c : String} (h : c ∈ backtestCategories) :
    ∃ text, replayMethods.lookup c = some text := by
  have hall : ∀ c ∈ backtestCategories,
      (replayMethods.lookup c).isSome := by decide
  exact Option.isSome_iff_exists.1 (hall c h)

/-- Different categories have different methods. -/
theorem replayMethod_injective {c c' : String}
    (h : c ∈ backtestCategories) (h' : c' ∈ backtestCategories)
    (heq : replayMethods.lookup c = replayMethods.lookup c') : c = c' := by
  have hall : ∀ c ∈ backtestCategories, ∀ c' ∈ backtestCategories,
      replayMethods.lookup c = replayMethods.lookup c' → c = c' := by
    decide +kernel
  exact hall c h c' h' heq

-- ============================================================== one label

/-- What an aggregated receipt says of the task it is in. -/
theorem aggregates_rows {reg : Registry K} {db : Db K} {t : Task K}
    {rc : ReceiptRow K} {ar : RunRow K} (h : Aggregates reg db t rc ar) :
    ∃ rows, (ar.agentId, rows) ∈ byAgent db
      ∧ TaskOf reg ar.agentId rows t
      ∧ ∃ br ∈ db.runs, br.id = rc.baselineRunId := by
  obtain ⟨agentId, rows, hgroup, htask, j, hj, rfl, rfl⟩ := h
  obtain ⟨hjoin, hagent⟩ := (mem_rows_iff hgroup).1 hj
  obtain ⟨-, -, hbase⟩ := mem_joinRuns_iff.1 hjoin
  rw [hagent]
  exact ⟨rows, hgroup, taskForGroup_eq_ok htask, j.baselineRun, hbase⟩

/-- If the labels never fold a backtest into live numbers, the tables held no
task of both kinds, -/
theorem keptApart_of_neverFolded {reg : Registry K} {db : Db K}
    {rep : AdvantageReport K} (h : NeverFolded reg db rep) :
    KeptApart reg db := by
  intro rc hrc ar har hrun c hreplay
  obtain ⟨-, t, -, hkind, hagg, text, htext, hmethod⟩ :=
    h rc hrc ar har hrun c hreplay
  obtain ⟨rows, hgroup, htask, hbase⟩ := aggregates_rows hagg
  obtain ⟨⟨c', hc', hlisted⟩, htiers⟩ := htask.backtest.1 hkind
  have hsame : replayMethods.lookup c = replayMethods.lookup c' := by
    rw [htext, ← hmethod, htask.method c' hkind hlisted]
  have hcc : c = c' := replayMethod_injective hreplay.2.1 hc' hsame
  refine ⟨hbase, hcc ▸ hlisted, ?_⟩
  intro j hj hagent
  exact htiers j ((mem_rows_iff hgroup).2 ⟨hj, hagent⟩)

/-- and if the tables hold none, no label does. -/
theorem neverFolded_of_keptApart {reg : Registry K} {db : Db K}
    {rep : AdvantageReport K} (hrep : buildAdvantageReport reg db = .ok rep)
    (h : KeptApart reg db) : NeverFolded reg db rep := by
  intro rc hrc ar har hrun c hreplay
  obtain ⟨⟨br, hbr, hbase⟩, hlisted, htiers⟩ :=
    h rc hrc ar har hrun c hreplay
  have hlabel : ∀ rows t, (ar.agentId, rows) ∈ byAgent db →
      TaskOf reg ar.agentId rows t → t.kind = .BACKTEST := by
    intro rows t hgroup htask
    apply htask.backtest.2
    refine ⟨⟨c, hreplay.2.1, hlisted⟩, ?_⟩
    intro j hj
    obtain ⟨hjoin, hagent⟩ := (mem_rows_iff hgroup).1 hj
    exact htiers j hjoin hagent
  constructor
  · intro t _ hlive hagg
    obtain ⟨rows, hgroup, htask, -⟩ := aggregates_rows hagg
    rw [hlabel rows t hgroup htask] at hlive
    cases hlive
  · have hjoin : (⟨rc, ar, br⟩ : JoinedRow K) ∈ joinRuns db :=
      mem_joinRuns_iff.2 ⟨hrc, ⟨har, hrun⟩, hbr, hbase⟩
    have hrow : (⟨rc, ar, br⟩ : JoinedRow K) ∈ (fetchRows db).filter
        fun r => r.agentRun.agentId = ar.agentId := by
      rw [List.mem_filter, (fetchRows_perm db).mem_iff]
      exact ⟨hjoin, by simp⟩
    have hgroup := mem_byAgent_iff.2 ⟨List.ne_nil_of_mem hrow, rfl⟩
    obtain ⟨t, ht⟩ := taskForGroup_total ar.agentId reg
      (List.ne_nil_of_mem hrow)
    have htask := taskForGroup_eq_ok ht
    have hkind := hlabel _ t hgroup htask
    obtain ⟨text, htext⟩ := replayMethod_stated hreplay.2.1
    refine ⟨t, (mem_tasks_iff hrep).2 ⟨_, _, hgroup, ht⟩, hkind,
      ⟨_, _, hgroup, ht, _, hrow, rfl, rfl⟩, text, htext, ?_⟩
    rw [htask.method c hkind hlisted, htext]

/-- The report is made, and it folds no replay into a live number exactly
where the tables and the registry keep them apart. -/
theorem neverFolded_iff (reg : Registry K) (db : Db K) :
    ∃ rep, buildAdvantageReport reg db = .ok rep
      ∧ (NeverFolded reg db rep ↔ KeptApart reg db) := by
  obtain ⟨rep, hrep⟩ := buildAdvantageReport_total reg db
  exact ⟨rep, hrep, keptApart_of_neverFolded, neverFolded_of_keptApart hrep⟩

-- ======================================================= a grid, twice hired

/-- `bnb-grid`, as far as a report names it. -/
def gridListed : MarketManifest ℚ where
  id := "bnb-grid"
  tiers := [1, 2]
  inputs := []
  baseline := "hodl"
  advantageMetric := ⟨"net_pnl_usd", "USD", true⟩
  maxLossPct := some 10
  name := "BNB/USDT grid trader"
  category := "grid"

/-- A paper hire, then one with capital. -/
def paperThenCapital : Db ℚ where
  agents := [⟨"bnb-grid", "grid"⟩]
  runs :=
    [plainRun "bnb-grid" 1 .agent 1, plainRun "bnb-grid" 2 .baseline 1,
     plainRun "bnb-grid" 3 .agent 2, plainRun "bnb-grid" 4 .baseline 2]
  receipts :=
    [plainReceipt 5 1 2 "net_pnl_usd" "USD" 40,
     plainReceipt 6 3 4 "net_pnl_usd" "USD" (-3)]

/-- The paper hire's receipt is folded into the live number. -/
theorem replay_among_live : ∃ rep,
    buildAdvantageReport [("bnb-grid", some gridListed)] paperThenCapital
      = .ok rep
    ∧ ¬ NeverFolded [("bnb-grid", some gridListed)] paperThenCapital
      rep := by
  obtain ⟨rep, hrep⟩ := buildAdvantageReport_total
    [("bnb-grid", some gridListed)] paperThenCapital
  refine ⟨rep, hrep, ?_⟩
  intro hfold
  have hreplay : ReplayedRun paperThenCapital
      (plainRun "bnb-grid" 1 .agent 1) "grid" := by
    refine ⟨Or.inr rfl, ?_, ?_⟩
    · simp [backtestCategories]
    · exact List.mem_cons_self
  obtain ⟨-, -, htiers⟩ := keptApart_of_neverFolded hfold
    (plainReceipt 5 1 2 "net_pnl_usd" "USD" 40) List.mem_cons_self
    (plainRun "bnb-grid" 1 .agent 1) List.mem_cons_self rfl "grid" hreplay
  have hlive : (⟨plainReceipt 6 3 4 "net_pnl_usd" "USD" (-3),
      plainRun "bnb-grid" 3 .agent 2, plainRun "bnb-grid" 4 .baseline 2⟩ :
      JoinedRow ℚ) ∈ joinRuns paperThenCapital := by
    refine mem_joinRuns_iff.2 ⟨?_, ⟨?_, rfl⟩, ?_, rfl⟩
    · simp [paperThenCapital]
    · simp [paperThenCapital]
    · simp [paperThenCapital]
  have htwo : (2 : Int) ≤ 1 := htiers _ hlive rfl
  omega

end Proofstand.Report
