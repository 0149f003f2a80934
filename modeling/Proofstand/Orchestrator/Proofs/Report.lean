/-
What the report says of the tables: one task for each agent with joined
rows, over exactly those rows (`mem_tasks_iff`), and which of the two
labels it bears (`TaskOf`). The report never raises.

# How it is used

The report's fold over sorted groups is opened here and nowhere else: the
modules that follow speak of `TaskOf` and of the rows of an agent, not of
`by_agent` or of the sort. Sorting is a permutation (`fetchRows_perm`),
and grouping loses nothing (`mem_byAgent_iff`).

That the report is made needs an argument in one place only, the mean and
the median of the deltas: a group has a row, so neither is taken of an
empty list. The last section has the plainest rows that the examples of
those modules are built from.
-/
import Proofstand.Lib.Fallible
import Proofstand.Orchestrator.Report

namespace Proofstand.Report

open Fallible Tables

variable {K : Type} [Field K] [LinearOrder K]

-- ================================================================= rows

omit [Field K] [LinearOrder K] in
theorem mem_joinRuns_iff {db : Db K} {j : JoinedRow K} :
    j ∈ joinRuns db ↔ j.receipt ∈ db.receipts
      ∧ (j.agentRun ∈ db.runs ∧ j.agentRun.id = j.receipt.agentRunId)
      ∧ j.baselineRun ∈ db.runs
      ∧ j.baselineRun.id = j.receipt.baselineRunId := by
  obtain ⟨rc, ar, br⟩ := j
  simp only [joinRuns, List.mem_flatMap, List.mem_map, List.mem_filter,
    decide_eq_true_eq, JoinedRow.mk.injEq]
  constructor
  · intro h
    obtain ⟨rc', hrc, ar', har, br', hbr, rfl, rfl, rfl⟩ := h
    exact ⟨hrc, har, hbr⟩
  · intro h
    obtain ⟨hrc, har, hbr⟩ := h
    exact ⟨rc, hrc, ar, har, br, hbr, rfl, rfl, rfl⟩

omit [Field K] [LinearOrder K] in
theorem fetchRows_perm (db : Db K) : (fetchRows db).Perm (joinRuns db) :=
  List.perm_insertionSort _ _

omit [Field K] [LinearOrder K] in
/-- The group of an agent: its joined rows, if there are any. -/
theorem mem_byAgent_iff {db : Db K} {agentId : String}
    {rows : List (JoinedRow K)} :
    (agentId, rows) ∈ byAgent db ↔ rows ≠ []
      ∧ rows = (fetchRows db).filter fun r => r.agentRun.agentId = agentId := by
  rw [byAgent, pySortedBy, List.mem_insertionSort]
  exact (groups_groupsOf _ _).rows agentId rows

omit [Field K] [LinearOrder K] in
theorem mem_rows_iff {db : Db K} {agentId : String}
    {rows : List (JoinedRow K)} (h : (agentId, rows) ∈ byAgent db)
    {j : JoinedRow K} :
    j ∈ rows ↔ j ∈ joinRuns db ∧ j.agentRun.agentId = agentId := by
  rw [(mem_byAgent_iff.1 h).2, List.mem_filter, decide_eq_true_eq,
    (fetchRows_perm db).mem_iff]

-- ================================================================= tasks

/-- The registry has the agent's manifest, in this category. -/
def Listed (reg : Registry K) (agentId category : String) : Prop :=
  ∃ m, reg.manifest? agentId = some m ∧ m.category = category

/-- `m.advantage_metric.higher_is_better if m else True`. -/
def higherIsBetter (reg : Registry K) (agentId : String) : Bool :=
  ((reg.manifest? agentId).map
    fun m => m.advantageMetric.higherIsBetter).getD true

/-- The task of an agent's rows, as far as it classifies them. -/
structure TaskOf [FloorRing K] (reg : Registry K) (agentId : String)
    (rows : List (JoinedRow K)) (t : Task K) : Prop where
  agent : t.agentId = agentId
  n : t.n = rows.length
  wins : t.outputQuality.wins = winsOf (higherIsBetter reg agentId)
    (rows.map fun r => r.receipt.delta)
  winRate : t.outputQuality.winRate
    = pyRound ((t.outputQuality.wins : K) / t.n) 3
  outputs : t.outputs = ((newestFirst rows).take 12).map
    (taskOutput (higherIsBetter reg agentId))
  backtest : t.kind = .BACKTEST
    ↔ (∃ c ∈ backtestCategories, Listed reg agentId c)
      ∧ ∀ r ∈ rows, r.agentRun.tier ≤ 1
  method : ∀ c, t.kind = .BACKTEST → Listed reg agentId c →
    t.replayMethod = replayMethods.lookup c

/-- The wins are counted by the manifest's sign, and the rate is theirs of
all; -/
theorem outputQuality_eq_ok [FloorRing K] {higher : Bool}
    {deltas : List K} {q : OutputQuality K}
    (h : outputQuality higher deltas = .ok q) :
    q.wins = winsOf higher deltas
      ∧ q.winRate = pyRound ((q.wins : K) / deltas.length) 3 := by
  obtain ⟨best, -, h⟩ := bind_eq_ok.1 h
  obtain ⟨worst, -, h⟩ := bind_eq_ok.1 h
  obtain ⟨avg, -, h⟩ := bind_eq_ok.1 h
  obtain ⟨median, -, h⟩ := bind_eq_ok.1 h
  cases h
  exact ⟨rfl, rfl⟩

/-- it fails on no deltas only. -/
theorem outputQuality_total [FloorRing K] (higher : Bool)
    {deltas : List K} (h : deltas ≠ []) :
    ∃ q, outputQuality higher deltas = .ok q := by
  obtain ⟨best, hbest⟩ : ∃ x, bestOf higher deltas = .ok x := by
    cases higher with
    | false => exact pyMin_total h
    | true => exact pyMax_total h
  obtain ⟨worst, hworst⟩ : ∃ x, worstOf higher deltas = .ok x := by
    cases higher with
    | false => exact pyMax_total h
    | true => exact pyMin_total h
  obtain ⟨avg, havg⟩ := Statistics.fmean_total h
  obtain ⟨median, hmedian⟩ := Statistics.median_total h
  unfold outputQuality
  rw [hbest, hworst, havg, hmedian]
  exact ⟨_, rfl⟩

theorem taskForGroup_eq_ok [FloorRing K] {agentId : String}
    {rows : List (JoinedRow K)} {reg : Registry K} {t : Task K}
    (h : taskForGroup agentId rows reg = .ok t) :
    TaskOf reg agentId rows t := by
  obtain ⟨firstAt, -, h⟩ := bind_eq_ok.1 h
  obtain ⟨lastAt, -, h⟩ := bind_eq_ok.1 h
  obtain ⟨quality, hquality, h⟩ := bind_eq_ok.1 h
  obtain ⟨maxTier, hmax, h⟩ := bind_eq_ok.1 h
  obtain ⟨hwins, hrate⟩ := outputQuality_eq_ok hquality
  rw [pyMax_eq_ok, List.max?_eq_some_iff] at hmax
  have htier : maxTier ≤ 1 ↔ ∀ r ∈ rows, r.agentRun.tier ≤ 1 := by
    constructor
    · intro hle r hr
      exact le_trans (hmax.2 _ (List.mem_map_of_mem hr)) hle
    · intro hall
      obtain ⟨r, hr, hmaxTier⟩ := List.mem_map.1 hmax.1
      rw [← hmaxTier]
      exact hall r hr
  have hlisted : (((reg.manifest? agentId).map fun m => m.category).any
        fun c => c ∈ backtestCategories) = true
      ↔ ∃ c ∈ backtestCategories, Listed reg agentId c := by
    unfold Listed
    cases reg.manifest? agentId with
    | none => simp
    | some m => simp
  cases rows with
  | nil => cases h
  | cons first rest =>
      cases h
      refine ⟨rfl, rfl, hwins, ?_, rfl, ?_, ?_⟩
      · rw [hrate, List.length_map]
      · show (if _ then TaskKind.BACKTEST else TaskKind.LIVE) = _ ↔ _
        rw [← htier, ← hlisted]
        split
        · rename_i hback
          simp only [true_iff]
          exact hback
        · rename_i hlive
          simp only [reduceCtorEq, false_iff]
          exact hlive
      · intro c hkind h
        obtain ⟨m, hm, rfl⟩ := h
        show (if _ then _ else _) = _
        split
        · rw [hm]
          rfl
        · rename_i hlive
          exact absurd hkind (by simp [hlive])

theorem taskForGroup_total [FloorRing K] (agentId : String)
    {rows : List (JoinedRow K)} (reg : Registry K) (h : rows ≠ []) :
    ∃ t, taskForGroup agentId rows reg = .ok t := by
  have hmap : ∀ {α : Type} (f : JoinedRow K → α), rows.map f ≠ [] :=
    fun f hnil => h (List.map_eq_nil_iff.1 hnil)
  obtain ⟨lo, hlo⟩ := pyMin_total (hmap fun r => r.receipt.createdAt)
  obtain ⟨hi, hhi⟩ := pyMax_total (hmap fun r => r.receipt.createdAt)
  obtain ⟨tier, htier⟩ := pyMax_total (hmap fun r => r.agentRun.tier)
  obtain ⟨q, hq⟩ := outputQuality_total (higherIsBetter reg agentId)
    (hmap fun r => r.receipt.delta)
  unfold taskForGroup
  rw [hlo, hhi]
  simp only [ok_bind]
  rw [higherIsBetter] at hq
  rw [hq, htier]
  cases rows with
  | nil => exact absurd rfl h
  | cons first rest => exact ⟨_, rfl⟩

-- ============================================================ the report

/-- The report is made, whatever the tables hold. -/
theorem buildAdvantageReport_total [FloorRing K] (reg : Registry K)
    (db : Db K) : ∃ rep, buildAdvantageReport reg db = .ok rep := by
  have htasks : ∀ g ∈ byAgent db,
      ∃ t, taskForGroup g.1 g.2 reg = .ok t := by
    intro g hg
    exact taskForGroup_total g.1 reg (mem_byAgent_iff.1 hg).1
  obtain ⟨tasks, htasks⟩ := mapM_total htasks
  unfold buildAdvantageReport
  rw [show List.mapM _ _ = _ from htasks]
  exact ⟨_, rfl⟩

/-- Its tasks are the agents' groups. -/
theorem mem_tasks_iff [FloorRing K] {reg : Registry K} {db : Db K}
    {rep : AdvantageReport K} (h : buildAdvantageReport reg db = .ok rep)
    {t : Task K} :
    t ∈ rep.tasks ↔ ∃ agentId rows, (agentId, rows) ∈ byAgent db
      ∧ taskForGroup agentId rows reg = .ok t := by
  obtain ⟨tasks, htasks, h⟩ := bind_eq_ok.1 h
  cases h
  rw [mem_mapM_iff htasks]
  exact Prod.exists

-- ============================================================ plain rows

/-- A run's row with nothing in it but whose and which it is. -/
def plainRun (agentId : String) (id : Anchor.Uuid) (kind : RunKind)
    (tier : Int) : RunRow ℚ where
  id := id
  agentId := agentId
  kind := kind
  pairRunId := none
  tier := tier
  taskHash := ""
  status := .ok
  startedAt := 0
  wallSeconds := some 1
  gasWei := 0
  protocolFeesUsd := 0
  agentFeeUsd := 0
  inputs := []
  outputs := none
  dataSnapshotHash := ""

/-- A receipt of two such runs. -/
def plainReceipt (id a b : Anchor.Uuid) (metric unit : String) (delta : ℚ) :
    ReceiptRow ℚ where
  id := id
  agentRunId := a
  baselineRunId := b
  metric := metric
  unit := unit
  agentValue := delta
  baselineValue := 0
  delta := delta
  merkleLeaf := ""
  createdAt := 0

end Proofstand.Report
