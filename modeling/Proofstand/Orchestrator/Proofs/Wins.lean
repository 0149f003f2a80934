/-
Where the four places that call a receipt a win say the same.

The report reads the manifest and always says what the harness said. The
API goes by the metric's name and the statistics by the sign, so a win
means one thing exactly where each delta that is not zero is of a metric
that is better when higher, and not called `wall_seconds`
(`oneMeaning_iff`). For a metric that is better when lower, the statistics
count the losses and publish the best delta as the worst.

# How it goes

The four places read the same receipts in different orders, so every
figure is first shown not to depend on the order: the report's rows and
the statistics' are permutations of the agent's receipts (`group_perm`,
`statsReceipts_perm`). Then each classifier is compared with the harness's
on one delta.

For a metric that is better when lower the statistics count the wrong
side, and two wrongs may make a right: as many wins as losses, with the
least delta equal to the greatest. `zero_of_lower` shows that this leaves
only zeros.
-/
import Proofstand.Orchestrator.Proofs.Kept
import Proofstand.Orchestrator.Proofs.Report
import Proofstand.Orchestrator.Queries

namespace Proofstand.Report

open Fallible Tables
open Persist (Kept)

variable {K : Type}

-- ============================================================= the tables

/-- The receipts of an agent's runs. -/
def agentReceipts (db : Db K) (agentId : String) : List (ReceiptRow K) :=
  db.receipts.filter fun rc =>
    db.runs.any fun ar => ar.id = rc.agentRunId ∧ ar.agentId = agentId

theorem mem_agentReceipts_iff {db : Db K} {agentId : String}
    {rc : ReceiptRow K} :
    rc ∈ agentReceipts db agentId ↔ rc ∈ db.receipts
      ∧ ∃ ar ∈ db.runs, ar.id = rc.agentRunId ∧ ar.agentId = agentId := by
  simp [agentReceipts]

/-- The report's rows of an agent are its receipts. -/
theorem reportRows_eq {db : Db K} (h : Kept db) (agentId : String) :
    ((joinRuns db).filter fun j => j.agentRun.agentId = agentId).map
        (fun j => j.receipt)
      = agentReceipts db agentId := by
  rw [joinRuns, List.filter_flatMap, List.map_flatMap, agentReceipts,
    ← flatMap_if]
  apply List.flatMap_congr
  intro rc hrc
  obtain ⟨ar, har, br, hbr, hra, hrb, -⟩ := h.receipts rc hrc
  rw [← hra, ← hrb, filter_key h.runs har, filter_key h.runs hbr]
  by_cases hagent : ar.agentId = agentId
  · have hany : (db.runs.any fun r => r.id = ar.id
        ∧ r.agentId = agentId) = true := by
      rw [List.any_eq_true]
      exact ⟨ar, har, by simp [hagent]⟩
    rw [if_pos hany]
    simp [hagent]
  · have hany : ¬ (db.runs.any fun r => r.id = ar.id
        ∧ r.agentId = agentId) = true := by
      rw [List.any_eq_true]
      intro h
      obtain ⟨r, hr, hcond⟩ := h
      obtain ⟨hid, hof⟩ := of_decide_eq_true hcond
      rw [h.run_eq hr har hid] at hof
      exact hagent hof
    rw [if_neg hany]
    simp [hagent]

/-- The rows of its task, in the report's order. -/
theorem group_perm {db : Db K} (h : Kept db) (agentId : String) :
    (((fetchRows db).filter fun r => r.agentRun.agentId = agentId).map
      fun r => r.receipt).Perm (agentReceipts db agentId) := by
  rw [← reportRows_eq h]
  exact ((fetchRows_perm db).filter _).map _

/-- So are the statistics' rows, in some order. -/
theorem statsReceipts_perm {db : Db K} (h : Kept db) (agentId : String) :
    ((Queries.statsRows db agentId).filterMap Prod.snd).Perm
      (agentReceipts db agentId) := by
  have hkeys : ((db.runs.filter fun ar => ar.agentId = agentId
      ∧ ar.kind = .agent ∧ ar.status = .ok).map fun ar => ar.id).Nodup :=
    h.runs.sublist (List.filter_sublist.map _)
  have hrows : agentReceipts db agentId = db.receipts.filter fun rc =>
      rc.agentRunId ∈ (db.runs.filter fun ar => ar.agentId = agentId
        ∧ ar.kind = .agent ∧ ar.status = .ok).map fun ar => ar.id := by
    apply List.filter_congr
    intro rc hrc
    obtain ⟨ar, har, -, -, hra, -, hkind, hstatus, -⟩ := h.receipts rc hrc
    rw [Bool.eq_iff_iff, List.any_eq_true, decide_eq_true_eq, List.mem_map]
    constructor
    · intro h
      obtain ⟨r, hr, hcond⟩ := h
      obtain ⟨hid, hof⟩ := of_decide_eq_true hcond
      obtain rfl := h.run_eq hr har (hid.trans hra.symm)
      exact ⟨r, List.mem_filter.2 ⟨hr, by simp [hof, hkind, hstatus]⟩, hid⟩
    · intro h
      obtain ⟨r, hr, hid⟩ := h
      obtain ⟨hr, hcond⟩ := List.mem_filter.1 hr
      exact ⟨r, hr, by simp [hid, (of_decide_eq_true hcond).1]⟩
  rw [hrows, Queries.statsRows, leftJoin_last]
  exact join_perm db.receipts hkeys

variable [Field K] [LinearOrder K]

-- =========================================================== one meaning

/-- The least favorable of the receipts' deltas. -/
def LeastFavorable (m : Manifest K) (rcs : List (ReceiptRow K)) (w : K) :
    Prop :=
  (∃ rc ∈ rcs, rc.delta = w)
    ∧ ∀ rc ∈ rcs, if m.advantageMetric.higherIsBetter then w ≤ rc.delta
      else rc.delta ≤ w

/-- How many receipts the harness called favorable. -/
def wins (m : Manifest K) (rcs : List (ReceiptRow K)) : Nat :=
  rcs.countP fun rc => Harness.favorable rc.delta m

/-- The API, the report and the statistics say of an agent's receipts what
the harness said. -/
structure OneMeaning [FloorRing K] (reg : Registry K) (db : Db K)
    (m : Manifest K) : Prop where
  api : ∀ rc ∈ agentReceipts db m.id, ∀ ar ∈ db.runs,
    ar.id = rc.agentRunId →
      (Queries.receiptOut rc ar).favorable = Harness.favorable rc.delta m
  report : ∀ rep, buildAdvantageReport reg db = .ok rep →
    (agentReceipts db m.id ≠ [] → ∃ t ∈ rep.tasks, t.agentId = m.id)
    ∧ ∀ t ∈ rep.tasks, t.agentId = m.id →
      t.outputQuality.wins = wins m (agentReceipts db m.id)
      ∧ t.n = (agentReceipts db m.id).length
      ∧ t.outputQuality.winRate = pyRound
        ((wins m (agentReceipts db m.id) : K)
          / (agentReceipts db m.id).length) 3
  stats : agentReceipts db m.id ≠ [] →
    (∃ s ∈ Queries.refreshAgentStats db, s.agentId = m.id)
    ∧ ∀ s ∈ Queries.refreshAgentStats db, s.agentId = m.id →
      s.winRate = some ((wins m (agentReceipts db m.id) : K)
        / (agentReceipts db m.id).length)
      ∧ ∃ w, s.worstDelta = some w
        ∧ LeastFavorable m (agentReceipts db m.id) w

/-- Nothing to say, or better when higher and not a time. -/
def PlainDelta (m : Manifest K) (rc : ReceiptRow K) : Prop :=
  rc.delta = 0
    ∨ m.advantageMetric.higherIsBetter = true ∧ rc.metric ≠ "wall_seconds"

-- ============================================================ the report

theorem mem_wall_seconds {metric : String} :
    metric ∈ Queries.lowerIsBetter ↔ metric = "wall_seconds" := by
  simp [Queries.lowerIsBetter]

/-- The report goes by the manifest's flag. -/
theorem favorable_harness (m : Manifest K) (d : K) :
    favorable d m.advantageMetric.higherIsBetter
      = Harness.favorable d m := by
  unfold favorable Harness.favorable
  by_cases hzero : d = 0
  · rw [if_pos hzero, hzero]
    simp
  · rw [if_neg hzero]

variable [FloorRing K]

/-- The report's wins are the harness's. -/
theorem reportWins_eq {reg : Registry K} {db : Db K} (h : Kept db)
    {m : MarketManifest K} (hm : reg.manifest? m.id = some m)
    {rep : AdvantageReport K} (hrep : buildAdvantageReport reg db = .ok rep)
    {t : Task K} (ht : t ∈ rep.tasks) (hagent : t.agentId = m.id) :
    t.outputQuality.wins = wins m.toManifest (agentReceipts db m.id)
      ∧ t.n = (agentReceipts db m.id).length
      ∧ t.outputQuality.winRate = pyRound
        ((wins m.toManifest (agentReceipts db m.id) : K)
          / (agentReceipts db m.id).length) 3 := by
  obtain ⟨agentId, rows, hgroup, htask⟩ := (mem_tasks_iff hrep).1 ht
  have hof := taskForGroup_eq_ok htask
  obtain rfl : agentId = m.id := hof.agent.symm.trans hagent
  have hperm := group_perm h m.id
  rw [← (mem_byAgent_iff.1 hgroup).2] at hperm
  have hhigher : higherIsBetter reg m.id
      = m.advantageMetric.higherIsBetter := by
    rw [higherIsBetter, hm]
    rfl
  have hn : t.n = (agentReceipts db m.id).length := by
    rw [hof.n, ← hperm.length_eq, List.length_map]
  have hwins : t.outputQuality.wins
      = wins m.toManifest (agentReceipts db m.id) := by
    rw [hof.wins, hhigher, winsOf, wins, ← hperm.countP_eq,
      List.countP_map, List.countP_map]
    apply List.countP_congr
    intro r _
    show favorable r.receipt.delta _ = true
      ↔ Harness.favorable r.receipt.delta m.toManifest = true
    rw [favorable_harness]
  refine ⟨hwins, hn, ?_⟩
  rw [hof.winRate, hwins, hn]

/-- An agent with receipts has a task. -/
theorem exists_task {reg : Registry K} {db : Db K} (h : Kept db)
    {agentId : String} {rep : AdvantageReport K}
    (hrep : buildAdvantageReport reg db = .ok rep)
    (hsome : agentReceipts db agentId ≠ []) :
    ∃ t ∈ rep.tasks, t.agentId = agentId := by
  have hrows : ((fetchRows db).filter fun r =>
      r.agentRun.agentId = agentId) ≠ [] := by
    intro hnone
    have hperm := group_perm h agentId
    rw [hnone, List.map_nil] at hperm
    exact hsome hperm.nil_eq.symm
  obtain ⟨t, ht⟩ := taskForGroup_total agentId reg hrows
  exact ⟨t, (mem_tasks_iff hrep).2
    ⟨agentId, _, mem_byAgent_iff.2 ⟨hrows, rfl⟩, ht⟩,
    (taskForGroup_eq_ok ht).agent⟩

-- ======================================================== the statistics

omit [LinearOrder K] [FloorRing K] in
theorem sqlAvg_indicator {α : Type} (p : α → Prop) [DecidablePred p]
    {l : List α} (h : l ≠ []) :
    Queries.sqlAvg (l.map fun a => if p a then (1 : K) else 0)
      = some ((l.countP fun a => p a : K) / l.length) := by
  have hsum : ∀ l : List α, (l.map fun a => if p a then (1 : K) else 0).sum
      = (l.countP fun a => p a : K) := by
    intro l
    induction l with
    | nil => simp
    | cons a l ih =>
        rw [List.map_cons, List.sum_cons, ih, List.countP_cons]
        by_cases hp : p a
        · simp [hp, add_comm]
        · simp [hp]
  have hnot : ¬ (l.map fun a => if p a then (1 : K) else 0).isEmpty = true := by
    simpa using h
  rw [Queries.sqlAvg, if_neg hnot, hsum, List.length_map]

omit [FloorRing K] in
/-- The statistics count positive deltas, and publish the least. -/
theorem statsOf_spec {db : Db K} (h : Kept db) {agentId : String}
    (hsome : agentReceipts db agentId ≠ []) :
    (Queries.statsOf db agentId).winRate
        = some (((agentReceipts db agentId).countP fun rc => 0 < rc.delta : K)
          / (agentReceipts db agentId).length)
      ∧ ∃ w, (Queries.statsOf db agentId).worstDelta = some w
        ∧ (∃ rc ∈ agentReceipts db agentId, rc.delta = w)
        ∧ ∀ rc ∈ agentReceipts db agentId, w ≤ rc.delta := by
  have hperm := statsReceipts_perm h agentId
  have hne : (Queries.statsRows db agentId).filterMap Prod.snd ≠ [] := by
    intro hnone
    rw [hnone] at hperm
    exact hsome hperm.nil_eq.symm
  constructor
  · show Queries.sqlAvg _ = _
    rw [sqlAvg_indicator _ hne, hperm.countP_eq, hperm.length_eq]
  · obtain ⟨w, hw⟩ := Option.isSome_iff_exists.1
      (List.isSome_min?_of_ne_nil (l := ((Queries.statsRows db
        agentId).filterMap Prod.snd).map fun rc => rc.delta) (by simpa using hne))
    obtain ⟨hin, hle⟩ := List.min?_eq_some_iff.1 hw
    obtain ⟨rc, hrc, hdelta⟩ := List.mem_map.1 hin
    refine ⟨w, hw, ⟨rc, hperm.mem_iff.1 hrc, hdelta⟩, ?_⟩
    intro rc' hrc'
    exact hle _ (List.mem_map_of_mem (hperm.mem_iff.2 hrc'))

omit [FloorRing K] in
theorem eq_statsOf {db : Db K} {agentId : String} {s : Queries.AgentStats K}
    (hs : s ∈ Queries.refreshAgentStats db) (hagent : s.agentId = agentId) :
    s = Queries.statsOf db agentId := by
  obtain ⟨a, -, rfl⟩ := List.mem_map.1 hs
  have hid : a.id = agentId := hagent
  rw [hid]

omit [FloorRing K] in
theorem exists_stats {db : Db K} (h : Kept db) {agentId : String}
    (hsome : agentReceipts db agentId ≠ []) :
    ∃ s ∈ Queries.refreshAgentStats db, s.agentId = agentId := by
  obtain ⟨rc, hrc⟩ := List.exists_mem_of_ne_nil _ hsome
  obtain ⟨hrc, ar, har, hra, hof⟩ := mem_agentReceipts_iff.1 hrc
  obtain ⟨ar', har', br, -, hra', -, -, -, hlisted⟩ := h.receipts rc hrc
  obtain rfl := h.run_eq har har' (hra.trans hra'.symm)
  obtain ⟨a, ha, haid⟩ := List.mem_map.1 hlisted
  exact ⟨_, List.mem_map_of_mem ha, haid.trans hof⟩

-- =============================================================== together

omit [FloorRing K] in
/-- The API agrees on a receipt: nothing to say, or the metric's name is
read the way the manifest's flag stands. -/
theorem api_favorable_iff {m : Manifest K} {metric : String} {d : K} :
    Queries.favorable metric d = Harness.favorable d m
      ↔ d = 0 ∨ (metric = "wall_seconds"
        ↔ m.advantageMetric.higherIsBetter = false) := by
  have hlist : metric ∈ Queries.lowerIsBetter ↔ metric = "wall_seconds" :=
    mem_wall_seconds
  by_cases hzero : d = 0
  · simp [Queries.favorable, Harness.favorable, hzero]
  · -- the two signs never agree on a delta that is not zero
    have hapart : ¬ (d < 0 ↔ 0 < d) := by
      intro hsame
      rcases lt_or_gt_of_ne hzero with hneg | hpos
      · exact hneg.not_gt (hsame.1 hneg)
      · exact hpos.not_gt (hsame.2 hpos)
    rw [Queries.favorable, Harness.favorable, if_neg hzero, if_neg hzero]
    by_cases hwall : metric = "wall_seconds"
    · rw [if_pos (hlist.2 hwall)]
      cases hhigher : m.advantageMetric.higherIsBetter with
      | true => simp [hapart, hzero, hwall]
      | false => simp [hzero, hwall]
    · rw [if_neg (fun hin => hwall (hlist.1 hin))]
      cases hhigher : m.advantageMetric.higherIsBetter with
      | true => simp [hzero, hwall]
      | false =>
          have hapart' : ¬ (0 < d ↔ d < 0) := fun hsame => hapart hsame.symm
          simp [hapart', hzero, hwall]

omit [FloorRing K] in
/-- For a metric better when higher, the harness counts positive deltas. -/
theorem wins_of_higher {m : Manifest K}
    (hhigher : m.advantageMetric.higherIsBetter = true)
    (rcs : List (ReceiptRow K)) :
    wins m rcs = rcs.countP fun rc => 0 < rc.delta := by
  apply List.countP_congr
  intro rc _
  rw [← favorable_harness, hhigher, favorable, if_pos rfl]

omit [FloorRing K] in
/-- For one better when lower, the statistics can agree on zeros only: all
deltas are the least and the greatest, and as many count for as against. -/
theorem zero_of_lower [IsStrictOrderedRing K] {m : Manifest K}
    (hlower : m.advantageMetric.higherIsBetter = false)
    {rcs : List (ReceiptRow K)} {w : K}
    (hrate : (rcs.countP fun rc => 0 < rc.delta) = wins m rcs)
    (hle : ∀ rc ∈ rcs, w ≤ rc.delta) (hleast : LeastFavorable m rcs w) :
    ∀ rc ∈ rcs, rc.delta = 0 := by
  have hsame : ∀ rc ∈ rcs, rc.delta = w := by
    intro rc hrc
    have hge := hleast.2 rc hrc
    rw [hlower] at hge
    exact le_antisymm (by simpa using hge) (hle rc hrc)
  have hwins : wins m rcs = rcs.countP fun rc => rc.delta < 0 := by
    apply List.countP_congr
    intro rc _
    rw [← favorable_harness, hlower]
    simp [favorable]
  rw [hwins] at hrate
  intro rc hrc
  rw [hsame rc hrc]
  by_contra hw
  rcases lt_or_gt_of_ne hw with hneg | hpos
  · have hnone : (rcs.countP fun rc => 0 < rc.delta) = 0 := by
      rw [List.countP_eq_zero]
      intro rc' hrc'
      simp [hsame rc' hrc', hneg.le]
    have hone : 0 < rcs.countP fun rc => rc.delta < 0 := by
      rw [List.countP_pos_iff]
      exact ⟨rc, hrc, by simp [hsame rc hrc, hneg]⟩
    omega
  · have hnone : (rcs.countP fun rc => rc.delta < 0) = 0 := by
      rw [List.countP_eq_zero]
      intro rc' hrc'
      simp [hsame rc' hrc', hpos.le]
    have hone : 0 < rcs.countP fun rc => 0 < rc.delta := by
      rw [List.countP_pos_iff]
      exact ⟨rc, hrc, by simp [hsame rc hrc, hpos]⟩
    omega

/-- If a win means one thing, no delta tells the places apart; -/
theorem plain_of_oneMeaning [IsStrictOrderedRing K] {reg : Registry K}
    {db : Db K} (hkept : Kept db) {m : Manifest K}
    (h : OneMeaning reg db m) :
    ∀ rc ∈ agentReceipts db m.id, PlainDelta m rc := by
  intro rc hrc
  cases hhigher : m.advantageMetric.higherIsBetter with
  | true =>
      obtain ⟨-, ar, har, hra, -⟩ := mem_agentReceipts_iff.1 hrc
      rcases api_favorable_iff.1 (h.api rc hrc ar har hra) with hzero | hname
      · exact Or.inl hzero
      · rw [hhigher] at hname
        exact Or.inr ⟨hhigher, by simpa using hname⟩
  | false =>
      have hsome := List.ne_nil_of_mem hrc
      obtain ⟨hrate, w, hworst, -, hle⟩ := statsOf_spec hkept hsome
      obtain ⟨⟨s, hs, hagent⟩, hstats⟩ := h.stats hsome
      obtain ⟨hrate', w', hworst', hleast⟩ := hstats s hs hagent
      rw [eq_statsOf hs hagent] at hrate' hworst'
      obtain rfl : w = w' := Option.some.inj (hworst.symm.trans hworst')
      have hlen : ((agentReceipts db m.id).length : K) ≠ 0 := by
        rw [Nat.cast_ne_zero]
        exact fun hzero => hsome (List.length_eq_zero_iff.1 hzero)
      have hcount := Option.some.inj (hrate.symm.trans hrate')
      rw [div_left_inj' hlen, Nat.cast_inj] at hcount
      exact Or.inl (zero_of_lower hhigher hcount hle hleast rc hrc)

/-- and if none does, it means one thing. -/
theorem oneMeaning_of_plain {reg : Registry K} {db : Db K}
    (hkept : Kept db) {m : MarketManifest K}
    (hm : reg.manifest? m.id = some m)
    (h : ∀ rc ∈ agentReceipts db m.id, PlainDelta m.toManifest rc) :
    OneMeaning reg db m.toManifest := by
  constructor
  · intro rc hrc ar _ _
    apply api_favorable_iff.2
    rcases h rc hrc with hzero | ⟨hhigher, hname⟩
    · exact Or.inl hzero
    · exact Or.inr (by simp [hhigher, hname])
  · intro rep hrep
    exact ⟨exists_task hkept hrep,
      fun t ht hagent => reportWins_eq hkept hm hrep ht hagent⟩
  · intro hsome
    refine ⟨exists_stats hkept hsome, ?_⟩
    intro s hs hagent
    obtain ⟨hrate, w, hworst, hin, hle⟩ := statsOf_spec hkept hsome
    rw [eq_statsOf hs hagent, hrate, hworst]
    cases hhigher : m.advantageMetric.higherIsBetter with
    | true =>
        refine ⟨by rw [wins_of_higher hhigher], w, rfl, hin, ?_⟩
        intro rc hrc
        rw [hhigher, if_pos rfl]
        exact hle rc hrc
    | false =>
        have hzero : ∀ rc ∈ agentReceipts db m.id, rc.delta = 0 := by
          intro rc hrc
          rcases h rc hrc with hzero | ⟨hup, -⟩
          · exact hzero
          · rw [hhigher] at hup
            cases hup
        have hwins : wins m.toManifest (agentReceipts db m.id)
            = (agentReceipts db m.id).countP fun rc => 0 < rc.delta := by
          apply List.countP_congr
          intro rc hrc
          simp [Harness.favorable, hzero rc hrc]
        refine ⟨by rw [hwins], w, rfl, hin, ?_⟩
        intro rc hrc
        obtain ⟨rc', hrc', hw⟩ := hin
        rw [hhigher, ← hw, hzero rc hrc, hzero rc' hrc']
        simp

/-- A win means one thing in the four places exactly where the agent's
deltas that are not zero are better when higher, and no times. -/
theorem oneMeaning_iff [IsStrictOrderedRing K] {reg : Registry K}
    {db : Db K} {m : MarketManifest K} (hm : reg.manifest? m.id = some m)
    (hkept : Kept db) :
    OneMeaning reg db m.toManifest
      ↔ ∀ rc ∈ agentReceipts db m.id, PlainDelta m.toManifest rc :=
  ⟨plain_of_oneMeaning hkept, oneMeaning_of_plain hkept hm⟩

/-- One hire of an agent. -/
def oneHire (agentId category metric unit : String) (delta : ℚ) : Db ℚ where
  agents := [⟨agentId, category⟩]
  runs := [plainRun agentId 1 .agent 0, plainRun agentId 2 .baseline 0]
  receipts := [plainReceipt 3 1 2 metric unit delta]

theorem kept_oneHire (agentId category metric unit : String) (delta : ℚ) :
    Kept (oneHire agentId category metric unit delta) := by
  constructor
  · show [(1 : Anchor.Uuid), 2].Nodup
    decide
  · exact List.nodup_singleton _
  · intro rc hrc
    obtain rfl := List.mem_singleton.1 hrc
    exact ⟨plainRun agentId 1 .agent 0, by simp [oneHire],
      plainRun agentId 2 .baseline 0, by simp [oneHire], rfl, rfl, rfl, rfl,
      List.mem_singleton.2 rfl⟩

/-- `pcs-yield`, as far as a win goes. -/
def yieldListed : MarketManifest ℚ where
  id := "pcs-yield"
  tiers := [0]
  inputs := []
  baseline := "top_headline_apr"
  advantageMetric := ⟨"net_apr_delta_pct", "pct", true⟩
  maxLossPct := none
  name := "PancakeSwap net-yield router"
  category := "yield"

/-- Its percentages mean one thing. -/
theorem oneMeaning_yield : OneMeaning [("pcs-yield", some yieldListed)]
    (oneHire "pcs-yield" "yield" "net_apr_delta_pct" "pct" 2)
    yieldListed.toManifest := by
  apply (oneMeaning_iff (m := yieldListed) rfl (kept_oneHire _ _ _ _ _)).2
  intro rc hrc
  obtain ⟨hrc, -⟩ := mem_agentReceipts_iff.1 hrc
  obtain rfl := List.mem_singleton.1 hrc
  exact Or.inr ⟨rfl, by simp [plainReceipt]⟩

/-- `bsc-sentry`, likewise. -/
def sentryListed : MarketManifest ℚ where
  id := "bsc-sentry"
  tiers := [0]
  inputs := []
  baseline := "manual_analyst"
  advantageMetric := ⟨"wall_seconds", "seconds", false⟩
  maxLossPct := none
  name := "BSC token & pool security sentry"
  category := "security"

/-- An audit 100 seconds faster than the analyst's is a win for the harness
and a loss in the statistics. -/
theorem faster_audit_lost : Kept (oneHire "bsc-sentry" "security"
      "wall_seconds" "seconds" (-100))
    ∧ ¬ OneMeaning [("bsc-sentry", some sentryListed)]
      (oneHire "bsc-sentry" "security" "wall_seconds" "seconds" (-100))
      sentryListed.toManifest := by
  refine ⟨kept_oneHire _ _ _ _ _, ?_⟩
  intro hmeaning
  have hmine : plainReceipt 3 1 2 "wall_seconds" "seconds" (-100)
      ∈ agentReceipts (oneHire "bsc-sentry" "security" "wall_seconds"
        "seconds" (-100)) "bsc-sentry" := by
    refine mem_agentReceipts_iff.2 ⟨List.mem_singleton.2 rfl,
      plainRun "bsc-sentry" 1 .agent 0, List.mem_cons_self, rfl, rfl⟩
  rcases plain_of_oneMeaning (kept_oneHire _ _ _ _ _) hmeaning _ hmine
    with hzero | ⟨hhigher, -⟩
  · have hne : ¬ (-100 : ℚ) = 0 := by norm_num
    exact hne hzero
  · cases hhigher

end Proofstand.Report
