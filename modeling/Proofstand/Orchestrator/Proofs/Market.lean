/-
The numbers on an agent's page are those of its receipts.

`Paired` is what carries the counting: the runs table is a sequence of
pairs, an agent run and its baseline run, and the receipts point at the
pairs in order, one each. So the statement's two left joins meet each
agent run once, with its receipt (`Tidy.exact`), and no receipt is
lost or counted twice (`sum_counts`). A page puts together what it read at
several moments; its statistics are those of one of them
(`page_consistent`).

# The invariant

`Tidy` adds to `Paired` that ids are distinct and that every run's agent
is listed. Hires extend it by one pair (`Tidy.writePair`), anchoring
does not touch what it speaks of (`Tidy.of_same`), and the site's
invariant has the statistics besides: their agents are listed, each once.

# Moments

A page's figures come from tables of different moments. What ties them
together is that agents' receipts grow: a later moment has the
earlier one's rows and possibly more (`receipts_mono`), so counts are
bounded from both sides by the receipts at the beginning and at the end of
the request.

# Twice

A category counts runs of both kinds, so it counts a hire twice; the
pairing gives the equation (`live_runs_twice`).
-/
import Proofstand.Lib.Ranking
import Proofstand.Orchestrator.Market
import Proofstand.Orchestrator.Proofs.Platform
import Proofstand.Orchestrator.Proofs.Wins

namespace Proofstand.Market

open Anchor (Keccak Uuid uuidStr)
open Persist Queries Session Tables Transition
open Report (agentReceipts mem_agentReceipts_iff)
open Statistics (middle)

variable {K : Type}

-- ==================================================================== pairs

/-- The rows of one hire's two runs. -/
structure Pair (p : RunRow K × RunRow K) : Prop where
  kinds : p.1.kind = .agent ∧ p.2.kind = .baseline
  status : p.1.status = .ok
  agent : p.2.agentId = p.1.agentId
  started : p.2.startedAt = p.1.startedAt

/-- The runs are pairs, and each pair has its receipt. -/
structure Paired (db : Db K) (pairs : List (RunRow K × RunRow K)) :
    Prop where
  runs : db.runs = pairs.flatMap fun p => [p.1, p.2]
  receipts : (db.receipts.map fun r => r.agentRunId)
    = pairs.map fun p => p.1.id
  each : ∀ p ∈ pairs, Pair p

/-- Tables as hires and anchoring clients leave them. -/
structure Tidy (db : Db K) : Prop where
  kept : Kept db
  paired : ∃ pairs, Paired db pairs
  listed : ∀ r ∈ db.runs, r.agentId ∈ db.agents.map fun a => a.id

theorem tidy_empty : Tidy (⟨[], [], []⟩ : Db K) where
  kept := ⟨List.nodup_nil, List.nodup_nil, fun _ h => by cases h⟩
  paired := ⟨[], rfl, rfl, fun _ h => by cases h⟩
  listed := fun _ h => by cases h

theorem mem_given {sv : Server K} {id : Uuid} :
    id ∈ given sv ↔ sv.agentRunId = .ok id ∨ sv.baselineRunId = .ok id := by
  unfold given
  cases sv.agentRunId with
  | error e =>
      cases sv.baselineRunId with
      | error e' => simp [Except.toOption]
      | ok b => simp [Except.toOption, eq_comm]
  | ok a =>
      cases sv.baselineRunId with
      | error e' => simp [Except.toOption, eq_comm]
      | ok b => simp [Except.toOption, eq_comm]

/-- The test that the step makes is the condition the proofs use. -/
theorem fresh_of_isFresh {sv : Server K} {db : Db K}
    (h : isFresh sv db = true) : Fresh sv db := by
  obtain ⟨hnodup, hall⟩ := Bool.and_eq_true_iff.1 h
  have hnodup := of_decide_eq_true hnodup
  have hnew : ∀ id ∈ given sv, id ∉ db.runs.map fun r => r.id := by
    intro id hid hin
    have hnot := List.all_eq_true.1 hall id hid
    obtain ⟨r, hr, rfl⟩ := List.mem_map.1 hin
    have hany : (db.runs.any fun r' => r'.id = r.id) = true :=
      List.any_eq_true.2 ⟨r, hr, decide_eq_true rfl⟩
    rw [hany] at hnot
    cases hnot
  refine ⟨?_, ?_, ?_⟩
  · exact fun id hid => hnew id (mem_given.2 (Or.inl hid))
  · exact fun id hid => hnew id (mem_given.2 (Or.inr hid))
  · intro id hid hid'
    have hboth : given sv = [id, id] := by
      unfold given
      rw [hid, hid']
      rfl
    rw [hboth] at hnodup
    simp at hnodup

/-- A hire's agent is in the table before its runs are. -/
theorem Tidy.ensureAgent {db : Db K} (h : Tidy db) (m : MarketManifest K)
    (sv : Server K) : Tidy (ensureAgent m sv db).2 := by
  obtain ⟨hruns, hreceipts⟩ := ensureAgent_records m sv db
  obtain ⟨-, hsub⟩ := ensureAgent_agents m sv h.kept.agents
  obtain ⟨pairs, hpairs⟩ := h.paired
  refine ⟨h.kept.ensureAgent m sv, ⟨pairs, ?_, ?_, hpairs.each⟩, ?_⟩
  · rw [hruns]
    exact hpairs.runs
  · rw [hreceipts]
    exact hpairs.receipts
  · rw [hruns]
    exact fun r hr => hsub (h.listed r hr)

section

variable [Field K]

/-- One pair and its receipt more. -/
theorem Tidy.writePair {db db' : Db K} (h : Tidy db) {sv : Server K}
    (hfresh : Fresh sv db) {d : Performed K} {ids : Uuid × Uuid × Uuid}
    (hwrite : writePair sv d db = .ok (ids, db')) : Tidy db' := by
  obtain ⟨hagents, hlisted⟩ := writePair_agents hwrite
  obtain ⟨a, b, r, hruns, hreceipts, -, ⟨ia, ha⟩, ⟨ib, hb⟩, hra, -⟩ :=
    writePair_eq_ok hwrite
  obtain ⟨pairs, hpairs⟩ := h.paired
  refine ⟨h.kept.writePair hfresh hwrite, ⟨pairs ++ [(a, b)], ?_, ?_, ?_⟩,
    ?_⟩
  · rw [hruns, hpairs.runs, List.flatMap_append]
    rfl
  · rw [hreceipts, List.map_append, List.map_append, hpairs.receipts]
    simp [hra]
  · intro p hp
    rcases List.mem_append.1 hp with hp | hp
    · exact hpairs.each p hp
    · obtain rfl := List.mem_singleton.1 hp
      rw [ha, hb]
      exact ⟨⟨rfl, rfl⟩, rfl, rfl, rfl⟩
  · rw [hruns, hagents]
    intro q hq
    rcases List.mem_append.1 hq with hq | hq
    · exact h.listed q hq
    · rcases List.mem_pair.1 hq with rfl | rfl
      · rw [ha]
        exact hlisted
      · rw [hb]
        exact hlisted

/-- `_persist` keeps the tables tidy, if its ids are new. -/
theorem Tidy.persist {db : Db K} (h : Tidy db) {sv : Server K}
    (hfresh : Fresh sv db) (m : MarketManifest K) (d : Performed K) :
    Tidy (persist m sv d db).2 := by
  have hruns := (ensureAgent_records m sv db).1
  have hfresh' : Fresh sv (Persist.ensureAgent m sv db).2 := by
    constructor
    · rw [hruns]
      exact hfresh.agentRun
    · rw [hruns]
      exact hfresh.baselineRun
    · exact hfresh.apart
  rcases persist_cases m sv d db with ⟨-, hleft⟩ | ⟨ids, -, hwrite⟩
  · rw [hleft]
    exact h.ensureAgent m sv
  · exact (h.ensureAgent m sv).writePair hfresh' hwrite

end

/-- What anchoring sets is not looked at. -/
theorem Tidy.of_same {db db' : Db K} (h : Tidy db)
    {f : ReceiptRow K → ReceiptRow K}
    (hf : ∀ r, Platform.SameRecord r (f r)) (hagents : db'.agents = db.agents)
    (hruns : db'.runs = db.runs)
    (hreceipts : db'.receipts = db.receipts.map f) : Tidy db' := by
  have hids : ∀ r, (f r).agentRunId = r.agentRunId
      ∧ (f r).baselineRunId = r.baselineRunId := by
    intro r
    obtain ⟨batch, tx, hr⟩ := hf r
    rw [hr]
    exact ⟨rfl, rfl⟩
  obtain ⟨pairs, hpairs⟩ := h.paired
  refine ⟨⟨?_, ?_, ?_⟩, ⟨pairs, ?_, ?_, hpairs.each⟩, ?_⟩
  · rw [hruns]
    exact h.kept.runs
  · rw [hagents]
    exact h.kept.agents
  · rw [hruns, hagents, hreceipts]
    intro rc hrc
    obtain ⟨r, hr, rfl⟩ := List.mem_map.1 hrc
    rw [(hids r).1, (hids r).2]
    exact h.kept.receipts r hr
  · rw [hruns]
    exact hpairs.runs
  · rw [hreceipts, List.map_map, ← hpairs.receipts]
    exact List.map_congr_left fun r _ => (hids r).1
  · rw [hruns, hagents]
    exact h.listed

-- ============================================================== the counting

theorem nodup_firsts {β ι : Type} {f : β → ι} (pairs : List (β × β))
    (h : ((pairs.flatMap fun p => [p.1, p.2]).map f).Nodup) :
    (pairs.map fun p => f p.1).Nodup := by
  have hsub : (pairs.map fun p => f p.1).Sublist
      ((pairs.flatMap fun p => [p.1, p.2]).map f) := by
    clear h
    induction pairs with
    | nil => exact List.Sublist.slnil
    | cons p pairs ih =>
        rw [List.map_cons, List.flatMap_cons, List.map_append]
        exact (ih.cons (f p.2)).cons_cons (f p.1)
  exact h.sublist hsub

/-- The runs of an agent's own. -/
def agentRuns (db : Db K) (agentId : String) : List (RunRow K) :=
  (db.runs.filter fun ar => ar.kind = .agent).filter
    fun ar => ar.agentId = agentId

section

variable {db : Db K} {pairs : List (RunRow K × RunRow K)}

theorem Paired.firsts (h : Paired db pairs) :
    (db.runs.filter fun ar => ar.kind = .agent)
      = pairs.map fun p => p.1 := by
  rw [h.runs]
  have heach := h.each
  clear h
  induction pairs with
  | nil => rfl
  | cons p pairs ih =>
      have hp := (heach p List.mem_cons_self).kinds
      rw [List.flatMap_cons, List.filter_append, List.map_cons,
        ih fun q hq => heach q (List.mem_cons_of_mem p hq)]
      simp [hp.1, hp.2]

/-- Every agent run has come through. -/
theorem Paired.ok (h : Paired db pairs) (agentId : String) :
    (db.runs.filter fun ar =>
        ar.agentId = agentId ∧ ar.kind = .agent ∧ ar.status = .ok)
      = agentRuns db agentId := by
  rw [agentRuns, List.filter_filter]
  apply List.filter_congr
  intro ar har
  rw [h.runs] at har
  obtain ⟨p, hp, har⟩ := List.mem_flatMap.1 har
  have heach := h.each p hp
  rcases List.mem_pair.1 har with rfl | rfl
  · simp [heach.status]
  · simp [heach.kinds.2]

/-- An agent run has one receipt. -/
theorem Tidy.one_receipt (h : Tidy db) {ar : RunRow K} (har : ar ∈ db.runs)
    (hkind : ar.kind = .agent) :
    (db.receipts.filter fun rc => rc.agentRunId = ar.id).length = 1 := by
  obtain ⟨pairs, hpairs⟩ := h.paired
  have hnodup : (db.receipts.map fun rc => rc.agentRunId).Nodup := by
    have hruns := h.kept.runs
    rw [hpairs.runs] at hruns
    rw [hpairs.receipts]
    exact nodup_firsts pairs hruns
  have hin : ar.id ∈ db.receipts.map fun rc => rc.agentRunId := by
    have hfirst : ar ∈ pairs.map fun p => p.1 := by
      rw [← hpairs.firsts]
      exact List.mem_filter.2 ⟨har, decide_eq_true hkind⟩
    obtain ⟨p, hp, rfl⟩ := List.mem_map.1 hfirst
    rw [hpairs.receipts]
    exact List.mem_map.2 ⟨p, hp, rfl⟩
  obtain ⟨rc, hrc, hid⟩ := List.mem_map.1 hin
  rw [← hid, filter_key hnodup hrc]
  rfl

theorem mem_agentRuns {agentId : String} {ar : RunRow K} :
    ar ∈ agentRuns db agentId
      ↔ ar ∈ db.runs ∧ ar.kind = .agent ∧ ar.agentId = agentId := by
  rw [agentRuns, List.mem_filter, List.mem_filter, and_assoc]
  simp

/-- The joins meet each agent run once. -/
theorem Tidy.statsRows_fst (h : Tidy db) (agentId : String) :
    (statsRows db agentId).filterMap Prod.fst = agentRuns db agentId := by
  obtain ⟨pairs, hpairs⟩ := h.paired
  rw [statsRows, hpairs.ok]
  apply leftJoin_first
  intro ar har
  obtain ⟨har, hkind, -⟩ := mem_agentRuns.1 har
  exact h.one_receipt har hkind

/-- As many runs of an agent as receipts. -/
theorem Tidy.count (h : Tidy db) (agentId : String) :
    (agentRuns db agentId).length = (agentReceipts db agentId).length := by
  obtain ⟨pairs, hpairs⟩ := h.paired
  have hperm := Report.statsReceipts_perm h.kept agentId
  rw [← hperm.length_eq, statsRows, leftJoin_last, hpairs.ok,
    List.length_flatMap]
  have hone : ∀ ar ∈ agentRuns db agentId,
      (db.receipts.filter fun rc => rc.agentRunId = ar.id).length = 1 := by
    intro ar har
    obtain ⟨har, hkind, -⟩ := mem_agentRuns.1 har
    exact h.one_receipt har hkind
  rw [List.map_congr_left hone, List.map_const', List.sum_replicate,
    smul_eq_mul, mul_one]

end

section

variable [Field K] [LinearOrder K] {db : Db K} {agentId : String}

/-- The row of an agent says of its receipts, each once, what there is to
say. -/
structure Exact (db : Db K) (agentId : String) (st : AgentStats K) :
    Prop where
  agent : st.agentId = agentId
  runs : st.nRuns = (agentRuns db agentId).length
  receipts : st.nRuns = (agentReceipts db agentId).length
  window : st.windowDays = do
    let last ← ((agentRuns db agentId).map fun ar => ar.startedAt).max?
    let first ← ((agentRuns db agentId).map fun ar => ar.startedAt).min?
    pure (((last - first : Int) : K) / 10 ^ 6 / 86400)
  wall : st.medianWallSeconds
    = middle ((agentRuns db agentId).filterMap fun ar => ar.wallSeconds)
  winRate : st.winRate = sqlAvg
    ((agentReceipts db agentId).map fun rc => if 0 < rc.delta then 1 else 0)
  medianDelta : st.medianDelta
    = middle ((agentReceipts db agentId).map fun rc => rc.delta)
  worstDelta : st.worstDelta
    = ((agentReceipts db agentId).map fun rc => rc.delta).min?

omit [Field K] in
/-- The sorted list does not depend on the order of the rows, -/
theorem pySorted_perm {xs ys : List K} (h : xs.Perm ys) :
    pySorted xs = pySorted ys := by
  show xs.insertionSort (· ≤ ·) = ys.insertionSort (· ≤ ·)
  have hxs := List.perm_insertionSort (· ≤ ·) xs
  have hys := List.perm_insertionSort (· ≤ ·) ys
  apply List.Perm.eq_of_pairwise' (r := (· ≤ ·))
  · exact List.pairwise_insertionSort _ xs
  · exact List.pairwise_insertionSort _ ys
  · exact hxs.trans (h.trans hys.symm)

/-- so neither do the values in its middle, -/
theorem middle_perm {xs ys : List K} (h : xs.Perm ys) :
    middle xs = middle ys := by
  unfold middle
  rw [pySorted_perm h]

omit [Field K] in
/-- nor the least value, -/
theorem min?_perm {xs ys : List K} (h : xs.Perm ys) : xs.min? = ys.min? := by
  apply Option.ext
  intro m
  rw [List.min?_eq_some_iff, List.min?_eq_some_iff, h.mem_iff]
  constructor
  · exact fun hm => ⟨hm.1, fun b hb => hm.2 b (h.mem_iff.2 hb)⟩
  · exact fun hm => ⟨hm.1, fun b hb => hm.2 b (h.mem_iff.1 hb)⟩

omit [LinearOrder K] in
/-- nor the average. -/
theorem sqlAvg_perm {xs ys : List K} (h : xs.Perm ys) :
    sqlAvg xs = sqlAvg ys := by
  unfold sqlAvg
  rw [h.sum_eq, h.length_eq, h.isEmpty_eq]

/-- On tables as hires leave them, the statistics of an agent are exact. -/
theorem Tidy.exact (h : Tidy db) (agentId : String) :
    Exact db agentId (statsOf db agentId) := by
  have hruns := h.statsRows_fst agentId
  have hperm := Report.statsReceipts_perm h.kept agentId
  have hcount : (statsOf db agentId).nRuns
      = (agentRuns db agentId).length := by
    show ((statsRows db agentId).filterMap Prod.fst).length = _
    rw [hruns]
  constructor
  · rfl
  · exact hcount
  · rw [hcount, h.count]
  · rw [← hruns]
    rfl
  · rw [← hruns]
    rfl
  · exact sqlAvg_perm (hperm.map _)
  · exact middle_perm (hperm.map _)
  · exact min?_perm (hperm.map _)

/-- No receipt is lost, and none counted for two agents. -/
theorem Tidy.sum_counts (h : Tidy db) :
    ((refreshAgentStats db).map fun st => st.nRuns).sum
      = db.receipts.length := by
  obtain ⟨pairs, hpairs⟩ := h.paired
  have hcounts : (refreshAgentStats db).map (fun st => st.nRuns)
      = db.agents.map fun a => (agentRuns db a.id).length := by
    rw [refreshAgentStats, List.map_map]
    exact List.map_congr_left fun a _ => (h.exact a.id).runs
  have hall : ((db.runs.filter fun ar => ar.kind = .agent).filter
      fun ar => ar.agentId ∈ db.agents.map fun a => a.id)
        = db.runs.filter fun ar => ar.kind = .agent := by
    apply List.filter_eq_self.2
    intro ar har
    exact decide_eq_true (h.listed ar (List.mem_filter.1 har).1)
  have hjoin := join_perm (g := fun ar : RunRow K => ar.agentId)
    (db.runs.filter fun ar => ar.kind = .agent) h.kept.agents
  rw [hall] at hjoin
  have hlen := hjoin.length_eq
  rw [List.length_flatMap] at hlen
  rw [hcounts]
  refine hlen.trans ?_
  rw [hpairs.firsts, List.length_map, ← List.length_map (fun p => p.1.id),
    ← hpairs.receipts, List.length_map]

end

-- ======================================================== what a page shows

section

variable [Field K] [LinearOrder K] {db : Db K}

/-- What the API shows of a receipt of an agent. -/
def showAs (agentId : String) (r : ReceiptRow K) : ReceiptOut K where
  id := uuidStr r.id
  agentId := agentId
  agentRunId := uuidStr r.agentRunId
  baselineRunId := uuidStr r.baselineRunId
  metric := r.metric
  unit := r.unit
  agentValue := r.agentValue
  baselineValue := r.baselineValue
  delta := r.delta
  favorable := favorable r.metric r.delta
  merkleLeaf := r.merkleLeaf
  batchId := r.batchId.map uuidStr
  anchoredTx := r.anchoredTx
  createdAt := r.createdAt

/-- The receipts shown are an agent's newest, newest first. -/
structure Newest (db : Db K) (agentId : String) (limit : Nat)
    (shown rest : List (ReceiptRow K)) : Prop where
  all : (shown ++ rest).Perm (agentReceipts db agentId)
  length : shown.length = min limit (agentReceipts db agentId).length
  descending : shown.Pairwise fun a b => b.createdAt ≤ a.createdAt
  newer : ∀ r ∈ shown, ∀ q ∈ rest, q.createdAt ≤ r.createdAt

omit [Field K] [LinearOrder K] in
/-- The join's rows of an agent are its receipts. -/
theorem joined_eq (h : Kept db) (agentId : String) :
    ((joinAgentRun db).filter fun row => row.2.agentId = agentId).map
        (fun row => row.1)
      = agentReceipts db agentId := by
  rw [joinAgentRun, List.filter_flatMap, List.map_flatMap, agentReceipts,
    ← flatMap_if]
  apply List.flatMap_congr
  intro rc hrc
  obtain ⟨ar, har, -, -, hra, -⟩ := h.receipts rc hrc
  rw [← hra, filter_key h.runs har]
  by_cases hagent : ar.agentId = agentId
  · have hany : (db.runs.any fun r => r.id = ar.id
        ∧ r.agentId = agentId) = true :=
      List.any_eq_true.2 ⟨ar, har, by simp [hagent]⟩
    rw [if_pos hany]
    simp [hagent]
  · have hany : ¬ (db.runs.any fun r => r.id = ar.id
        ∧ r.agentId = agentId) = true := by
      rw [List.any_eq_true]
      intro h
      obtain ⟨r, hr, hcond⟩ := h
      obtain ⟨hid, hof⟩ := of_decide_eq_true hcond
      rw [h.run_eq hr har hid] at hof
      exact hagent hof
    rw [if_neg hany]
    simp [hagent]

/-- The page shows the newest receipts of the agent, as many as it asks for. -/
theorem receiptsFor_newest (h : Kept db) (agentId : String) (limit : Nat) :
    ∃ shown rest, Newest db agentId limit shown rest
      ∧ receiptsFor db agentId limit = shown.map (showAs agentId) := by
  let rows := (joinAgentRun db).filter fun row => row.2.agentId = agentId
  let sorted := pySortedDesc (fun row => row.1.createdAt) rows
  have hperm : sorted.Perm rows := List.perm_insertionSort _ rows
  have hsorted : sorted.Pairwise fun a b => b.1.createdAt ≤ a.1.createdAt :=
    Ranking.pairwise_sort_desc rows
  have hall : (sorted.map fun row => row.1).Perm
      (agentReceipts db agentId) := by
    rw [← joined_eq h]
    exact hperm.map _
  rw [← List.take_append_drop limit sorted] at hsorted
  obtain ⟨htake, -, hcross⟩ := List.pairwise_append.1 hsorted
  refine ⟨(sorted.take limit).map fun row => row.1,
    (sorted.drop limit).map fun row => row.1, ⟨?_, ?_, ?_, ?_⟩, ?_⟩
  · rw [← List.map_append, List.take_append_drop]
    exact hall
  · rw [List.length_map, List.length_take, ← hall.length_eq,
      List.length_map]
  · exact List.pairwise_map.2 htake
  · intro r hr q hq
    obtain ⟨row, hrow, rfl⟩ := List.mem_map.1 hr
    obtain ⟨row', hrow', rfl⟩ := List.mem_map.1 hq
    exact hcross row hrow row' hrow'
  · rw [List.map_map]
    apply List.map_congr_left
    intro row hrow
    have hof := (List.mem_filter.1
      (hperm.mem_iff.1 (List.mem_of_mem_take hrow))).2
    rw [← of_decide_eq_true hof]
    rfl

end

-- ================================================================== the site

section

variable [Field K] [LinearOrder K] {sha : PyVal K → String}

/-- The hire does what `run_hire` does for some agent on a server. -/
def IsHireOn (sha : PyVal K → String) (sv : Server K)
    (hire : Db K → Outcome Exc (Db K) (Hired K)) : Prop :=
  ∃ (S D P : Type) (_ : DecidableEq P) (baseline : PyVal K → Py (Result K))
    (agent : LiveAgent K S D P) (tier : Nat) (raw : Dict K)
    (signer : Option String) (persisted : Bool),
    hire = runHire sha baseline agent tier raw signer persisted sv

variable {sv : Server K} {hire : Db K → Outcome Exc (Db K) (Hired K)}

theorem IsHireOn.isHire (h : IsHireOn sha sv hire) :
    Platform.IsHire sha hire := by
  obtain ⟨S, D, P, inst, baseline, agent, tier, raw, signer, persisted,
    rfl⟩ := h
  exact ⟨S, D, P, inst, baseline, agent, tier, raw, signer, persisted, sv,
    rfl⟩

/-- A hire leaves the tables tidy, and forgets no agent. -/
theorem Tidy.hired {db : Db K} (h : Tidy db) (hhire : IsHireOn sha sv hire)
    (hfresh : Fresh sv db) :
    Tidy (hire db).2 ∧ (db.agents.map fun a => a.id)
      ⊆ (hire db).2.agents.map fun a => a.id := by
  obtain ⟨S, D, P, inst, baseline, agent, tier, raw, signer, persisted,
    rfl⟩ := hhire
  rcases runHire_db sha baseline agent tier raw signer persisted sv db
    with hsame | ⟨d, hpersist⟩
  · rw [hsame]
    exact ⟨h, fun _ hid => hid⟩
  · rw [hpersist]
    refine ⟨h.persist hfresh agent.manifest d, ?_⟩
    obtain ⟨-, hsub⟩ := ensureAgent_agents agent.manifest sv h.kept.agents
    rcases persist_cases agent.manifest sv d db
      with ⟨-, hleft⟩ | ⟨ids, -, hwrite⟩
    · rw [hleft]
      exact hsub
    · rw [(writePair_agents hwrite).1]
      exact hsub

variable {H : Keccak} {servers : Nat → Server K}
  {hires : Nat → Db K → Outcome Exc (Db K) (Hired K)}

/-- The tables are tidy, and the statistics are of agents that are
listed. -/
structure SiteInv (s : Site K) : Prop where
  tidy : Tidy s.db
  stats : ∀ id ∈ s.agentStats.map fun st => st.agentId,
    id ∈ s.db.agents.map fun a => a.id
  distinct : (s.agentStats.map fun st => st.agentId).Nodup

omit [Field K] [LinearOrder K] in
theorem siteInv_start : SiteInv (Site.start : Site K) where
  tidy := tidy_empty
  stats := fun _ h => by cases h
  distinct := List.nodup_nil

/-- A step of the platform keeps the tables tidy, and drops no agent. -/
theorem tidy_platform (hhires : ∀ i, IsHireOn sha (servers i) (hires i))
    {s s' : Platform.State K} {a : Platform.Action} (hs : Tidy s.db)
    (hcan : canHire servers s.db a = true)
    (h : Platform.step H hires s a = some s') :
    Tidy s'.db ∧ (s.db.agents.map fun a => a.id)
      ⊆ s'.db.agents.map fun a => a.id := by
  cases a with
  | hire i =>
      cases h
      exact hs.hired (hhires i) (fresh_of_isFresh hcan)
  | anchor a =>
      simp only [Platform.step] at h
      split at h
      case isTrue => cases h
      case isFalse hinsert =>
        obtain ⟨t, ht, rfl⟩ := Option.map_eq_some_iff.1 h
        obtain ⟨f, -, htable⟩ := Platform.table_of_step
          (Bool.eq_false_of_not_eq_true hinsert) ht
        refine ⟨hs.of_same (fun r => Platform.sameRecord_setColumns r
          (f (Platform.column r))) rfl rfl ?_, fun _ hid => hid⟩
        exact Platform.receipts_putBack htable

/-- A refresh writes one row for each agent, in the agents' order. -/
theorem refreshed_ids (db : Db K) :
    (refreshAgentStats db).map (fun st => st.agentId)
      = db.agents.map fun a => a.id := by
  rw [refreshAgentStats, List.map_map]
  rfl

/-- Every step of the site keeps the invariant, -/
theorem siteInv_step (hhires : ∀ i, IsHireOn sha (servers i) (hires i))
    {s s' : Site K} {a : Act} (hs : SiteInv s)
    (h : siteStep H servers hires s a = some s') : SiteInv s' := by
  cases a with
  | platform a =>
      simp only [siteStep] at h
      split at h
      case isFalse => cases h
      case isTrue hcan =>
        obtain ⟨base, hbase, rfl⟩ := Option.map_eq_some_iff.1 h
        obtain ⟨htidy, hsub⟩ := tidy_platform hhires hs.tidy hcan hbase
        exact ⟨htidy, fun id hid => hsub (hs.stats id hid), hs.distinct⟩
  | refresh =>
      cases h
      refine ⟨hs.tidy, fun id hid => ?_, Upserts.nodup_upserts hs.distinct⟩
      rcases (Upserts.mem_keys_upserts (refreshAgentStats s.db)).1 hid
        with hnew | hold
      · rw [refreshed_ids] at hnew
        exact hnew
      · exact hs.stats id hold

/-- and so does every run of it. -/
theorem siteInv_run (hhires : ∀ i, IsHireOn sha (servers i) (hires i))
    {s s' : Site K} {acts : List Act} (hs : SiteInv s)
    (hrun : run (siteStep H servers hires) s acts = some s') : SiteInv s' :=
  run_invariant (fun hs h => siteInv_step hhires hs h) hs hrun

-- ============================================================ one agent's row

/-- Without a run there is nothing to say. -/
theorem statsOf_unlisted {db : Db K} (h : Tidy db) {agentId : String}
    (hnot : agentId ∉ db.agents.map fun a => a.id) :
    statsOf db agentId = noStats agentId := by
  have hnone : (db.runs.filter fun ar => ar.agentId = agentId
      ∧ ar.kind = .agent ∧ ar.status = .ok) = [] := by
    apply List.filter_eq_nil_iff.2
    intro ar har hcond
    apply hnot
    rw [← (of_decide_eq_true hcond).1]
    exact h.listed ar har
  have hrows : statsRows db agentId = [(none, none)] := by
    rw [statsRows, hnone]
    rfl
  unfold statsOf
  rw [hrows]
  rfl

/-- After a refresh the row of an agent is computed of the tables. -/
theorem statsRow_refreshed {s : Site K} (hs : SiteInv s) (agentId : String) :
    statsRow (refreshStats s.db s.agentStats) agentId
      = statsOf s.db agentId := by
  by_cases hin : agentId ∈ s.db.agents.map fun a => a.id
  · obtain ⟨a, ha, rfl⟩ := List.mem_map.1 hin
    have hrow : statsOf s.db a.id ∈ refreshAgentStats s.db :=
      List.mem_map.2 ⟨a, ha, rfl⟩
    have hkeys : ((refreshAgentStats s.db).map fun st => st.agentId).Nodup := by
      rw [refreshed_ids]
      exact hs.tidy.kept.agents
    have hfound : Upserts.find (fun st => st.agentId)
        (refreshStats s.db s.agentStats) a.id = some (statsOf s.db a.id) :=
      Upserts.find_upserts hkeys hrow
    exact congrArg (fun o => o.getD (noStats a.id)) hfound
  · have hnew : agentId ∉
        (refreshAgentStats s.db).map fun st => st.agentId := by
      rw [refreshed_ids]
      exact hin
    have hold : agentId ∉ s.agentStats.map fun st => st.agentId :=
      fun h => hin (hs.stats agentId h)
    rw [statsOf_unlisted hs.tidy hin, statsRow, refreshStats,
      Upserts.find_upserts_other hnew, Upserts.find_eq_none_iff.2 hold]
    rfl

/-- Once refreshed, an agent's row is that of some moment since. -/
theorem statsRow_since (hhires : ∀ i, IsHireOn sha (servers i) (hires i))
    (agentId : String) {s₀ s₁ s : Site K} {acts : List Act}
    (hs : SiteInv s₀)
    (hrefresh : siteStep H servers hires s₀ .refresh = some s₁)
    (hrun : run (siteStep H servers hires) s₁ acts = some s) :
    ∃ p q u, run (siteStep H servers hires) s₀ p = some u
      ∧ run (siteStep H servers hires) u q = some s
      ∧ Exact u.db agentId (statsRow s.agentStats agentId) := by
  have hs₁ := siteInv_step hhires hs hrefresh
  have hstep : ∀ {s a s'}, SiteInv s →
      siteStep H servers hires s a = some s' →
      statsRow s'.agentStats agentId = statsRow s.agentStats agentId
        ∨ statsRow s'.agentStats agentId = statsOf s.db agentId := by
    intro s a s' hs h
    cases a with
    | platform a =>
        simp only [siteStep] at h
        split at h
        case isFalse => cases h
        case isTrue =>
          obtain ⟨base, -, rfl⟩ := Option.map_eq_some_iff.1 h
          exact Or.inl rfl
    | refresh =>
        cases h
        exact Or.inr (statsRow_refreshed hs agentId)
  rcases run_cached (fun hs h => siteInv_step hhires hs h) hstep hs₁ hrun
    with hsame | ⟨p, q, u, -, hp, hq, hu⟩
  · refine ⟨[], .refresh :: acts, s₀, rfl,
      (run_cons_eq_some _).2 ⟨s₁, hrefresh, hrun⟩, ?_⟩
    cases hrefresh
    rw [hsame, statsRow_refreshed hs]
    exact hs.tidy.exact agentId
  · refine ⟨.refresh :: p, q, u,
      (run_cons_eq_some _).2 ⟨s₁, hrefresh, hp⟩, hq, ?_⟩
    rw [hu]
    exact (siteInv_run hhires hs₁ hp).tidy.exact agentId

-- ================================================================== a page

/-- A run of the site is, below its views and pages, a run of the platform. -/
theorem platform_run {s s' : Site K} {acts : List Act}
    (hrun : run (siteStep H servers hires) s acts = some s') :
    ∃ as, run (Platform.step H hires) s.base as = some s'.base := by
  have hstep : ∀ {s : Site K} {a s'},
      siteStep H servers hires s a = some s' →
      ∃ bs, run (Platform.step H hires) (Site.base s) bs
        = some (Site.base s') := by
    intro s a s' h
    cases a with
    | platform a =>
        simp only [siteStep] at h
        split at h
        case isFalse => cases h
        case isTrue =>
          obtain ⟨base, hbase, rfl⟩ := Option.map_eq_some_iff.1 h
          exact ⟨[a], (run_cons_eq_some _).2 ⟨base, hbase, rfl⟩⟩
    | refresh =>
        cases h
        exact ⟨[], rfl⟩
  exact run_simulated hstep hrun

omit [Field K] [LinearOrder K] in
theorem agentRuns_nodup {db : Db K} (h : Tidy db) (agentId : String) :
    (agentRuns db agentId).Nodup := by
  apply List.Nodup.of_map fun r => r.id
  exact h.kept.runs.sublist
    ((List.filter_sublist.trans List.filter_sublist).map _)

/-- An agent's receipts become no fewer. -/
theorem receipts_mono (hhires : ∀ i, IsHireOn sha (servers i) (hires i))
    {s s' : Site K} {acts : List Act} (hs : SiteInv s)
    (hrun : run (siteStep H servers hires) s acts = some s')
    (agentId : String) :
    (agentReceipts s.db agentId).length
      ≤ (agentReceipts s'.db agentId).length := by
  have hs' := siteInv_run hhires hs hrun
  obtain ⟨as, has⟩ := platform_run hrun
  have hkept := Platform.kept_run (fun i => (hhires i).isHire) has
  rw [← hs.tidy.count, ← hs'.tidy.count]
  apply List.Subperm.length_le
  apply List.subperm_of_subset (agentRuns_nodup hs.tidy agentId)
  intro ar har
  obtain ⟨har, hcond⟩ := mem_agentRuns.1 har
  exact mem_agentRuns.2 ⟨hkept.runs ar har, hcond⟩

/-- The page of an agent, whatever happens while it is put together. Its
statistics are exact at one moment of the request, so they count no
receipt twice and leave out none there was before it; its receipts are the
newest of the moment they are read, and its curve is those, oldest
first. -/
theorem page_consistent (hhires : ∀ i, IsHireOn sha (servers i) (hires i))
    (m : MarketManifest K) {s₀ s₁ s₂ s₃ s₄ : Site K}
    {before a b c : List Act}
    (hbefore : run (siteStep H servers hires) Site.start before = some s₀)
    (hrefresh : siteStep H servers hires s₀ .refresh = some s₁)
    (ha : run (siteStep H servers hires) s₁ a = some s₂)
    (hb : run (siteStep H servers hires) s₂ b = some s₃)
    (hc : run (siteStep H servers hires) s₃ c = some s₄) :
    let page := agentDetail m s₂ s₃ s₄
    (∃ p q u, run (siteStep H servers hires) s₀ p = some u
        ∧ run (siteStep H servers hires) u q = some s₄
        ∧ Exact u.db m.id page.stats)
      ∧ (agentReceipts s₀.db m.id).length ≤ page.stats.nRuns
      ∧ page.stats.nRuns ≤ (agentReceipts s₄.db m.id).length
      ∧ ∃ shown rest, Newest s₂.db m.id 25 shown rest
        ∧ page.recentReceipts = shown.map (showAs m.id)
        ∧ page.curve.points
          = (shown.map fun r => ⟨r.createdAt, r.agentValue, r.baselineValue,
              r.delta⟩).reverse := by
  intro page
  have hs₀ := siteInv_run hhires siteInv_start hbefore
  have hs₁ := siteInv_step hhires hs₀ hrefresh
  have hs₂ := siteInv_run hhires hs₁ ha
  have hall : run (siteStep H servers hires) s₁ ((a ++ b) ++ c)
      = some s₄ := by
    rw [run_append, run_append, ha, Option.bind_some, hb, Option.bind_some,
      hc]
  obtain ⟨p, q, u, hp, hq, hexact⟩ :=
    statsRow_since hhires m.id hs₀ hrefresh hall
  have hu := siteInv_run hhires hs₀ hp
  have hcount : page.stats.nRuns = (agentReceipts u.db m.id).length :=
    hexact.receipts
  refine ⟨⟨p, q, u, hp, hq, hexact⟩, ?_, ?_, ?_⟩
  · rw [hcount]
    exact receipts_mono hhires hs₀ hp m.id
  · rw [hcount]
    exact receipts_mono hhires hu hq m.id
  · obtain ⟨shown, rest, hnewest, hreceipts⟩ :=
      receiptsFor_newest hs₂.tidy.kept m.id 25
    refine ⟨shown, rest, hnewest, hreceipts, ?_⟩
    show (receiptsFor s₂.db m.id 25).reverse.map curvePoint = _
    rw [hreceipts, ← List.map_reverse, ← List.map_reverse, List.map_map]
    rfl

end

theorem isHireOn_steady (n : Nat) :
    IsHireOn (fun _ => Platform.effs.hex) (Platform.steadyServer n)
      (Platform.steadyHire n) :=
  ⟨_, _, _, inferInstance, _, _, _, _, _, _, rfl⟩

/-- Every hire is one of the steady agent's. -/
abbrev steadySite : Site ℚ → Act → Option (Site ℚ) :=
  siteStep Keccak.everyOther Platform.steadyServer Platform.steadyHire

def twoHires : List Act := [.platform (.hire 0), .platform (.hire 1)]

/-- A client of the anchoring creates a batch. -/
def reserving : List Act :=
  [.platform (.anchor (.callCreate 0 1)), .platform (.anchor (.count 0)),
   .platform (.anchor (.update 0 7)), .platform (.anchor (.commit 0))]

/-- A page put together while a third hire persists, a client reserves a
batch and another request refreshes: its card counts two or three runs,
and it shows the three receipts there are when they are read. -/
theorem page_consistent_steady : ∃ s₀ s₁ s₂ s₃ s₄ : Site ℚ,
    run steadySite Site.start twoHires = some s₀
      ∧ steadySite s₀ .refresh = some s₁
      ∧ run steadySite s₁ [.platform (.hire 2)] = some s₂
      ∧ run steadySite s₂ reserving = some s₃
      ∧ run steadySite s₃ [.refresh] = some s₄
      ∧ 2 ≤ (agentDetail Hires.steady.manifest s₂ s₃ s₄).stats.nRuns
      ∧ (agentDetail Hires.steady.manifest s₂ s₃ s₄).stats.nRuns ≤ 3
      ∧ (agentDetail Hires.steady.manifest s₂ s₃ s₄).recentReceipts.length
        = 3 := by
  have hruns : ((run steadySite Site.start twoHires).any fun s₀ =>
      (agentReceipts s₀.db "steady").length = 2
        ∧ ((steadySite s₀ .refresh).any fun s₁ =>
          (run steadySite s₁ [.platform (.hire 2)]).any fun s₂ =>
            (agentReceipts s₂.db "steady").length = 3
              ∧ ((run steadySite s₂ reserving).any fun s₃ =>
                (run steadySite s₃ [.refresh]).any fun s₄ =>
                  (agentReceipts s₄.db "steady").length = 3) = true)
          = true) = true := by
    decide +kernel
  obtain ⟨s₀, hs₀, hrest⟩ := (Option.any_eq_true _ _).1 hruns
  obtain ⟨hbefore, hrest⟩ := of_decide_eq_true hrest
  obtain ⟨s₁, hs₁, hrest⟩ := (Option.any_eq_true _ _).1 hrest
  obtain ⟨s₂, hs₂, hrest⟩ := (Option.any_eq_true _ _).1 hrest
  obtain ⟨hread, hrest⟩ := of_decide_eq_true hrest
  obtain ⟨s₃, hs₃, hrest⟩ := (Option.any_eq_true _ _).1 hrest
  obtain ⟨s₄, hs₄, hafter⟩ := (Option.any_eq_true _ _).1 hrest
  obtain ⟨-, hlow, hhigh, shown, rest, hnewest, hreceipts, -⟩ :=
    page_consistent isHireOn_steady Hires.steady.manifest hs₀ hs₁ hs₂ hs₃ hs₄
  refine ⟨s₀, s₁, s₂, s₃, s₄, hs₀, hs₁, hs₂, hs₃, hs₄, ?_, ?_, ?_⟩
  · exact hbefore.ge.trans hlow
  · exact hhigh.trans (of_decide_eq_true hafter).le
  · rw [hreceipts, List.length_map, hnewest.length]
    show min 25 (agentReceipts s₂.db "steady").length = 3
    rw [hread]
    rfl

section

variable [Field K] [LinearOrder K] {sha : PyVal K → String} {H : Keccak}
  {servers : Nat → Server K}
  {hires : Nat → Db K → Outcome Exc (Db K) (Hired K)}

/-- A refresh leaves exactly one row an agent and none for anyone else,
each exact, and their counts add up to the receipts there are: none is
lost, and none counted for two. -/
theorem receipts_accounted (hhires : ∀ i, IsHireOn sha (servers i) (hires i))
    {s s' : Site K} {acts : List Act}
    (hrun : run (siteStep H servers hires) Site.start acts = some s)
    (hrefresh : siteStep H servers hires s .refresh = some s') :
    (s'.agentStats.map fun st => st.agentId).Nodup
      ∧ (s'.agentStats.map fun st => st.agentId).Perm
        (s.db.agents.map fun a => a.id)
      ∧ (∀ st ∈ s'.agentStats, Exact s.db st.agentId st)
      ∧ (s'.agentStats.map fun st => st.nRuns).sum
        = s.db.receipts.length := by
  have hs := siteInv_run hhires siteInv_start hrun
  have hs' := siteInv_step hhires hs hrefresh
  cases hrefresh
  have hkeys : ((refreshAgentStats s.db).map fun st => st.agentId).Nodup := by
    rw [refreshed_ids]
    exact hs.tidy.kept.agents
  have hperm : (refreshStats s.db s.agentStats).Perm
      (refreshAgentStats s.db) := by
    apply Upserts.upserts_perm hs.distinct hkeys
    intro id hid
    rw [refreshed_ids]
    exact hs.stats id hid
  refine ⟨hs'.distinct, ?_, ?_, ?_⟩
  · rw [← refreshed_ids]
    exact hperm.map fun st => st.agentId
  · intro st hst
    obtain ⟨a, -, rfl⟩ := List.mem_map.1 (hperm.mem_iff.1 hst)
    exact hs.tidy.exact a.id
  · rw [(hperm.map _).sum_eq]
    exact hs.tidy.sum_counts

end

/-- Of two hires one agent's row counts both, and there is no other. -/
theorem receipts_accounted_steady : ∃ s s' : Site ℚ,
    run steadySite Site.start twoHires = some s
      ∧ steadySite s .refresh = some s'
      ∧ (s'.agentStats.map fun st => st.agentId) = ["steady"]
      ∧ (s'.agentStats.map fun st => st.nRuns).sum = 2 := by
  have hruns : ((run steadySite Site.start twoHires).any fun s =>
      s.db.receipts.length = 2
        ∧ (s.db.agents.map fun a => a.id) = ["steady"]) = true := by
    decide +kernel
  obtain ⟨s, hs, hfacts⟩ := (Option.any_eq_true _ _).1 hruns
  obtain ⟨hcount, hagents⟩ := of_decide_eq_true hfacts
  obtain ⟨-, hids, -, hsum⟩ := receipts_accounted isHireOn_steady hs rfl
  rw [hagents] at hids
  exact ⟨s, _, hs, rfl, List.perm_singleton.1 hids, hsum.trans hcount⟩

-- ============================================================ the categories

section

variable {db : Db K} {pairs : List (RunRow K × RunRow K)}

/-- A run counts for a category. -/
def Live (db : Db K) (now : Int) (category : String) (r : RunRow K) : Prop :=
  now - 24 * 3600 * 10 ^ 6 < r.startedAt
    ∧ ∃ a ∈ db.agents, a.id = r.agentId ∧ a.category = category

instance (db : Db K) (now : Int) (category : String) :
    DecidablePred (Live db now category) := fun r =>
  inferInstanceAs (Decidable (now - 24 * 3600 * 10 ^ 6 < r.startedAt
    ∧ ∃ a ∈ db.agents, a.id = r.agentId ∧ a.category = category))

/-- The join has a row for each run that counts. -/
theorem Tidy.length_liveRows (h : Tidy db) (now : Int) (category : String) :
    (liveRows db now category).length
      = (db.runs.filter fun r => Live db now category r).length := by
  have hagents : ∀ r : RunRow K, (db.agents.filter fun a =>
      a.id = r.agentId ∧ a.category = category).length
        = if ∃ a ∈ db.agents, a.id = r.agentId ∧ a.category = category
          then 1 else 0 := by
    intro r
    split
    case isTrue hsome =>
      obtain ⟨a, ha, hid, hcat⟩ := hsome
      have hone := filter_key h.kept.agents ha
      have hsame : (db.agents.filter fun b => b.id = r.agentId
          ∧ b.category = category) = db.agents.filter fun b => b.id = a.id := by
        apply List.filter_congr
        intro b hb
        rw [decide_eq_decide, hid]
        constructor
        · exact fun hcond => hcond.1
        · intro hb'
          refine ⟨hb', ?_⟩
          rw [List.inj_on_of_nodup_map h.kept.agents hb ha (hb'.trans hid.symm)]
          exact hcat
      rw [hsame, hone]
      rfl
    case isFalse hnone =>
      rw [List.length_eq_zero_iff, List.filter_eq_nil_iff]
      exact fun a ha hcond => hnone ⟨a, ha, of_decide_eq_true hcond⟩
  rw [liveRows, List.length_flatMap]
  simp only [List.length_map, hagents]
  induction db.runs with
  | nil => rfl
  | cons r runs ih =>
      by_cases hrecent : now - 24 * 3600 * 10 ^ 6 < r.startedAt
      · by_cases hcat : ∃ a ∈ db.agents,
            a.id = r.agentId ∧ a.category = category
        · have hlive : Live db now category r := ⟨hrecent, hcat⟩
          rw [List.filter_cons_of_pos (by simpa using hrecent),
            List.filter_cons_of_pos (by simpa using hlive), List.map_cons,
            List.sum_cons, if_pos hcat, ih, List.length_cons, add_comm]
        · have hlive : ¬ Live db now category r := fun h => hcat h.2
          rw [List.filter_cons_of_pos (by simpa using hrecent),
            List.filter_cons_of_neg (by simpa using hlive), List.map_cons,
            List.sum_cons, if_neg hcat, ih, zero_add]
      · have hlive : ¬ Live db now category r := fun h => hrecent h.1
        rw [List.filter_cons_of_neg (by simpa using hrecent),
          List.filter_cons_of_neg (by simpa using hlive), ih]

theorem Pair.live {p : RunRow K × RunRow K} (h : Pair p) (now : Int)
    (category : String) :
    Live db now category p.2 ↔ Live db now category p.1 := by
  unfold Live
  rw [h.agent, h.started]

/-- Of a pair both runs count or neither. -/
theorem Paired.live_runs (h : Paired db pairs) (now : Int)
    (category : String) :
    (db.runs.filter fun r => Live db now category r).length
      = 2 * (pairs.filter fun p => Live db now category p.1).length := by
  rw [h.runs]
  have heach := h.each
  clear h
  induction pairs with
  | nil => rfl
  | cons p pairs ih =>
      have hp : Live db now category p.2 ↔ Live db now category p.1 :=
        (heach p List.mem_cons_self).live now category
      have hrest := ih fun q hq => heach q (List.mem_cons_of_mem p hq)
      rw [List.flatMap_cons, List.filter_append, List.length_append, hrest]
      by_cases hlive : Live db now category p.1
      · simp [hlive, hp]
        omega
      · simp [hlive, hp]

/-- The run of a receipt counts. -/
def LiveReceipt (db : Db K) (now : Int) (category : String) (id : Uuid) :
    Prop :=
  ∃ ar ∈ db.runs, ar.id = id ∧ Live db now category ar

instance (db : Db K) (now : Int) (category : String) :
    DecidablePred (LiveReceipt db now category) := fun id =>
  inferInstanceAs (Decidable
    (∃ ar ∈ db.runs, ar.id = id ∧ Live db now category ar))

/-- As many pairs are live as receipts whose agent run is. -/
theorem Tidy.live_receipts (h : Tidy db) (hpairs : Paired db pairs)
    (now : Int) (category : String) :
    (pairs.filter fun p => Live db now category p.1).length
      = (db.receipts.filter fun rc =>
          LiveReceipt db now category rc.agentRunId).length := by
  have hids : (db.receipts.filter fun rc =>
        LiveReceipt db now category rc.agentRunId).length
      = ((db.receipts.map fun rc => rc.agentRunId).filter fun id =>
        LiveReceipt db now category id).length := by
    rw [List.filter_map, List.length_map]
    rfl
  rw [hids, hpairs.receipts, List.filter_map, List.length_map]
  apply congrArg List.length
  apply List.filter_congr
  intro p hp
  have hin : p.1 ∈ db.runs := by
    rw [hpairs.runs]
    exact List.mem_flatMap.2 ⟨p, hp, List.mem_cons_self⟩
  show decide _ = decide _
  rw [decide_eq_decide]
  constructor
  · exact fun hlive => ⟨p.1, hin, rfl, hlive⟩
  · intro h
    obtain ⟨ar, har, hid, hlive⟩ := h
    rw [h.kept.run_eq hin har hid.symm]
    exact hlive

end

section

variable [Field K] [LinearOrder K] {sha : PyVal K → String} {H : Keccak}
  {servers : Nat → Server K}
  {hires : Nat → Db K → Outcome Exc (Db K) (Hired K)}

/-- A category's live runs are its hires of the last 24 hours, each
counted twice: its baseline run is a run too. -/
theorem live_runs_twice (hhires : ∀ i, IsHireOn sha (servers i) (hires i))
    {s : Site K} {acts : List Act}
    (hrun : run (siteStep H servers hires) Site.start acts = some s)
    (ms : List (MarketManifest K)) (now : Int) :
    ∀ out ∈ categories ms s.db now,
      out.agentCount
          = (ms.filter fun m => m.category = out.category).length
        ∧ out.liveRuns = 2 * (s.db.receipts.filter fun rc =>
          LiveReceipt s.db now out.category rc.agentRunId).length := by
  have hs := siteInv_run hhires siteInv_start hrun
  obtain ⟨pairs, hpairs⟩ := hs.tidy.paired
  intro out hout
  obtain ⟨⟨category, listed⟩, hgroup, rfl⟩ := List.mem_map.1 hout
  have hin : (category, listed) ∈ groups (fun m => m.category) ms :=
    (List.mem_insertionSort _).1 hgroup
  have hlisted := (((groups_groupsOf (fun m : MarketManifest K => m.category)
    ms).rows category listed).1 hin).2
  constructor
  · rw [hlisted]
  · show (liveRows s.db now category).length = _
    rw [hs.tidy.length_liveRows, hpairs.live_runs,
      hs.tidy.live_receipts hpairs]

end

/-- Two hires are four live runs. -/
theorem live_runs_twice_steady : ∃ s : Site ℚ,
    run steadySite Site.start twoHires = some s
      ∧ ∀ out ∈ categories [Hires.steady.manifest] s.db 1,
        out.liveRuns = 4 := by
  have hruns : ((run steadySite Site.start twoHires).any fun s =>
      (categories [Hires.steady.manifest] s.db 1).all fun out =>
        (s.db.receipts.filter fun rc =>
          LiveReceipt s.db 1 out.category rc.agentRunId).length = 2)
      = true := by decide +kernel
  obtain ⟨s, hs, hall⟩ := (Option.any_eq_true _ _).1 hruns
  refine ⟨s, hs, fun out hout => ?_⟩
  obtain ⟨-, hlive⟩ := live_runs_twice isHireOn_steady hs
    [Hires.steady.manifest] 1 out hout
  rw [hlive, of_decide_eq_true (List.all_eq_true.1 hall out hout)]

end Proofstand.Market
