/-
A hire leaves a whole receipt or none.

`run_hire` can stop at about a dozen places, and each stands before the
commit of the second session: whatever it did by then is the agent's row
and nothing in `runs` or `receipts`. Past the commit nothing can fail.
`persist_cases` says so of the two sessions, `conclude_eq_ok` what must
have been true of the agent by then.

# The argument

A run that raises anywhere before the second session has written the
agent's row at most; inside the session the copy of the tables is dropped.
So the two outcomes, `Left` and `Wrote`, are told apart by whether the
commit went through, and nothing that can raise comes after it.

`Recorded` relates the three rows to the two results: one pair, one
snapshot, the delta as the difference. It is stated of whatever agent,
with its values taken from what `act` and `report` gave, since nothing
else is known of an instance. `runHire_live` ties the agents that are
modelled as functions to this harness: what is proved of the pure one
holds here too.
-/
import Proofstand.Orchestrator.Persist
import Proofstand.Orchestrator.Proofs.Harness

namespace Proofstand.Persist

open Fallible Session Harness
open Anchor (Uuid)

variable {K S D P : Type}

/-- Nothing was added to or taken from the runs and the receipts. -/
def SameRecords (db db' : Db K) : Prop :=
  db'.runs = db.runs ∧ db'.receipts = db.receipts

-- ============================================================ the sessions

theorem upsertAgent_records {row : AgentRow} {db db' : Db K} {u : Unit}
    (h : upsertAgent row db = .ok (u, db')) : SameRecords db db' := by
  cases h
  exact ⟨rfl, rfl⟩

theorem insertRun_eq_ok {row : RunRow K} {db db' : Db K} {id : Uuid}
    (h : insertRun row db = .ok (id, db')) :
    id = row.id ∧ db'.runs = db.runs ++ [row]
      ∧ db'.receipts = db.receipts := by
  unfold insertRun at h
  split at h
  · cases h
  · split at h
    · cases h
      exact ⟨rfl, rfl, rfl⟩
    · cases h

theorem insertReceipt_eq_ok {row : ReceiptRow K} {db db' : Db K} {id : Uuid}
    (h : insertReceipt row db = .ok (id, db')) :
    id = row.id ∧ db'.runs = db.runs
      ∧ db'.receipts = db.receipts ++ [row] := by
  unfold insertReceipt at h
  split at h
  · cases h
  · cases h
    exact ⟨rfl, rfl, rfl⟩

/-- A value the server gives leaves the store. -/
theorem lift_eq_ok {α : Type} {x : Py α} {db db' : Db K} {a : α}
    (h : (x : Block Exc (Db K) α) db = .ok (a, db')) :
    x = .ok a ∧ db' = db := by
  cases x with
  | error e => cases h
  | ok b =>
      cases h
      exact ⟨rfl, rfl⟩

-- ============================================================== _persist

/-- The three INSERTs, and what each is given. -/
theorem writePair_inserts [Field K] {sv : Server K} {d : Performed K}
    {db db' : Db K} {ids : Uuid × Uuid × Uuid}
    (h : writePair sv d db = .ok (ids, db')) :
    ∃ (a b : RunRow K) (r : ReceiptRow K) (db₁ db₂ : Db K),
      insertRun a db = .ok (ids.1, db₁)
      ∧ insertRun b db₁ = .ok (ids.2.1, db₂)
      ∧ insertReceipt r db₂ = .ok (ids.2.2, db')
      ∧ (∃ i, sv.agentRunId = .ok i
        ∧ a = runRow d.outcome .agent i sv.pairId sv.now sv.agentWall
          d.inputs ⟨d.outcome.agentRun, d.actions.txHashes⟩)
      ∧ (∃ i, sv.baselineRunId = .ok i
        ∧ b = runRow d.outcome .baseline i sv.pairId sv.now sv.baselineWall
          d.inputs ⟨d.outcome.baselineRun, []⟩)
      ∧ r.agentRunId = ids.1 ∧ r.baselineRunId = ids.2.1
      ∧ r.metric = d.outcome.agentRun.metric
      ∧ r.unit = d.outcome.agentRun.unit
      ∧ r.agentValue = d.outcome.agentValue
      ∧ r.baselineValue = d.outcome.baselineValue
      ∧ r.delta = d.outcome.delta ∧ r.merkleLeaf = d.outcome.merkleLeaf := by
  obtain ⟨ia, db₁, hia, h⟩ := block_bind_eq_ok.1 h
  obtain ⟨a, db₂, ha, h⟩ := block_bind_eq_ok.1 h
  obtain ⟨ib, db₃, hib, h⟩ := block_bind_eq_ok.1 h
  obtain ⟨b, db₄, hb, h⟩ := block_bind_eq_ok.1 h
  obtain ⟨ir, db₅, hir, h⟩ := block_bind_eq_ok.1 h
  obtain ⟨r, db₆, hr, h⟩ := block_bind_eq_ok.1 h
  cases h
  obtain ⟨hgiven, rfl⟩ := lift_eq_ok hia
  obtain ⟨hgiven', rfl⟩ := lift_eq_ok hib
  obtain ⟨-, rfl⟩ := lift_eq_ok hir
  exact ⟨_, _, _, _, _, ha, hb, hr, ⟨ia, hgiven, rfl⟩, ⟨ib, hgiven', rfl⟩,
    rfl, rfl, rfl, rfl, rfl, rfl, rfl, rfl⟩

/-- The two runs and the receipt of one performed hire. -/
theorem writePair_eq_ok [Field K] {sv : Server K} {d : Performed K}
    {db db' : Db K} {ids : Uuid × Uuid × Uuid}
    (h : writePair sv d db = .ok (ids, db')) :
    ∃ (a b : RunRow K) (r : ReceiptRow K),
      db'.runs = db.runs ++ [a, b] ∧ db'.receipts = db.receipts ++ [r]
      ∧ ids = (a.id, b.id, r.id)
      ∧ (∃ i, a = runRow d.outcome .agent i sv.pairId sv.now sv.agentWall
          d.inputs ⟨d.outcome.agentRun, d.actions.txHashes⟩)
      ∧ (∃ i, b = runRow d.outcome .baseline i sv.pairId sv.now
          sv.baselineWall d.inputs ⟨d.outcome.baselineRun, []⟩)
      ∧ r.agentRunId = a.id ∧ r.baselineRunId = b.id
      ∧ r.metric = d.outcome.agentRun.metric
      ∧ r.unit = d.outcome.agentRun.unit
      ∧ r.agentValue = d.outcome.agentValue
      ∧ r.baselineValue = d.outcome.baselineValue
      ∧ r.delta = d.outcome.delta ∧ r.merkleLeaf = d.outcome.merkleLeaf := by
  obtain ⟨a, b, r, db₁, db₂, ha, hb, hr, ⟨ia, -, hrowa⟩, ⟨ib, -, hrowb⟩,
    hra, hrb, hrest⟩ := writePair_inserts h
  obtain ⟨hia, hruns, hreceipts⟩ := insertRun_eq_ok ha
  obtain ⟨hib, hruns', hreceipts'⟩ := insertRun_eq_ok hb
  obtain ⟨hir, hruns'', hreceipts''⟩ := insertReceipt_eq_ok hr
  rw [hruns', hruns, List.append_assoc] at hruns''
  rw [hreceipts', hreceipts] at hreceipts''
  exact ⟨a, b, r, hruns'', hreceipts'', by rw [← hia, ← hib, ← hir],
    ⟨ia, hrowa⟩, ⟨ib, hrowb⟩, hra.trans hia, hrb.trans hib, hrest⟩

/-- `ensure_agent` leaves runs and receipts, also when it raises. -/
theorem ensureAgent_records (m : MarketManifest K) (sv : Server K)
    (db : Db K) : SameRecords db (ensureAgent m sv db).2 := by
  rcases session_cases sv.upsertCommit _ db with ⟨e, h⟩ | ⟨u, db', hblock, -, h⟩
  · rw [ensureAgent, h]
    exact ⟨rfl, rfl⟩
  · rw [ensureAgent, h]
    obtain ⟨v, db₁, hlift, hrow⟩ := block_bind_eq_ok.1 hblock
    obtain ⟨-, rfl⟩ := lift_eq_ok hlift
    exact upsertAgent_records hrow

/-- `_persist` raises with what `ensure_agent` left, or wrote all three on
top of it. -/
theorem persist_cases [Field K] (m : MarketManifest K) (sv : Server K)
    (d : Performed K) (db : Db K) :
    ((∃ e, (persist m sv d db).1 = .error e)
        ∧ (persist m sv d db).2 = (ensureAgent m sv db).2)
      ∨ ∃ ids, (persist m sv d db).1 = .ok ids
        ∧ writePair sv d (ensureAgent m sv db).2
          = .ok (ids, (persist m sv d db).2) := by
  cases hres : (ensureAgent m sv db).1 with
  | error e =>
      rw [persist, afterwards_error hres]
      exact Or.inl ⟨⟨e, rfl⟩, rfl⟩
  | ok u =>
      rw [persist, afterwards_ok hres]
      rcases session_cases sv.commit (writePair sv d)
        (ensureAgent m sv db).2 with ⟨e, h⟩ | ⟨ids, db', hblock, -, h⟩
      · rw [h]
        exact Or.inl ⟨⟨e, rfl⟩, rfl⟩
      · rw [h]
        exact Or.inr ⟨ids, rfl, hblock⟩

variable [Field K] [LinearOrder K]

-- ============================================================== the records

/-- A pair of runs and their receipt, of two results: one pair, one task,
one snapshot; one metric and unit; the difference of the two values, and
the hash of what the rows say. -/
structure Recorded (sha : PyVal K → String) (a b : RunRow K)
    (r : ReceiptRow K) (agentResult baselineResult : Result K)
    (actions : Actions) : Prop where
  kinds : a.kind = .agent ∧ b.kind = .baseline
  pair : ∃ pairId, a.pairRunId = some pairId ∧ b.pairRunId = some pairId
  agent : a.agentId = b.agentId
  tier : a.tier = b.tier
  taskHash : a.taskHash = b.taskHash
  snapshot : a.dataSnapshotHash = b.dataSnapshotHash
  results : a.outputs = some ⟨agentResult, actions.txHashes⟩
    ∧ b.outputs = some ⟨baselineResult, []⟩
  points : r.agentRunId = a.id ∧ r.baselineRunId = b.id
  metric : r.metric = agentResult.metric ∧ r.metric = baselineResult.metric
  unit : r.unit = agentResult.unit ∧ r.unit = baselineResult.unit
  values : r.agentValue = agentResult.value
    ∧ r.baselineValue = baselineResult.value
  delta : r.delta = r.agentValue - r.baselineValue
  leaf : r.merkleLeaf = canonicalHash sha (.dict
    [("agent", .str a.agentId), ("tier", .int a.tier),
     ("task_hash", .str a.taskHash),
     ("data_snapshot_hash", .str a.dataSnapshotHash),
     ("metric", .str r.metric), ("unit", .str r.unit),
     ("agent_value", .float (.fin r.agentValue)),
     ("baseline_value", .float (.fin r.baselineValue)),
     ("delta", .float (.fin r.delta))])

-- ============================================================ to the outcome

/-- A comparison that comes through: the units and the metrics agree, and the
outcome is of the same run. -/
theorem compare_eq_ok {sha : PyVal K → String} {m : Manifest K} {tier : Nat}
    {taskHash snapshotHash : String} {agentResult : Result K}
    {baseline : Py (Result K)} {o : HireOutcome K}
    (h : compare sha m tier taskHash snapshotHash agentResult baseline
      = .ok o) :
    ∃ baselineResult, baseline = .ok baselineResult
      ∧ baselineResult.unit = agentResult.unit
      ∧ baselineResult.metric = agentResult.metric
      ∧ o.agentId = m.id ∧ o.tier = tier ∧ o.taskHash = taskHash
      ∧ o.dataSnapshotHash = snapshotHash ∧ o.agentRun = agentResult
      ∧ o.baselineRun = baselineResult
      ∧ o.delta = agentResult.value - baselineResult.value
      ∧ o.merkleLeaf = canonicalHash sha (leafValue m tier taskHash
          snapshotHash agentResult baselineResult.value o.delta) := by
  obtain ⟨baselineResult, hbase, h⟩ := bind_eq_ok.1 h
  split at h
  · cases h
  · rename_i hsame
    cases h
    push Not at hsame
    exact ⟨baselineResult, hbase, hsame.1, hsame.2, rfl, rfl, rfl, rfl, rfl,
      rfl, rfl, rfl⟩

/-- What was true of the agent, where there is an outcome. -/
theorem conclude_eq_ok {sha : PyVal K → String}
    {baseline : PyVal K → Py (Result K)} {agent : LiveAgent K S D P}
    {tier : Nat} {p : Prepared K S D P} {d : Performed K}
    (h : conclude sha baseline agent tier p = .ok d) :
    ∃ s agentResult s', agent.act p.state p.decision p.ctx
        = .ok (d.actions, s)
      ∧ ¬ (tier < 2 ∧ (d.actions.txHashes ≠ [] ∨ p.ctx.signer.isSome))
      ∧ agent.report s p.decision d.actions = .ok (agentResult, s')
      ∧ compare sha agent.manifest.toManifest tier p.taskHash p.snapshotHash
          agentResult (baseline (agent.snapshot p.data)) = .ok d.outcome := by
  obtain ⟨⟨actions, s⟩, hact, h⟩ := bind_eq_ok.1 h
  simp only at h
  split at h
  · cases h
  · rename_i hclean
    obtain ⟨⟨agentResult, s'⟩, hreport, h⟩ := bind_eq_ok.1 h
    obtain ⟨outcome, hcompare, h⟩ := bind_eq_ok.1 h
    cases h
    exact ⟨s, agentResult, s', hact, hclean, hreport, hcompare⟩

theorem prepare_ctx [DecidableEq P] {sha : PyVal K → String}
    {agent : LiveAgent K S D P} {tier : Nat} {raw : Dict K}
    {signer : Option String} {p : Prepared K S D P}
    (h : prepare sha agent tier raw signer = .ok p) :
    ExecContext.forTier tier signer = .ok p.ctx := by
  obtain ⟨inputs, -, h⟩ := bind_eq_ok.1 h
  obtain ⟨ctx, hctx, h⟩ := bind_eq_ok.1 h
  obtain ⟨⟨data, s⟩, -, h⟩ := bind_eq_ok.1 h
  obtain ⟨⟨decision, s'⟩, -, h⟩ := bind_eq_ok.1 h
  cases h
  exact hctx

-- ============================================================== the hire

/-- What a performed hire writes is one record of it. -/
theorem recorded_of_written {sha : PyVal K → String}
    {baseline : PyVal K → Py (Result K)} {agent : LiveAgent K S D P}
    {tier : Nat} {p : Prepared K S D P} {d : Performed K} {sv : Server K}
    {db db' : Db K} {ids : Uuid × Uuid × Uuid}
    (hconclude : conclude sha baseline agent tier p = .ok d)
    (hwrite : writePair sv d db = .ok (ids, db')) :
    ∃ (a b : RunRow K) (r : ReceiptRow K), db'.runs = db.runs ++ [a, b]
      ∧ db'.receipts = db.receipts ++ [r] ∧ ids = (a.id, b.id, r.id)
      ∧ a.agentId = agent.manifest.id ∧ a.tier = (tier : Int)
      ∧ a.status = .ok ∧ b.status = .ok
      ∧ Recorded sha a b r d.outcome.agentRun d.outcome.baselineRun
          d.actions := by
  obtain ⟨s, agentResult, s', -, -, -, hcompare⟩ := conclude_eq_ok hconclude
  obtain ⟨baselineResult, -, hunit, hmetric, hid, htier, htask, hsnap, hagent,
    hbase, hdelta, hleaf⟩ := compare_eq_ok hcompare
  obtain ⟨a, b, r, hruns, hreceipts, hids, ⟨ia, rfl⟩, ⟨ib, rfl⟩, hra, hrb,
    hrmetric, hrunit, hrav, hrbv, hrdelta, hrleaf⟩ := writePair_eq_ok hwrite
  have hav : r.agentValue = agentResult.value := by
    rw [hrav, HireOutcome.agentValue, hagent]
  have hbv : r.baselineValue = baselineResult.value := by
    rw [hrbv, HireOutcome.baselineValue, hbase]
  refine ⟨_, _, r, hruns, hreceipts, hids, hid, ?_, rfl, rfl, ?_⟩
  · exact congrArg (fun n : Nat => (n : Int)) htier
  · refine ⟨⟨rfl, rfl⟩, ⟨sv.pairId, rfl, rfl⟩, rfl, rfl, rfl, rfl,
      ⟨rfl, rfl⟩, ⟨hra, hrb⟩, ⟨hrmetric, ?_⟩, ⟨hrunit, ?_⟩, ⟨hrav, hrbv⟩,
      ?_, ?_⟩
    · rw [hrmetric, hagent, hbase, hmetric]
    · rw [hrunit, hagent, hbase, hunit]
    · rw [hrdelta, hdelta, hav, hbv]
    · rw [hrleaf, hleaf, leafValue, hrmetric, hrunit, hav, hbv, hrdelta,
        hagent]
      simp only [runRow, hid, htier, htask, hsnap]

/-- Raised, with the runs and the receipts as they were. -/
def Left (db : Db K) (out : Outcome Exc (Db K) (Hired K)) : Prop :=
  (∃ e, out.1 = .error e) ∧ SameRecords db out.2

/-- Returned, with one agent run, one baseline run and one receipt more:
the record of what is returned. -/
def Wrote (sha : PyVal K → String) (agentId : String) (tier : Nat)
    (db : Db K) (out : Outcome Exc (Db K) (Hired K)) : Prop :=
  ∃ (hired : Hired K) (a b : RunRow K) (r : ReceiptRow K)
    (actions : Actions), out.1 = .ok hired
    ∧ out.2.runs = db.runs ++ [a, b] ∧ out.2.receipts = db.receipts ++ [r]
    ∧ hired.written = some (a.id, b.id, r.id) ∧ a.agentId = agentId
    ∧ a.tier = (tier : Int) ∧ a.status = .ok ∧ b.status = .ok
    ∧ Recorded sha a b r hired.outcome.agentRun hired.outcome.baselineRun
        actions
    ∧ (tier < 2 → actions.txHashes = [])

/-- What raises before the session leaves the records. -/
theorem left_of_raised [DecidableEq P] {sha : PyVal K → String}
    {baseline : PyVal K → Py (Result K)} {agent : LiveAgent K S D P}
    {tier : Nat} {raw : Dict K} {signer : Option String} {e : Exc}
    (he : (prepare sha agent tier raw signer >>=
      conclude sha baseline agent tier) = .error e)
    (persisted : Bool) (sv : Server K) (db : Db K) :
    Left db (runHire sha baseline agent tier raw signer persisted sv db) := by
  rw [runHire, he, afterwards_error rfl]
  exact ⟨⟨e, rfl⟩, rfl, rfl⟩

/-- The session of a performed hire writes its whole record, or nothing. -/
theorem persisted_whole {sha : PyVal K → String}
    {baseline : PyVal K → Py (Result K)} {agent : LiveAgent K S D P}
    {tier : Nat} {p : Prepared K S D P} {d : Performed K}
    (hconclude : conclude sha baseline agent tier p = .ok d)
    (sv : Server K) (db : Db K) :
    Left db (afterwards (persist agent.manifest sv d db) fun ids db =>
        (.ok ⟨d.outcome, some ids⟩, db))
      ∨ Wrote sha agent.manifest.id tier db
          (afterwards (persist agent.manifest sv d db) fun ids db =>
            (.ok ⟨d.outcome, some ids⟩, db)) := by
  have hsame := ensureAgent_records agent.manifest sv db
  rcases persist_cases agent.manifest sv d db
    with ⟨⟨e, he⟩, hleft⟩ | ⟨ids, hok, hwrite⟩
  · rw [afterwards_error he]
    exact Or.inl ⟨⟨e, rfl⟩, by rw [hleft]; exact hsame⟩
  · rw [afterwards_ok hok]
    right
    obtain ⟨a, b, r, hruns, hreceipts, hids, hid, htier, ha, hb, hrecorded⟩ :=
      recorded_of_written hconclude hwrite
    obtain ⟨s, ra, s', hact, hclean, -, -⟩ := conclude_eq_ok hconclude
    refine ⟨_, a, b, r, d.actions, rfl, ?_, ?_, ?_, hid, htier, ha, hb,
      hrecorded, ?_⟩
    · rw [hruns, hsame.1]
    · rw [hreceipts, hsame.2]
    · rw [hids]
    · intro hlow
      by_contra hhashes
      exact hclean ⟨hlow, Or.inl hhashes⟩

/-- Below tier 2 a reported hash ends the hire. -/
theorem conclude_tampered {sha : PyVal K → String}
    {baseline : PyVal K → Py (Result K)} {agent : LiveAgent K S D P}
    {tier : Nat} {p : Prepared K S D P} {actions : Actions} {s : S}
    (hlow : tier < 2)
    (hact : agent.act p.state p.decision p.ctx = .ok (actions, s))
    (hhashes : actions.txHashes ≠ []) :
    ∃ e, conclude sha baseline agent tier p = .error e := by
  unfold conclude
  rw [hact, ok_bind]
  simp only
  rw [if_pos ⟨hlow, Or.inl hhashes⟩]
  exact ⟨_, rfl⟩

/-- A hire leaves the records and raises, or adds one whole record; below
tier 2 `act()` is called without a signer, and when it reports a hash the
hire raises. -/
theorem runHire_whole [DecidableEq P] (sha : PyVal K → String)
    (baseline : PyVal K → Py (Result K)) (agent : LiveAgent K S D P)
    (tier : Nat) (raw : Dict K) (signer : Option String) (persisted : Bool)
    (sv : Server K) (db : Db K) :
    (Left db
          (runHire sha baseline agent tier raw signer persisted sv db)
        ∨ persisted = true
          ∧ Wrote sha agent.manifest.id tier db
            (runHire sha baseline agent tier raw signer persisted sv db)
        ∨ persisted = false
          ∧ (runHire sha baseline agent tier raw signer persisted sv db).2
            = db)
      ∧ (tier < 2 → ∀ p, prepare sha agent tier raw signer = .ok p →
        p.ctx.signer = none
          ∧ ∀ actions s, agent.act p.state p.decision p.ctx
              = .ok (actions, s) →
            actions.txHashes ≠ [] →
            Left db
              (runHire sha baseline agent tier raw signer persisted sv
                db)) := by
  constructor
  · cases hperform : prepare sha agent tier raw signer >>=
        conclude sha baseline agent tier with
    | error e => exact Or.inl (left_of_raised hperform persisted sv db)
    | ok d =>
        obtain ⟨p, hprepare, hconclude⟩ := bind_eq_ok.1 hperform
        have hhire : runHire sha baseline agent tier raw signer persisted sv
              db
            = if persisted then
                afterwards (persist agent.manifest sv d db) fun ids db =>
                  (.ok ⟨d.outcome, some ids⟩, db)
              else (.ok ⟨d.outcome, none⟩, db) := by
          rw [runHire, hperform, afterwards_ok rfl]
        rw [hhire]
        cases persisted with
        | false => exact Or.inr (Or.inr ⟨rfl, rfl⟩)
        | true =>
            rw [if_pos rfl]
            rcases persisted_whole hconclude sv db with hleft | hwrote
            · exact Or.inl hleft
            · exact Or.inr (Or.inl ⟨rfl, hwrote⟩)
  · intro hlow p hprepare
    obtain ⟨-, hcases⟩ := forTier_cases (prepare_ctx hprepare)
    have hnone : p.ctx.signer = none := by
      rcases hcases with ⟨-, hnone⟩ | ⟨htwo, -⟩
      · exact hnone
      · omega
    refine ⟨hnone, ?_⟩
    intro actions s hact hhashes
    obtain ⟨e, he⟩ : ∃ e, conclude sha baseline agent tier p = .error e :=
      conclude_tampered hlow hact hhashes
    refine left_of_raised (e := e) ?_ persisted sv db
    rw [hprepare, ok_bind, he]

-- ==================================================== the agents modelled

omit [Field K] [LinearOrder K] in
/-- An agent whose `decide` is a function passes, with the state as it was, -/
theorem assertPure_live [DecidableEq P] (agent : Agent K S D P)
    (name category : String) (w : World K) (s : S) (d : D) :
    assertPure (LiveAgent.ofAgent agent name category w) s d
      = (Harness.assertPure agent d).map fun dec => (dec, s) := by
  unfold assertPure Harness.assertPure LiveAgent.ofAgent
  simp only [Fallible.bind_map, Fallible.map_bind]
  apply bind_congr
  intro d1
  apply bind_congr
  intro d2
  split <;> rfl

/-- and its run here is its run in the pure harness. -/
theorem conclude_live (sha : PyVal K → String) (lib : Libm K)
    (agent : Agent K S D P) (name category : String) (w w' : World K)
    (p : Harness.Prepared K S D P) (inputs : Dict K) :
    (conclude sha (fun data => Baselines.runBaseline lib
        agent.manifest.baseline data agent.manifest w')
        (LiveAgent.ofAgent agent name category w) p.tier
        ⟨inputs, p.taskHash, p.ctx, p.data, p.state, p.snapshotHash,
          p.decision⟩).map Performed.outcome
      = Harness.conclude sha lib agent p w' := by
  unfold conclude Harness.conclude
  rw [Fallible.map_bind]
  apply bind_congr
  intro acted
  obtain ⟨actions, s⟩ := acted
  simp only
  split
  · rfl
  · show ((((agent.report s p.decision actions).map fun r => (r, s)) >>=
      _).map _) = _
    rw [Fallible.map_bind, Fallible.bind_map]
    apply bind_congr
    intro r
    rw [Fallible.map_bind]
    show (Harness.settle sha lib agent.manifest p.tier p.taskHash
      p.snapshotHash (agent.snapshot p.data) r w' >>= fun o => .ok o) = _
    exact bind_pure _

/-- For such an agent and the code's own baselines, the hire with its
database comes to the outcome of the hire without. -/
theorem runHire_live [DecidableEq P] (sha : PyVal K → String) (lib : Libm K)
    (agent : Agent K S D P) (name category : String) (tier : Nat)
    (raw : Dict K) (signer : Option String) (w w' : World K)
    (sv : Server K) (db : Db K) :
    runHire sha (fun data => Baselines.runBaseline lib
        agent.manifest.baseline data agent.manifest w')
        (LiveAgent.ofAgent agent name category w) tier raw signer false sv db
      = ((Harness.runHire sha lib agent tier raw signer w w').map
          fun o => ⟨o, none⟩, db) := by
  have hperform : (prepare sha (LiveAgent.ofAgent agent name category w)
        tier raw signer >>= conclude sha (fun data =>
          Baselines.runBaseline lib agent.manifest.baseline data
            agent.manifest w') (LiveAgent.ofAgent agent name category w)
          tier).map Performed.outcome
      = Harness.runHire sha lib agent tier raw signer w w' := by
    unfold prepare Harness.runHire Harness.prepare
    rw [Fallible.map_bind]
    simp only [bind_assoc]
    apply bind_congr
    intro inputs
    apply bind_congr
    intro ctx
    apply bind_congr
    intro observed
    obtain ⟨data, state⟩ := observed
    simp only [assertPure_live, Fallible.bind_map]
    apply bind_congr
    intro decision
    simp only [pure_eq_ok, ok_bind]
    exact conclude_live sha lib agent name category w w'
      ⟨tier, _, ctx, data, state, _, decision⟩ inputs
  rw [← hperform]
  unfold runHire
  cases prepare sha (LiveAgent.ofAgent agent name category w) tier raw
      signer >>= conclude sha (fun data => Baselines.runBaseline lib
        agent.manifest.baseline data agent.manifest w')
        (LiveAgent.ofAgent agent name category w) tier with
  | error e => rfl
  | ok d => rfl

end Proofstand.Persist
