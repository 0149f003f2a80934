/-
What hires make of the tables: whatever agents are hired and however
their hires end, ids stay distinct and every receipt keeps its two runs
and its agent (`Reached.kept`).

The one assumption is the server's: `gen_random_uuid()` gives no id
twice.

# How it goes

The three INSERTs of a hire put rows at the end of their tables and the
upsert leaves all ids in place, so `Kept` is checked once for each of the
two sessions and once for their sequence (`Kept.persist`). `Reached` is
the closure under whole hires, of different agents, tiers and servers, so
what the theorem says of tables it says of any history.

`Fresh` says of the ids in a server's answers that no row has them, and
that the two runs of a pair get different ones.
-/
import Proofstand.Orchestrator.Proofs.Persist

namespace Proofstand.Persist

open Fallible Session Harness
open Anchor (Uuid)

variable {K S D P : Type}

/-- Tables as hires leave them: ids are distinct, and a receipt has an
agent run that came through, of an agent in the table, and a baseline
run. -/
structure Kept (db : Db K) : Prop where
  runs : (db.runs.map fun r => r.id).Nodup
  agents : (db.agents.map fun a => a.id).Nodup
  receipts : ∀ rc ∈ db.receipts, ∃ ar ∈ db.runs, ∃ br ∈ db.runs,
    ar.id = rc.agentRunId ∧ br.id = rc.baselineRunId ∧ ar.kind = .agent
      ∧ ar.status = .ok ∧ ar.agentId ∈ db.agents.map fun a => a.id

/-- The run an id is of. -/
theorem Kept.run_eq {db : Db K} (h : Kept db) {r r' : RunRow K}
    (hr : r ∈ db.runs) (hr' : r' ∈ db.runs) (hid : r.id = r'.id) : r = r' :=
  List.inj_on_of_nodup_map h.runs hr hr' hid

-- ============================================================= the agents

/-- The upsert replaces the agent's row or adds it. -/
theorem upsertAgent_agents {row : AgentRow} {db db' : Db K} {u : Unit}
    (h : upsertAgent row db = .ok (u, db')) :
    (db'.agents.map fun a => a.id)
      = if row.id ∈ db.agents.map fun a => a.id then
          db.agents.map fun a => a.id
        else (db.agents.map fun a => a.id) ++ [row.id] := by
  cases h
  have hany : (db.agents.any fun a => a.id = row.id) = true
      ↔ row.id ∈ db.agents.map fun a => a.id := by
    simp
  by_cases hin : row.id ∈ db.agents.map fun a => a.id
  · rw [if_pos hin]
    show List.map _ (if _ then _ else _) = _
    rw [if_pos (hany.2 hin), List.map_map]
    apply List.map_congr_left
    intro a _
    show (if a.id = row.id then row else a).id = a.id
    by_cases hid : a.id = row.id
    · rw [if_pos hid, hid]
    · rw [if_neg hid]
  · rw [if_neg hin]
    show List.map _ (if _ then _ else _) = _
    rw [if_neg (fun h => hin (hany.1 h)), List.map_append]
    rfl

/-- The agents' ids are still distinct, and none is gone. -/
theorem ensureAgent_agents (m : MarketManifest K) (sv : Server K)
    {db : Db K} (h : (db.agents.map fun a => a.id).Nodup) :
    ((ensureAgent m sv db).2.agents.map fun a => a.id).Nodup
      ∧ (db.agents.map fun a => a.id)
        ⊆ (ensureAgent m sv db).2.agents.map fun a => a.id := by
  rcases session_cases sv.upsertCommit _ db
    with ⟨e, hres⟩ | ⟨u, db', hblock, -, hres⟩
  · rw [ensureAgent, hres]
    exact ⟨h, fun _ hid => hid⟩
  · rw [ensureAgent, hres]
    obtain ⟨v, db₁, hlift, hrow⟩ := block_bind_eq_ok.1 hblock
    obtain ⟨-, rfl⟩ := lift_eq_ok hlift
    rw [upsertAgent_agents hrow]
    by_cases hin : m.id ∈ db₁.agents.map fun a => a.id
    · rw [if_pos hin]
      exact ⟨h, fun _ hid => hid⟩
    · rw [if_neg hin]
      refine ⟨?_, fun _ hid => List.mem_append_left _ hid⟩
      simpa using h.concat hin

theorem insertRun_agents {row : RunRow K} {db db' : Db K} {id : Uuid}
    (h : insertRun row db = .ok (id, db')) :
    db'.agents = db.agents
      ∧ row.agentId ∈ db.agents.map fun a => a.id := by
  unfold insertRun at h
  split at h
  · cases h
  · split at h
    · rename_i hlisted
      cases h
      exact ⟨rfl, by simpa using hlisted⟩
    · cases h

theorem insertReceipt_agents {row : ReceiptRow K} {db db' : Db K}
    {id : Uuid} (h : insertReceipt row db = .ok (id, db')) :
    db'.agents = db.agents := by
  unfold insertReceipt at h
  split at h
  · cases h
  · cases h
    rfl

/-- The pair is of an agent in the table, and leaves the table. -/
theorem writePair_agents [Field K] {sv : Server K} {d : Performed K}
    {db db' : Db K} {ids : Uuid × Uuid × Uuid}
    (h : writePair sv d db = .ok (ids, db')) :
    db'.agents = db.agents
      ∧ d.outcome.agentId ∈ db.agents.map fun a => a.id := by
  obtain ⟨a, b, r, db₁, db₂, ha, hb, hr, ⟨i, -, rfl⟩, -⟩ :=
    writePair_inserts h
  obtain ⟨hagents, hlisted⟩ := insertRun_agents ha
  refine ⟨?_, hlisted⟩
  rw [insertReceipt_agents hr, (insertRun_agents hb).1, hagents]

/-- The pair's ids are those the server gave. -/
theorem writePair_ids [Field K] {sv : Server K} {d : Performed K}
    {db db' : Db K} {ids : Uuid × Uuid × Uuid}
    (h : writePair sv d db = .ok (ids, db')) :
    sv.agentRunId = .ok ids.1 ∧ sv.baselineRunId = .ok ids.2.1 := by
  obtain ⟨a, b, r, db₁, db₂, ha, hb, hr, ⟨ia, hia, rfl⟩, ⟨ib, hib, rfl⟩,
    -⟩ := writePair_inserts h
  have hida : ids.1 = ia := (insertRun_eq_ok ha).1
  have hidb : ids.2.1 = ib := (insertRun_eq_ok hb).1
  rw [hida, hidb]
  exact ⟨hia, hib⟩

-- =============================================================== one hire

/-- The ids the server gives are new. -/
structure Fresh (sv : Server K) (db : Db K) : Prop where
  agentRun : ∀ id, sv.agentRunId = .ok id → id ∉ db.runs.map fun r => r.id
  baselineRun : ∀ id, sv.baselineRunId = .ok id →
    id ∉ db.runs.map fun r => r.id
  apart : ∀ id, sv.agentRunId = .ok id → ¬ sv.baselineRunId = .ok id

/-- More agents and the same records. -/
theorem Kept.ensureAgent {db : Db K} (h : Kept db) (m : MarketManifest K)
    (sv : Server K) : Kept (ensureAgent m sv db).2 := by
  obtain ⟨hruns, hreceipts⟩ := ensureAgent_records m sv db
  obtain ⟨hnodup, hsub⟩ := ensureAgent_agents m sv h.agents
  constructor
  · rw [hruns]
    exact h.runs
  · exact hnodup
  · intro rc hrc
    rw [hreceipts] at hrc
    obtain ⟨ar, har, br, hbr, hra, hrb, hkind, hstatus, hlisted⟩ :=
      h.receipts rc hrc
    rw [hruns]
    exact ⟨ar, har, br, hbr, hra, hrb, hkind, hstatus, hsub hlisted⟩

/-- One pair and its receipt more. -/
theorem Kept.writePair [Field K] {db db' : Db K} (h : Kept db)
    {sv : Server K} (hfresh : Fresh sv db) {d : Performed K}
    {ids : Uuid × Uuid × Uuid}
    (hwrite : writePair sv d db = .ok (ids, db')) : Kept db' := by
  obtain ⟨hagents, hlisted⟩ := writePair_agents hwrite
  obtain ⟨hia, hib⟩ := writePair_ids hwrite
  obtain ⟨a, b, r, hruns, hreceipts, rfl, ⟨ia, ha⟩, ⟨ib, hb⟩, hra, hrb, -⟩ :=
    writePair_eq_ok hwrite
  have hnew : a.id ∉ db.runs.map fun r => r.id := hfresh.agentRun _ hia
  have hnew' : b.id ∉ db.runs.map fun r => r.id :=
    hfresh.baselineRun _ hib
  have hapart : a.id ≠ b.id := by
    intro hsame
    rw [hsame] at hia
    exact hfresh.apart _ hia hib
  constructor
  · rw [hruns, List.map_append, List.nodup_append]
    refine ⟨h.runs, by simpa using hapart, ?_⟩
    intro i hi j hj hij
    subst hij
    rcases List.mem_pair.1 hj with rfl | rfl
    · exact hnew hi
    · exact hnew' hi
  · rw [hagents]
    exact h.agents
  · intro rc hrc
    rw [hreceipts, List.mem_append, List.mem_singleton] at hrc
    rw [hruns, hagents]
    rcases hrc with hrc | rfl
    · obtain ⟨ar, har, br, hbr, hrest⟩ := h.receipts rc hrc
      exact ⟨ar, List.mem_append_left _ har, br,
        List.mem_append_left _ hbr, hrest⟩
    · refine ⟨a, by simp, b, by simp, hra.symm, hrb.symm, ?_, ?_, ?_⟩
      · rw [ha]
        rfl
      · rw [ha]
        rfl
      · rw [ha]
        exact hlisted

/-- `_persist` keeps the tables so, if its ids are new. -/
theorem Kept.persist [Field K] {db : Db K} (h : Kept db) {sv : Server K}
    (hfresh : Fresh sv db) (m : MarketManifest K) (d : Performed K) :
    Kept (persist m sv d db).2 := by
  have hruns := (ensureAgent_records m sv db).1
  have hfresh' : Fresh sv (Persist.ensureAgent m sv db).2 := by
    constructor
    · rw [hruns]
      exact hfresh.agentRun
    · rw [hruns]
      exact hfresh.baselineRun
    · exact hfresh.apart
  rcases persist_cases m sv d db with ⟨-, hleft⟩ | ⟨ids, -, hwrite⟩
  · rw [hleft]
    exact h.ensureAgent m sv
  · exact (h.ensureAgent m sv).writePair hfresh' hwrite

-- ================================================================== hires

variable [Field K] [LinearOrder K]

/-- A hire leaves the tables, or what `_persist` left of them. -/
theorem runHire_db [DecidableEq P] (sha : PyVal K → String)
    (baseline : PyVal K → Py (Result K)) (agent : LiveAgent K S D P)
    (tier : Nat) (raw : Dict K) (signer : Option String) (persisted : Bool)
    (sv : Server K) (db : Db K) :
    (runHire sha baseline agent tier raw signer persisted sv db).2 = db
      ∨ ∃ d, (runHire sha baseline agent tier raw signer persisted sv db).2
        = (persist agent.manifest sv d db).2 := by
  unfold runHire
  cases prepare sha agent tier raw signer >>=
      conclude sha baseline agent tier with
  | error e => exact Or.inl rfl
  | ok d =>
      rw [afterwards_ok rfl]
      cases persisted with
      | false => exact Or.inl rfl
      | true =>
          refine Or.inr ⟨d, ?_⟩
          rw [if_pos rfl]
          cases hres : (persist agent.manifest sv d db).1 with
          | error e => rw [afterwards_error hres]
          | ok ids => rw [afterwards_ok hres]

/-- Tables that hires led to, of any agents. -/
inductive Reached (sha : PyVal K → String) : Db K → Prop
  | empty : Reached sha ⟨[], [], []⟩
  | hire {S D P : Type} [DecidableEq P]
      (baseline : PyVal K → Py (Result K)) (agent : LiveAgent K S D P)
      (tier : Nat) (raw : Dict K) (signer : Option String)
      (persisted : Bool) (sv : Server K) (db : Db K) :
      Reached sha db → Fresh sv db →
        Reached sha
          (runHire sha baseline agent tier raw signer persisted sv db).2

/-- Every history of calls keeps them. -/
theorem Reached.kept {sha : PyVal K → String} {db : Db K}
    (h : Reached sha db) : Kept db := by
  induction h with
  | empty => exact ⟨List.nodup_nil, List.nodup_nil, fun _ h => by cases h⟩
  | hire baseline agent tier raw signer persisted sv db _ hfresh ih =>
      rcases runHire_db sha baseline agent tier raw signer persisted sv db
        with hsame | ⟨d, hpersist⟩
      · rw [hsame]
        exact ih
      · rw [hpersist]
        exact ih.persist hfresh agent.manifest d

end Proofstand.Persist
