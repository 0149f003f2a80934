/-
What the report says a task cost.

The three cost columns of `runs` are summed into the section, and no
INSERT of the harness names them: they hold their default, 0, in every
row any history of hires leaves (`Persisted.rows`). So every task's note
is the one of a simulated run, and it is true exactly as long as no hire
that was persisted had sent anything.

# The invariant

`Rows` says of the tables a history leaves that no run has a cost, that a
run which sent something is of a hire that was persisted, and that such a
hire has its row in the join. A hire that raised, or that nobody asked to
persist, may have sent a transaction as well, and leaves no run.

From there the report is a function of rows without costs
(`taskCost_simulated`): the note does not depend on what the runs did.
-/
import Proofstand.Orchestrator.Proofs.Kept
import Proofstand.Orchestrator.Proofs.Backtests

namespace Proofstand

open Fallible Session
open Anchor (Uuid)

variable {K S D P : Type}

-- ============================================================== histories

namespace Persist

variable [Field K] [LinearOrder K]

/-- Tables that a history of `run_hire` calls led to, and what `_persist`
was given in those that came through it, in order. -/
inductive Persisted (sha : PyVal K → String) :
    List (Performed K) → Db K → Prop
  | empty : Persisted sha [] ⟨[], [], []⟩
  | stopped {S D P : Type} [DecidableEq P]
      (baseline : PyVal K → Py (Result K)) (agent : LiveAgent K S D P)
      (tier : Nat) (raw : Dict K) (signer : Option String)
      (persisted : Bool) (sv : Server K) (ds : List (Performed K))
      (db : Db K) : Persisted sha ds db →
      (persisted = false ∨ ∃ e,
        (runHire sha baseline agent tier raw signer persisted sv db).1
          = .error e) →
      Persisted sha ds
        (runHire sha baseline agent tier raw signer persisted sv db).2
  | wrote {S D P : Type} [DecidableEq P]
      (baseline : PyVal K → Py (Result K)) (agent : LiveAgent K S D P)
      (tier : Nat) (raw : Dict K) (signer : Option String) (sv : Server K)
      (ds : List (Performed K)) (db : Db K) (d : Performed K)
      (hired : Hired K) : Persisted sha ds db →
      (prepare sha agent tier raw signer >>=
        conclude sha baseline agent tier) = .ok d →
      (runHire sha baseline agent tier raw signer true sv db).1
        = .ok hired →
      Persisted sha (ds ++ [d])
        (runHire sha baseline agent tier raw signer true sv db).2

/-- Every call of `run_hire` continues a history. -/
theorem Persisted.hire [DecidableEq P] {sha : PyVal K → String}
    {ds : List (Performed K)} {db : Db K} (h : Persisted sha ds db)
    (baseline : PyVal K → Py (Result K)) (agent : LiveAgent K S D P)
    (tier : Nat) (raw : Dict K) (signer : Option String) (persisted : Bool)
    (sv : Server K) :
    ∃ ds', Persisted sha ds'
      (runHire sha baseline agent tier raw signer persisted sv db).2 := by
  cases hres : (runHire sha baseline agent tier raw signer persisted sv
      db).1 with
  | error e =>
      exact ⟨ds, h.stopped baseline agent tier raw signer persisted sv ds db
        (Or.inr ⟨e, hres⟩)⟩
  | ok hired =>
      cases persisted with
      | false =>
          exact ⟨ds, h.stopped baseline agent tier raw signer false sv ds db
            (Or.inl rfl)⟩
      | true =>
          cases hd : prepare sha agent tier raw signer >>=
              conclude sha baseline agent tier with
          | error e =>
              rw [runHire, hd, afterwards_error rfl] at hres
              cases hres
          | ok d =>
              exact ⟨ds ++ [d], h.wrote baseline agent tier raw signer sv ds
                db d hired hd hres⟩

/-- The tables that hires lead to are those of a history. -/
theorem Reached.persisted {sha : PyVal K → String} {db : Db K}
    (h : Reached sha db) : ∃ ds, Persisted sha ds db := by
  induction h with
  | empty => exact ⟨[], .empty⟩
  | hire baseline agent tier raw signer persisted sv db _ _ ih =>
      obtain ⟨ds, hds⟩ := ih
      exact hds.hire baseline agent tier raw signer persisted sv

-- ================================================================ the rows

end Persist

/-- The run reported a transaction. -/
def Sent (r : RunRow K) : Prop :=
  ∃ o, r.outputs = some o ∧ o.txHashes ≠ []

namespace Persist

variable [Field K] [LinearOrder K]

/-- No run has a cost, a run that sent something is of a persisted hire,
and every persisted hire has its joined row. -/
structure Rows (ds : List (Performed K)) (db : Db K) : Prop where
  costless : ∀ r ∈ db.runs,
    r.gasWei = 0 ∧ r.protocolFeesUsd = 0 ∧ r.agentFeeUsd = 0
  sent : ∀ r ∈ db.runs, Sent r → ∃ d ∈ ds, d.actions.txHashes ≠ []
  joined : ∀ d ∈ ds, ∃ j ∈ Report.joinRuns db,
    j.agentRun.outputs = some ⟨d.outcome.agentRun, d.actions.txHashes⟩

omit [LinearOrder K] in
/-- A step that leaves the three tables leaves the account of them; -/
theorem Rows.of_same {ds : List (Performed K)} {db db' : Db K}
    (h : Rows ds db) (hsame : SameRecords db db') : Rows ds db' := by
  obtain ⟨hruns, hreceipts⟩ := hsame
  constructor
  · rw [hruns]
    exact h.costless
  · rw [hruns]
    exact h.sent
  · intro d hd
    obtain ⟨j, hj, hout⟩ := h.joined d hd
    refine ⟨j, ?_, hout⟩
    rw [Report.mem_joinRuns_iff] at hj ⊢
    rw [hruns, hreceipts]
    exact hj

omit [LinearOrder K] in
/-- a pair that is written adds its own rows. -/
theorem Rows.of_written {ds : List (Performed K)} {sv : Server K}
    {d : Performed K} {db db' : Db K} {ids : Uuid × Uuid × Uuid}
    (h : Rows ds db) (hwrite : writePair sv d db = .ok (ids, db')) :
    Rows (ds ++ [d]) db' := by
  obtain ⟨a, b, r, hruns, hreceipts, -, ⟨ia, rfl⟩, ⟨ib, rfl⟩, hra, hrb, -⟩ :=
    writePair_eq_ok hwrite
  constructor
  · intro run hrun
    rw [hruns, List.mem_append, List.mem_pair] at hrun
    rcases hrun with hrun | rfl | rfl
    · exact h.costless run hrun
    · exact ⟨rfl, rfl, rfl⟩
    · exact ⟨rfl, rfl, rfl⟩
  · intro run hrun hsent
    rw [hruns, List.mem_append, List.mem_pair] at hrun
    rcases hrun with hrun | rfl | rfl
    · obtain ⟨d', hd', hhashes⟩ := h.sent run hrun hsent
      exact ⟨d', List.mem_append_left _ hd', hhashes⟩
    · obtain ⟨o, ho, hhashes⟩ := hsent
      cases ho
      exact ⟨d, List.mem_append_right _ List.mem_cons_self, hhashes⟩
    · -- a baseline's row has no hashes
      obtain ⟨o, ho, hhashes⟩ := hsent
      cases ho
      exact absurd rfl hhashes
  · intro d' hd'
    rcases List.mem_append.1 hd' with hd' | hd'
    · obtain ⟨j, hj, hout⟩ := h.joined d' hd'
      refine ⟨j, ?_, hout⟩
      rw [Report.mem_joinRuns_iff] at hj ⊢
      rw [hruns, hreceipts]
      obtain ⟨hrc, ⟨har, hida⟩, hbr, hidb⟩ := hj
      exact ⟨List.mem_append_left _ hrc, ⟨List.mem_append_left _ har, hida⟩,
        List.mem_append_left _ hbr, hidb⟩
    · rw [List.mem_singleton.1 hd']
      refine ⟨⟨r, _, _⟩, Report.mem_joinRuns_iff.2
        ⟨?_, ⟨?_, hra.symm⟩, ?_, hrb.symm⟩, rfl⟩
      · rw [hreceipts]
        exact List.mem_append_right _ List.mem_cons_self
      · rw [hruns]
        exact List.mem_append_right _ List.mem_cons_self
      · rw [hruns]
        exact List.mem_append_right _
          (List.mem_cons_of_mem _ List.mem_cons_self)

/-- A hire that raised, or was not to be persisted, leaves the records. -/
theorem runHire_stopped [DecidableEq P] {sha : PyVal K → String}
    {baseline : PyVal K → Py (Result K)} {agent : LiveAgent K S D P}
    {tier : Nat} {raw : Dict K} {signer : Option String} {persisted : Bool}
    {sv : Server K} {db : Db K}
    (h : persisted = false ∨ ∃ e,
      (runHire sha baseline agent tier raw signer persisted sv db).1
        = .error e) :
    SameRecords db
      (runHire sha baseline agent tier raw signer persisted sv db).2 := by
  rcases (runHire_whole sha baseline agent tier raw signer persisted sv
    db).1 with hleft | ⟨htrue, hwrote⟩ | ⟨-, hsame⟩
  · exact hleft.2
  · obtain ⟨hired, a, b, r, actions, hok, -⟩ := hwrote
    rcases h with hfalse | ⟨e, he⟩
    · rw [hfalse] at htrue
      cases htrue
    · rw [he] at hok
      cases hok
  · rw [hsame]
    exact ⟨rfl, rfl⟩

/-- A hire that came through `_persist` wrote what it was given. -/
theorem runHire_wrote [DecidableEq P] {sha : PyVal K → String}
    {baseline : PyVal K → Py (Result K)} {agent : LiveAgent K S D P}
    {tier : Nat} {raw : Dict K} {signer : Option String} {sv : Server K}
    {db : Db K} {d : Performed K} {hired : Hired K}
    (hd : (prepare sha agent tier raw signer >>=
      conclude sha baseline agent tier) = .ok d)
    (hok : (runHire sha baseline agent tier raw signer true sv db).1
      = .ok hired) :
    ∃ ids, writePair sv d (ensureAgent agent.manifest sv db).2
      = .ok (ids,
        (runHire sha baseline agent tier raw signer true sv db).2) := by
  rw [runHire, hd, afterwards_ok rfl, if_pos rfl] at hok ⊢
  rcases persist_cases agent.manifest sv d db
    with ⟨⟨e, he⟩, -⟩ | ⟨ids, hids, hwrite⟩
  · rw [afterwards_error he] at hok
    cases hok
  · rw [afterwards_ok hids]
    exact ⟨ids, hwrite⟩

/-- So in every persisted history the rows are those of its runs. -/
theorem Persisted.rows {sha : PyVal K → String} {ds : List (Performed K)}
    {db : Db K} (h : Persisted sha ds db) : Rows ds db := by
  induction h with
  | empty =>
      constructor
      · intro r hr
        cases hr
      · intro r hr
        cases hr
      · intro d hd
        cases hd
  | stopped baseline agent tier raw signer persisted sv ds db _ hstop ih =>
      exact ih.of_same (runHire_stopped hstop)
  | wrote baseline agent tier raw signer sv ds db d hired _ hd hok ih =>
      obtain ⟨ids, hwrite⟩ := runHire_wrote hd hok
      exact (ih.of_same (ensureAgent_records _ _ _)).of_written hwrite

end Persist

-- ============================================================== the report

namespace Report

variable [Field K] [LinearOrder K] [FloorRing K]

/-- What the section says of runs that sent nothing. -/
def simulatedNote : String :=
  "simulated run - no transaction sent, on-chain cost $0"

/-- No task that aggregates a run that sent something says it sent
nothing. -/
def NothingHidden (reg : Registry K) (db : Db K) (rep : AdvantageReport K) :
    Prop :=
  ∀ t ∈ rep.tasks, ∀ rc ar, Aggregates reg db t rc ar → Sent ar →
    t.cost.note ≠ some simulatedNote

/-- The cost that a task shows is computed from its rows alone. -/
theorem taskForGroup_cost {agentId : String} {rows : List (JoinedRow K)}
    {reg : Registry K} {t : Task K}
    (h : taskForGroup agentId rows reg = .ok t) : t.cost = taskCost rows := by
  obtain ⟨firstAt, -, h⟩ := bind_eq_ok.1 h
  obtain ⟨lastAt, -, h⟩ := bind_eq_ok.1 h
  obtain ⟨quality, -, h⟩ := bind_eq_ok.1 h
  obtain ⟨maxTier, -, h⟩ := bind_eq_ok.1 h
  cases rows with
  | nil => cases h
  | cons first rest =>
      cases h
      rfl

/-- Rows without costs are summed to a simulated run. -/
theorem taskCost_simulated {rows : List (JoinedRow K)}
    (h : ∀ j ∈ rows, j.agentRun.gasWei = 0 ∧ j.agentRun.protocolFeesUsd = 0
      ∧ j.agentRun.agentFeeUsd = 0) :
    (taskCost rows).note = some simulatedNote := by
  have hsum : ∀ f : JoinedRow K → K, (∀ j ∈ rows, f j = 0) →
      (rows.map f).sum = 0 := by
    intro f hf
    apply List.sum_eq_zero
    intro x hx
    obtain ⟨j, hj, rfl⟩ := List.mem_map.1 hx
    exact hf j hj
  have hgas := hsum (fun j => j.agentRun.gasWei) fun j hj => (h j hj).1
  have hfees := hsum (fun j => j.agentRun.protocolFeesUsd)
    fun j hj => (h j hj).2.1
  have hfee := hsum (fun j => j.agentRun.agentFeeUsd)
    fun j hj => (h j hj).2.2
  unfold taskCost
  simp only [hgas, hfees, hfee, lt_irrefl, or_self, if_false]
  rfl

/-- Every task is called simulated. -/
theorem note_simulated {ds : List (Persist.Performed K)} {db : Db K}
    (hrows : Persist.Rows ds db) {reg : Registry K} {rep : AdvantageReport K}
    (hrep : buildAdvantageReport reg db = .ok rep) :
    ∀ t ∈ rep.tasks, t.cost.note = some simulatedNote := by
  intro t ht
  obtain ⟨agentId, rows, hgroup, htask⟩ := (mem_tasks_iff hrep).1 ht
  rw [taskForGroup_cost htask]
  apply taskCost_simulated
  intro j hj
  obtain ⟨hjoin, -⟩ := (mem_rows_iff hgroup).1 hj
  exact hrows.costless _ (mem_joinRuns_iff.1 hjoin).2.1.1

/-- If the report hides nothing, no run had signed anything. -/
theorem silent_of_nothingHidden {ds : List (Persist.Performed K)}
    {db : Db K} (hrows : Persist.Rows ds db) {reg : Registry K}
    {rep : AdvantageReport K} (hrep : buildAdvantageReport reg db = .ok rep)
    (h : NothingHidden reg db rep) : ∀ d ∈ ds, d.actions.txHashes = [] := by
  intro d hd
  by_contra hhashes
  -- the hire's joined row is in its agent's task
  obtain ⟨j, hj, hout⟩ := hrows.joined d hd
  have hrow : j ∈ (fetchRows db).filter
      fun r => r.agentRun.agentId = j.agentRun.agentId := by
    rw [List.mem_filter, (fetchRows_perm db).mem_iff]
    exact ⟨hj, by simp⟩
  have hgroup := mem_byAgent_iff.2 ⟨List.ne_nil_of_mem hrow, rfl⟩
  obtain ⟨t, ht⟩ := taskForGroup_total j.agentRun.agentId reg
    (List.ne_nil_of_mem hrow)
  have hmem : t ∈ rep.tasks := (mem_tasks_iff hrep).2 ⟨_, _, hgroup, ht⟩
  exact h t hmem j.receipt j.agentRun ⟨_, _, hgroup, ht, j, hrow, rfl, rfl⟩
    ⟨_, hout, hhashes⟩ (note_simulated hrows hrep t hmem)

/-- Where no persisted hire has sent anything, no aggregated run has. -/
theorem not_sent_of_silent {ds : List (Persist.Performed K)}
    {db : Db K} (hrows : Persist.Rows ds db) {reg : Registry K} {t : Task K}
    {rc : ReceiptRow K} {ar : RunRow K} (hagg : Aggregates reg db t rc ar)
    (h : ∀ d ∈ ds, d.actions.txHashes = []) : ¬ Sent ar := by
  intro hsent
  obtain ⟨agentId, rows, hgroup, -, j, hj, -, rfl⟩ := hagg
  obtain ⟨hjoin, -⟩ := (mem_rows_iff hgroup).1 hj
  obtain ⟨d, hd, hhashes⟩ :=
    hrows.sent _ (mem_joinRuns_iff.1 hjoin).2.1.1 hsent
  exact hhashes (h d hd)

/-- After any history of hires every task is called simulated, so nothing
is hidden exactly while no persisted hire has sent anything. -/
theorem nothingHidden_iff {sha : PyVal K → String}
    {ds : List (Persist.Performed K)} {db : Db K}
    (h : Persist.Persisted sha ds db) (reg : Registry K) :
    ∃ rep, buildAdvantageReport reg db = .ok rep
      ∧ (∀ t ∈ rep.tasks, t.cost.note = some simulatedNote)
      ∧ (NothingHidden reg db rep ↔ ∀ d ∈ ds, d.actions.txHashes = []) := by
  obtain ⟨rep, hrep⟩ := buildAdvantageReport_total reg db
  refine ⟨rep, hrep, note_simulated h.rows hrep, ?_⟩
  constructor
  · exact silent_of_nothingHidden h.rows hrep
  · intro hsilent t _ rc ar hagg hsent
    exact absurd hsent (not_sent_of_silent h.rows hagg hsilent)

-- ========================================================== a tier-2 grid

/-- A grid at tier 2 whose `act()` sends one transaction. -/
def sendingGrid : LiveAgent ℚ Unit Unit Unit where
  manifest := gridListed
  init := ()
  snapshot := fun _ => .dict []
  observe := fun s _ => .ok ((), s)
  decide := fun s _ => .ok (⟨"grid", ()⟩, s)
  act := fun s _ _ => .ok (⟨["0xfeed"]⟩, s)
  report := fun s _ _ => .ok (⟨"net_pnl_usd", "USD", 5⟩, s)

/-- A baseline whose result does not depend on the data. -/
def hodlFlat : PyVal ℚ → Py (Result ℚ) :=
  fun _ => .ok ⟨"net_pnl_usd", "USD", 0⟩

/-- A server that takes everything. -/
def willing : Server ℚ where
  upsert := .ok ()
  upsertCommit := .ok ()
  agentRunId := .ok 1
  baselineRunId := .ok 2
  receiptId := .ok 3
  commit := .ok ()
  pairId := 4
  now := 0
  createdAt := 0
  agentWall := 1
  baselineWall := 1

/-- One hire, persisted, of an agent that has sent a transaction. -/
theorem persisted_sending : ∃ (d : Persist.Performed ℚ) (db : Db ℚ),
    Persist.Persisted (fun _ => "") [d] db
      ∧ d.actions.txHashes = ["0xfeed"] := by
  obtain ⟨d, hd, hhashes⟩ := exists_of_okAnd
    (x := Persist.prepare (fun _ => "") sendingGrid 2 [] (some "key") >>=
      Persist.conclude (fun _ => "") hodlFlat sendingGrid 2)
    (p := fun d => d.actions.txHashes == ["0xfeed"]) (by decide +kernel)
  obtain ⟨hired, hhired, -⟩ := exists_of_okAnd
    (x := (Persist.runHire (fun _ => "") hodlFlat sendingGrid 2 []
      (some "key") true willing ⟨[], [], []⟩).1)
    (p := fun _ => true) (by decide +kernel)
  exact ⟨d, _, Persist.Persisted.empty.wrote hodlFlat sendingGrid 2 []
    (some "key") willing [] ⟨[], [], []⟩ d hired hd hhired,
    beq_iff_eq.1 hhashes⟩

/-- The report on that hire calls it simulated. -/
theorem sent_called_simulated : ∃ (d : Persist.Performed ℚ) (db : Db ℚ)
    (rep : AdvantageReport ℚ),
    Persist.Persisted (fun _ => "") [d] db
      ∧ d.actions.txHashes = ["0xfeed"]
      ∧ buildAdvantageReport [("bnb-grid", some gridListed)] db = .ok rep
      ∧ ¬ NothingHidden [("bnb-grid", some gridListed)] db rep := by
  obtain ⟨d, db, hpersisted, hhashes⟩ := persisted_sending
  obtain ⟨rep, hrep⟩ := buildAdvantageReport_total
    [("bnb-grid", some gridListed)] db
  refine ⟨d, db, rep, hpersisted, hhashes, hrep, ?_⟩
  intro hopen
  have hnone := silent_of_nothingHidden hpersisted.rows hrep hopen d
    List.mem_cons_self
  rw [hhashes] at hnone
  cases hnone

/-- After that hire the report still calls every task simulated. -/
theorem nothingHidden_sending : ∃ (d : Persist.Performed ℚ) (db : Db ℚ)
    (rep : AdvantageReport ℚ),
    Persist.Persisted (fun _ => "") [d] db
      ∧ buildAdvantageReport [("bnb-grid", some gridListed)] db = .ok rep
      ∧ ∀ t ∈ rep.tasks, t.cost.note = some simulatedNote := by
  obtain ⟨d, db, hpersisted, -⟩ := persisted_sending
  obtain ⟨rep, hrep, hnote, -⟩ :=
    nothingHidden_iff hpersisted [("bnb-grid", some gridListed)]
  exact ⟨d, db, rep, hpersisted, hrep, hnote⟩

end Report

end Proofstand
