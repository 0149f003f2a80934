/-
What a paper deployment's state file says, whenever its process ended.

A cycle is counted with a receipt of its own (`counted_succ`), and a record
is saved only with the values of the receipt it names
(`evaluate_truthful`). The file is always a part of the text of such a
record, and a part that can be read is read as the whole (`loads_torn`):
so `file_tells` holds after any steps of the process, wherever it ended,
between whatever hires and clients do to the tables.

# The invariant

`Sound` has two halves. Of the file: it is a prefix of the text of a
record that is truthful about the tables (`FileOk`). Of the process: what
it holds, between cycles or while saving, is truthful too, and can be
written (`PhaseOk`). Others take no receipt away, so truth is kept
(`truthful_kept`); the process adds one to the count when its hire has
written one.

# Torn files

The text of a record ends in a brace and a newline, and a proper prefix
without the brace does not parse. So `json.loads` on a torn file raises,
or reads the record.

# Floats

Reading back needs a text for each number that is read as that number;
`Spelled` asks it of the record that is being saved, and the trial has
such texts.
-/
import Proofstand.Orchestrator.Paper
import Proofstand.Orchestrator.Proofs.Platform
import Proofstand.Orchestrator.Proofs.Accepted
import Proofstand.Python.Proofs.Torn

namespace Proofstand.Paper

open Anchor (Keccak Uuid uuidStr)
open Persist Session Json Transition Fallible

variable {K T : Type}

-- =========================================================== setting keys

theorem lookup_set (d : Dict K) (k k' : String) (v : PyVal K) :
    (d.set k v).lookup k' = if k' = k then some v else d.lookup k' := by
  rw [Dict.set_eq_put]
  exact Keyed.lookup_put k k' v d

theorem keys_set (d : Dict K) (k : String) (v : PyVal K) :
    (d.set k v).map Prod.fst
      = if k ∈ d.map Prod.fst then d.map Prod.fst
        else d.map Prod.fst ++ [k] := by
  induction d with
  | nil => rfl
  | cons p d ih =>
      obtain ⟨k', v'⟩ := p
      by_cases hk : k' = k
      · rw [Dict.set, if_pos hk]
        simp [hk]
      · rw [Dict.set, if_neg hk, List.map_cons, ih]
        have hne : ¬k = k' := fun h => hk h.symm
        by_cases hin : k ∈ d.map Prod.fst
        · rw [if_pos hin, if_pos (by simp [hin])]
          rfl
        · have hout : k ∉ k' :: d.map Prod.fst := by
            rw [List.mem_cons, not_or]
            exact ⟨hne, hin⟩
          rw [if_neg hin, List.map_cons, if_neg hout]
          rfl

theorem nodup_set {d : Dict K} (k : String) (v : PyVal K)
    (h : (d.map Prod.fst).Nodup) : ((d.set k v).map Prod.fst).Nodup := by
  rw [keys_set]
  by_cases hin : k ∈ d.map Prod.fst
  · rw [if_pos hin]
    exact h
  · rw [if_neg hin]
    simpa using h.concat hin

theorem nodup_setAll {d : Dict K} (pairs : Dict K)
    (h : (d.map Prod.fst).Nodup) :
    ((setAll d pairs).map Prod.fst).Nodup := by
  unfold setAll
  induction pairs generalizing d with
  | nil => exact h
  | cons p pairs ih =>
      rw [List.foldl_cons]
      exact ih (nodup_set p.1 p.2 h)

/-- A key that is set once holds what it is set to, and one that is not
set what it held. -/
theorem lookup_setAll {d pairs : Dict K} (h : (pairs.map Prod.fst).Nodup)
    (k : String) :
    (setAll d pairs).lookup k = (pairs.lookup k).or (d.lookup k) := by
  unfold setAll
  induction pairs generalizing d with
  | nil => rfl
  | cons p pairs ih =>
      obtain ⟨k', v⟩ := p
      rw [List.map_cons, List.nodup_cons] at h
      rw [List.foldl_cons, ih h.2, lookup_set, Keyed.lookup_cons_if]
      by_cases hk : k = k'
      · have hnone : pairs.lookup k = none := by
          rw [List.lookup_eq_none_iff]
          intro q hq
          have hne : q.1 ≠ k' := by
            intro heq
            exact h.1 (List.mem_map.2 ⟨q, hq, heq⟩)
          simp [hk, Ne.symm hne]
        rw [hnone, if_pos hk, if_pos hk]
        rfl
      · rw [if_neg hk, if_neg hk]

-- ================================================ statement vocabulary

variable [Field K] [LinearOrder K] [FloorRing K]

/-- The id is a receipt's, whose agent run is the agent's. -/
def ReceiptOf (db : Db K) (agentId : String) (id : Uuid) : Prop :=
  ∃ r ∈ db.receipts, r.id = id
    ∧ ∃ a ∈ db.runs, a.id = r.agentRunId ∧ a.agentId = agentId

/-- The cycles the record counts have a receipt each. -/
def Counted (agentId : String) (db : Db K) (rec : Dict K) : Prop :=
  ∃ ids : List Uuid, ids.Nodup ∧ (∀ id ∈ ids, ReceiptOf db agentId id)
    ∧ rec.lookup "cycles" = some (.int ids.length)

/-- The three keys of a record that hold a receipt's values. -/
structure ValueKeys where
  agent : String
  baseline : String
  delta : String

/-- The record names a receipt of the agent and holds its values, rounded. -/
def Named (agentId : String) (keys : ValueKeys) (db : Db K)
    (rec : Dict K) : Prop :=
  ∃ r ∈ db.receipts, ReceiptOf db agentId r.id
    ∧ rec.lookup "last_receipt_id" = some (.str (uuidStr r.id))
    ∧ rec.lookup keys.agent = some (rounded r.agentValue 4)
    ∧ rec.lookup keys.baseline = some (rounded r.baselineValue 4)
    ∧ rec.lookup keys.delta = some (rounded r.delta 4)

/-- What a saved record says is so. -/
def Truthful (agentId : String) (keys : ValueKeys) (db : Db K)
    (rec : Dict K) : Prop :=
  Counted agentId db rec
    ∧ (rec.lookup "cycles" = some (.int 0) ∨ Named agentId keys db rec)

/-- The keys a script sets in a cycle behind those it begins with. -/
structure Regular (sc : Script K T) (keys : ValueKeys) : Prop where
  fresh_keys : ∀ a, ((sc.fresh a).map Prod.fst).Nodup
  fresh_cycles : ∀ a, (sc.fresh a).lookup "cycles" = some (.int 0)
  fresh_running : ∀ a, isHalted (sc.fresh a) = false
  cycle_keys : ∀ hired st, ((sc.cyclePairs hired st).map Prod.fst).Nodup
  cycle_apart : ∀ hired st, ∀ p ∈ sc.cyclePairs hired st,
    p.1 ∉ ["cycles", "last_cycle_at", "last_receipt_id", "status"]
  cycle_values : ∀ hired st,
    (sc.cyclePairs hired st).lookup keys.agent
        = some (rounded hired.outcome.agentValue 4)
      ∧ (sc.cyclePairs hired st).lookup keys.baseline
        = some (rounded hired.outcome.baselineValue 4)
      ∧ (sc.cyclePairs hired st).lookup keys.delta
        = some (rounded hired.outcome.delta 4)
  halt_keys : ∀ st pairs, sc.haltPairs st = some pairs →
    (pairs.map Prod.fst).Nodup
  halt_apart : ∀ st pairs, sc.haltPairs st = some pairs → ∀ p ∈ pairs,
    p.1 ∉ ["cycles", "last_receipt_id", keys.agent, keys.baseline, keys.delta]
  halt_status : ∀ st pairs, sc.haltPairs st = some pairs →
    pairs.lookup "status" = some (.str "halted")

def gridKeys : ValueKeys :=
  ⟨"net_pnl_usd", "hodl_pnl_usd", "delta_vs_hodl_usd"⟩

def rebalancerKeys : ValueKeys :=
  ⟨"net_fees_usd", "static_range_usd", "delta_vs_static_usd"⟩

theorem gridScript_regular : Regular (gridScript (K := K)) gridKeys where
  fresh_keys a := by simp [gridScript]
  fresh_cycles a := by simp [gridScript, List.lookup]
  fresh_running a := by simp [gridScript, isHalted, List.lookup]
  cycle_keys hired st := by simp [gridScript]
  cycle_apart hired st p hp := by
    simp only [gridScript, List.mem_cons, List.not_mem_nil, or_false] at hp
    rcases hp with rfl | rfl | rfl | rfl | rfl | rfl | rfl | rfl | rfl
    all_goals simp
  cycle_values hired st := by simp [gridScript, gridKeys, List.lookup]
  halt_keys st pairs h := by
    obtain ⟨reason, -, rfl⟩ := Option.map_eq_some_iff.1 h
    simp
  halt_apart st pairs h p hp := by
    obtain ⟨reason, -, rfl⟩ := Option.map_eq_some_iff.1 h
    simp only [List.mem_cons, List.not_mem_nil, or_false] at hp
    rcases hp with rfl | rfl
    all_goals simp [gridKeys]
  halt_status st pairs h := by
    obtain ⟨reason, -, rfl⟩ := Option.map_eq_some_iff.1 h
    rfl

theorem rebalancerScript_regular :
    Regular (rebalancerScript (K := K)) rebalancerKeys where
  fresh_keys a := by simp [rebalancerScript]
  fresh_cycles a := by simp [rebalancerScript, List.lookup]
  fresh_running a := by simp [rebalancerScript, isHalted, List.lookup]
  cycle_keys hired st := by simp [rebalancerScript]
  cycle_apart hired st p hp := by
    simp only [rebalancerScript, List.mem_cons, List.not_mem_nil, or_false]
      at hp
    rcases hp with rfl | rfl | rfl | rfl | rfl | rfl | rfl
    all_goals simp
  cycle_values hired st := by
    simp [rebalancerScript, rebalancerKeys, List.lookup]
  halt_keys st pairs h := by cases h
  halt_apart st pairs h := by cases h
  halt_status st pairs h := by cases h

-- =================================================================== a cycle

section Cycle

variable {sc : Script K T} {keys : ValueKeys} {repr : K → String}
  {rec : Dict K} {n : Int}

/-- The record behind a cycle's hire, but for a halt. -/
def cycled (sc : Script K T) (rec : Dict K) (n : Int) (hired : Hired K)
    (told : Told T) : Dict K :=
  setAll rec
    ([("cycles", .int (n + 1)), ("last_cycle_at", .str told.now),
      ("last_receipt_id", .str (receiptText hired))]
      ++ sc.cyclePairs hired told.stats)

omit [LinearOrder K] [FloorRing K] in
/-- What a cycle makes of the record: the counters and sums moved on, and the
halt written where the rule says so. -/
theorem evaluate_eq (hn : rec.lookup "cycles" = some (.int n))
    (hired : Hired K) (told : Told T) :
    evaluate sc rec hired told
      = if sc.printsFirst && !told.printed then
          (cycled sc rec n hired told, none)
        else
          match sc.haltPairs told.stats with
          | some pairs => (setAll (cycled sc rec n hired told) pairs,
              some .halts)
          | none => (cycled sc rec n hired told, some .on) := by
  have hitem : (PyVal.dict rec).item "cycles" = .ok (.int n) := by
    rw [PyVal.item, hn]
  rw [evaluate, hitem]
  rfl

omit [LinearOrder K] [FloorRing K] in
/-- Its keys stay distinct, -/
theorem evaluate_nodup (hn : rec.lookup "cycles" = some (.int n))
    (h : (rec.map Prod.fst).Nodup) (hired : Hired K) (told : Told T) :
    ((evaluate sc rec hired told).1.map Prod.fst).Nodup := by
  have hcycled : ((cycled sc rec n hired told).map Prod.fst).Nodup :=
    nodup_setAll _ h
  rw [evaluate_eq hn]
  by_cases hprint : (sc.printsFirst && !told.printed) = true
  · rw [if_pos hprint]
    exact hcycled
  · rw [if_neg hprint]
    cases sc.haltPairs told.stats with
    | none => exact hcycled
    | some pairs => exact nodup_setAll pairs hcycled

/-- and those it sets are. -/
theorem cycled_keys (hsc : Regular sc keys) (hired : Hired K)
    (told : Told T) (v w u : PyVal K) :
    (([("cycles", v), ("last_cycle_at", w), ("last_receipt_id", u)]
      ++ sc.cyclePairs hired told.stats).map Prod.fst).Nodup := by
  have hapart := hsc.cycle_apart hired told.stats
  rw [List.map_append, List.nodup_append]
  refine ⟨by simp, hsc.cycle_keys hired told.stats, ?_⟩
  intro a ha b hb hab
  obtain ⟨p, hp, rfl⟩ := List.mem_map.1 hb
  refine hapart p hp ?_
  rw [← hab]
  simp only [List.map_cons, List.map_nil, List.mem_cons, List.not_mem_nil,
    or_false] at ha ⊢
  tauto

/-- A key of the cycle's own pairs holds what they say. -/
theorem lookup_cycled_pair (hsc : Regular sc keys) {hired : Hired K}
    {told : Told T} {k : String} {v : PyVal K}
    (h : (sc.cyclePairs hired told.stats).lookup k = some v) :
    (cycled sc rec n hired told).lookup k = some v := by
  have hapart : k ∉ ["cycles", "last_cycle_at", "last_receipt_id",
      "status"] := by
    obtain ⟨before, after, hsplit, -⟩ := List.lookup_eq_some_iff.1 h
    exact hsc.cycle_apart hired told.stats (k, v) (by rw [hsplit]; simp)
  rw [cycled, lookup_setAll (cycled_keys hsc hired told _ _ _),
    List.lookup_append, h]
  simp only [List.mem_cons, List.not_mem_nil, or_false, not_or] at hapart
  simp [Keyed.lookup_cons_if, hapart.1, hapart.2.1, hapart.2.2.1]

/-- What a cycle sets is there, and the status is what it was. -/
theorem lookup_cycled (rec : Dict K) (n : Int) (hsc : Regular sc keys)
    (hired : Hired K) (told : Told T) :
    (cycled sc rec n hired told).lookup "cycles" = some (.int (n + 1))
      ∧ (cycled sc rec n hired told).lookup "last_receipt_id"
        = some (.str (receiptText hired))
      ∧ (cycled sc rec n hired told).lookup "status"
        = rec.lookup "status" := by
  have hstatus : (sc.cyclePairs hired told.stats).lookup "status" = none := by
    rw [List.lookup_eq_none_iff]
    intro p hp
    have hapart := hsc.cycle_apart hired told.stats p hp
    simp only [List.mem_cons, List.not_mem_nil, or_false, not_or] at hapart
    simp [Ne.symm hapart.2.2.2]
  unfold cycled
  refine ⟨?_, ?_, ?_⟩
  · rw [lookup_setAll (cycled_keys hsc hired told _ _ _), List.lookup_append]
    rfl
  · rw [lookup_setAll (cycled_keys hsc hired told _ _ _), List.lookup_append]
    rfl
  · rw [lookup_setAll (cycled_keys hsc hired told _ _ _), List.lookup_append,
      hstatus]
    rfl

/-- A record whose halt is set holds what it held, and says so. -/
theorem lookup_halted (rec : Dict K) (hsc : Regular sc keys) {st : T}
    {pairs : Dict K}
    (h : sc.haltPairs st = some pairs) :
    (∀ k ∈ ["cycles", "last_receipt_id", keys.agent, keys.baseline,
        keys.delta], (setAll rec pairs).lookup k = rec.lookup k)
      ∧ isHalted (setAll rec pairs) = true := by
  have hkeys := hsc.halt_keys st pairs h
  refine ⟨?_, ?_⟩
  · intro k hk
    have hnone : pairs.lookup k = none := by
      rw [List.lookup_eq_none_iff]
      intro p hp
      have hne : k ≠ p.1 := by
        intro heq
        subst heq
        exact hsc.halt_apart st pairs h p hp hk
      simp [hne]
    rw [lookup_setAll hkeys, hnone]
    rfl
  · rw [isHalted, lookup_setAll hkeys, hsc.halt_status st pairs h]
    rfl

-- ============================================================ what it counts

variable {db db' : Db K}

omit [Field K] [LinearOrder K] [FloorRing K] in
/-- One more cycle, with a receipt that none of the others has. -/
theorem counted_succ {agentId : String} {rec' : Dict K} {id : Uuid}
    (hc : Counted agentId db rec) (hn : rec.lookup "cycles" = some (.int n))
    (hmono : ∀ id, ReceiptOf db agentId id → ReceiptOf db' agentId id)
    (hid : ReceiptOf db' agentId id)
    (hfresh : ∀ r ∈ db.receipts, r.id ≠ id)
    (hn' : rec'.lookup "cycles" = some (.int (n + 1))) :
    Counted agentId db' rec' := by
  obtain ⟨ids, hnodup, hids, hcycles⟩ := hc
  rw [hn] at hcycles
  cases hcycles
  refine ⟨id :: ids, List.nodup_cons.2 ⟨?_, hnodup⟩, ?_, ?_⟩
  · intro hin
    obtain ⟨r, hr, hrid, -⟩ := hids id hin
    exact hfresh r hr hrid
  · intro i hi
    rcases List.mem_cons.1 hi with rfl | hi
    · exact hid
    · exact hmono i (hids i hi)
  · rw [hn', List.length_cons]
    rfl

end Cycle

-- ==================================================================== the hire

/-- What a script's `run_hire` is: at tier 1, without a signer, of its
agent, persisted. -/
def IsCycleHire (sha : PyVal K → String) (agentId : String) (raw : Dict K)
    (hire : Db K → Outcome Exc (Db K) (Hired K)) : Prop :=
  ∃ (S D P : Type) (_ : DecidableEq P) (baseline : PyVal K → Py (Result K))
    (agent : LiveAgent K S D P) (sv : Server K),
    agent.manifest.id = agentId
      ∧ hire = runHire sha baseline agent 1 raw none true sv

omit [FloorRing K] in
theorem IsCycleHire.isHire {sha : PyVal K → String} {agentId : String}
    {raw : Dict K} {hire : Db K → Outcome Exc (Db K) (Hired K)}
    (h : IsCycleHire sha agentId raw hire) : Platform.IsHire sha hire := by
  obtain ⟨S, D, P, inst, baseline, agent, sv, -, heq⟩ := h
  exact ⟨S, D, P, inst, baseline, agent, 1, raw, none, true, sv, heq⟩

omit [FloorRing K] in
/-- One that returns has written a receipt of its own, with the values it
returns. -/
theorem IsCycleHire.wrote {sha : PyVal K → String} {agentId : String}
    {raw : Dict K} {hire : Db K → Outcome Exc (Db K) (Hired K)}
    (h : IsCycleHire sha agentId raw hire) {db : Db K} {hired : Hired K}
    (hok : (hire db).1 = .ok hired) :
    ∃ r ∈ (hire db).2.receipts, receiptText hired = uuidStr r.id
      ∧ ReceiptOf (hire db).2 agentId r.id
      ∧ (∀ q ∈ db.receipts, q.id ≠ r.id)
      ∧ r.agentValue = hired.outcome.agentValue
      ∧ r.baselineValue = hired.outcome.baselineValue
      ∧ r.delta = hired.outcome.delta := by
  obtain ⟨S, D, P, inst, baseline, agent, sv, hagent, rfl⟩ := h
  unfold runHire at hok ⊢
  cases hperform : prepare sha agent 1 raw none >>=
      conclude sha baseline agent 1 with
  | error e =>
      rw [hperform, afterwards_error rfl] at hok
      cases hok
  | ok d =>
      rw [hperform, afterwards_ok rfl, if_pos rfl] at hok
      rw [afterwards_ok rfl, if_pos rfl]
      rcases persist_cases agent.manifest sv d db
        with ⟨⟨e, he⟩, -⟩ | ⟨ids, hids, hwrite⟩
      · rw [afterwards_error he] at hok
        cases hok
      · rw [afterwards_ok hids] at hok ⊢
        cases hok
        obtain ⟨p, -, hconclude⟩ := bind_eq_ok.1 hperform
        obtain ⟨s, agentResult, s', -, -, -, hcompare⟩ :=
          conclude_eq_ok hconclude
        obtain ⟨baselineResult, -, -, -, hid, -⟩ := compare_eq_ok hcompare
        obtain ⟨a, b, r, hruns, hreceipts, hrow, ⟨ia, ha⟩, -, hra, -, -, -,
          hav, hbv, hdelta, -⟩ := writePair_eq_ok hwrite
        obtain ⟨r', hreceipts', -, -, hfresh⟩ :=
          Platform.writePair_fresh hwrite
        have hrr : r' = r := by
          rw [hreceipts] at hreceipts'
          simpa using hreceipts'.symm
        subst hrr
        have hin : r' ∈ (persist agent.manifest sv d db).2.receipts := by
          rw [hreceipts]
          simp
        have hrun : a ∈ (persist agent.manifest sv d db).2.runs := by
          rw [hruns]
          simp
        have hsame := (ensureAgent_records agent.manifest sv db).2
        refine ⟨r', hin, ?_, ⟨r', hin, rfl, a, hrun, hra.symm, ?_⟩, ?_, hav,
          hbv, hdelta⟩
        · rw [receiptText, hrow]
        · rw [ha, ← hagent]
          exact hid
        · intro q hq
          rw [hsame] at hfresh
          exact hfresh q hq

-- =============================================================== the invariant

section Run

variable {sha : PyVal K → String} {sc : Script K T} {keys : ValueKeys}
  {repr : K → String} {H : Keccak}
  {hires : Nat → Db K → Outcome Exc (Db K) (Hired K)}
  {hire : Nat → PyVal K → Dict K → Db K → Outcome Exc (Db K) (Hired K)}

/-- What is being saved has floats that can be read back from their
text. -/
def Spelled (repr : K → String) (s : State K) : Prop :=
  ∀ rec next written, s.phase = .saving rec next written →
    ∀ p ∈ rec, Writes repr p.2

/-- What the process holds, where it is. -/
def PhaseOk (agentId : String) (keys : ValueKeys) (repr : K → String)
    (db : Db K) : Phase K → Prop
  | .down => True
  | .idle rec => (rec.map Prod.fst).Nodup ∧ Counted agentId db rec
  | .saving rec _ _ =>
      Writes repr (.dict rec) ∧ Truthful agentId keys db rec

/-- A file is a part of the text of a record that says what is so. -/
def FileOk (agentId : String) (keys : ValueKeys) (repr : K → String)
    (db : Db K) (file : Option String) : Prop :=
  ∀ s, file = some s → ∃ rec, Writes repr (.dict rec)
    ∧ Truthful agentId keys db rec
    ∧ s.toList <+: (stateText repr rec).toList

/-- The invariant: the file, where there is one, is a part of a truthful
record's text, and what the process holds is in order. -/
structure Sound (agentId : String) (keys : ValueKeys) (repr : K → String)
    (s : State K) : Prop where
  phase : PhaseOk agentId keys repr s.base.db s.phase
  file : FileOk agentId keys repr s.base.db s.file

section Held

variable {agentId : String} {s : State K} {rec : Dict K} {next : Next}
  {written : Option Nat}

/-- Between cycles the record in hand counts what was hired, -/
theorem Sound.of_idle (hs : Sound agentId keys repr s)
    (h : s.phase = .idle rec) :
    (rec.map Prod.fst).Nodup ∧ Counted agentId s.base.db rec := by
  have hheld := hs.phase
  rw [h] at hheld
  exact hheld

/-- and while it is saved it can be written and is truthful. -/
theorem Sound.of_saving (hs : Sound agentId keys repr s)
    (h : s.phase = .saving rec next written) :
    Writes repr (.dict rec) ∧ Truthful agentId keys s.base.db rec := by
  have hheld := hs.phase
  rw [h] at hheld
  exact hheld

/-- What is being saved can be gone on with. -/
theorem Sound.goes_on (hs : Sound agentId keys repr s)
    (h : s.phase = .saving rec next written) :
    PhaseOk agentId keys repr s.base.db (.idle rec) := by
  obtain ⟨hwrites, htruth⟩ := hs.of_saving h
  exact ⟨hwrites.1, htruth.1⟩

end Held

section Later

variable {base base' : Platform.State K} (h : Platform.Kept base base')
include h

omit [Field K] [LinearOrder K] [FloorRing K] in
/-- Receipts stay, so what points to one stays right; -/
theorem receiptOf_kept {agentId : String} {id : Uuid}
    (hid : ReceiptOf base.db agentId id) : ReceiptOf base'.db agentId id := by
  obtain ⟨r, hr, hrid, a, ha, har, hagent⟩ := hid
  obtain ⟨r', hr', batch, tx, rfl⟩ := h.receipts r hr
  exact ⟨_, hr', hrid, a, h.runs a ha, har, hagent⟩

omit [Field K] [LinearOrder K] [FloorRing K] in
/-- what was counted stays counted, -/
theorem counted_kept {agentId : String} {rec : Dict K}
    (hc : Counted agentId base.db rec) : Counted agentId base'.db rec := by
  obtain ⟨ids, hnodup, hids, hcycles⟩ := hc
  exact ⟨ids, hnodup, fun id hid => receiptOf_kept h (hids id hid), hcycles⟩

/-- a truthful record stays truthful, -/
theorem truthful_kept {agentId : String} {rec : Dict K}
    (ht : Truthful agentId keys base.db rec) :
    Truthful agentId keys base'.db rec := by
  obtain ⟨hcounted, hnamed⟩ := ht
  refine ⟨counted_kept h hcounted, ?_⟩
  rcases hnamed with hzero | ⟨r, hr, hof, hlast, hav, hbv, hdelta⟩
  · exact Or.inl hzero
  · obtain ⟨r', hr', batch, tx, rfl⟩ := h.receipts r hr
    exact Or.inr ⟨_, hr', receiptOf_kept h hof, hlast, hav, hbv, hdelta⟩

/-- and with it the file, -/
theorem fileOk_kept {agentId : String} {file : Option String}
    (hf : FileOk agentId keys repr base.db file) :
    FileOk agentId keys repr base'.db file := by
  intro s hs
  obtain ⟨rec, hw, ht, hpart⟩ := hf s hs
  exact ⟨rec, hw, truthful_kept h ht, hpart⟩

/-- and what is in hand. -/
theorem phaseOk_kept {agentId : String} {phase : Phase K}
    (hp : PhaseOk agentId keys repr base.db phase) :
    PhaseOk agentId keys repr base'.db phase := by
  cases phase with
  | down => trivial
  | idle rec => exact ⟨hp.1, counted_kept h hp.2⟩
  | saving rec next written => exact ⟨hp.1, truthful_kept h hp.2⟩

end Later

/-- A cycle behind its hire: what is counted has a receipt, and what is
to be saved is so. -/
theorem evaluate_truthful (hsc : Regular sc keys) {db db' : Db K}
    {rec : Dict K} {hired : Hired K} (told : Told T)
    (hc : Counted sc.agentId db rec)
    (hmono : ∀ id, ReceiptOf db sc.agentId id →
      ReceiptOf db' sc.agentId id)
    (hwrote : ∃ r ∈ db'.receipts, receiptText hired = uuidStr r.id
      ∧ ReceiptOf db' sc.agentId r.id
      ∧ (∀ q ∈ db.receipts, q.id ≠ r.id)
      ∧ r.agentValue = hired.outcome.agentValue
      ∧ r.baselineValue = hired.outcome.baselineValue
      ∧ r.delta = hired.outcome.delta) :
    Counted sc.agentId db' (evaluate sc rec hired told).1
      ∧ ((evaluate sc rec hired told).2 ≠ none →
        Truthful sc.agentId keys db' (evaluate sc rec hired told).1) := by
  obtain ⟨ids, hnodup, hids, hcycles⟩ := hc
  obtain ⟨r, hr, htext, hof, hfresh, hav, hbv, hdelta⟩ := hwrote
  obtain ⟨hcycles', hlast, -⟩ :=
    lookup_cycled rec ids.length hsc hired told
  have hvalues := hsc.cycle_values hired told.stats
  have hcounted : Counted sc.agentId db'
      (cycled sc rec ids.length hired told) :=
    counted_succ ⟨ids, hnodup, hids, hcycles⟩ hcycles hmono hof hfresh
      hcycles'
  have hnamed : Named sc.agentId keys db'
      (cycled sc rec ids.length hired told) := by
    refine ⟨r, hr, hof, ?_, ?_, ?_, ?_⟩
    · rw [hlast, htext]
    · rw [hav]
      exact lookup_cycled_pair hsc hvalues.1
    · rw [hbv]
      exact lookup_cycled_pair hsc hvalues.2.1
    · rw [hdelta]
      exact lookup_cycled_pair hsc hvalues.2.2
  rw [evaluate_eq hcycles]
  by_cases hprint : (sc.printsFirst && !told.printed) = true
  · rw [if_pos hprint]
    exact ⟨hcounted, fun h => absurd rfl h⟩
  · rw [if_neg hprint]
    cases hhalt : sc.haltPairs told.stats with
    | none => exact ⟨hcounted, fun _ => ⟨hcounted, Or.inr hnamed⟩⟩
    | some pairs =>
        obtain ⟨hsame, -⟩ := lookup_halted
          (cycled sc rec ids.length hired told) hsc hhalt
        have hcounted' : Counted sc.agentId db'
            (setAll (cycled sc rec ids.length hired told) pairs) := by
          obtain ⟨ids', hnodup', hids', hn⟩ := hcounted
          exact ⟨ids', hnodup', hids', (hsame _ (by simp)).trans hn⟩
        refine ⟨hcounted', fun _ => ⟨hcounted', Or.inr ?_⟩⟩
        obtain ⟨q, hq, hqof, hqlast, hqav, hqbv, hqdelta⟩ := hnamed
        exact ⟨q, hq, hqof, (hsame _ (by simp)).trans hqlast,
          (hsame _ (by simp)).trans hqav, (hsame _ (by simp)).trans hqbv,
          (hsame _ (by simp)).trans hqdelta⟩

/-- What can be read of a file is a record that says what is so. -/
theorem FileOk.read {agentId : String} {db : Db K} {s : String}
    {v : PyVal K} (h : FileOk agentId keys repr db (some s))
    (hread : loads s = .ok v) :
    ∃ rec, v = .dict rec ∧ Writes repr (.dict rec)
      ∧ Truthful agentId keys db rec := by
  obtain ⟨rec, hw, ht, hpart⟩ := h s rfl
  exact ⟨rec, loads_torn (indented 2) hw hpart hread, hw, ht⟩

/-- A record that starts at nothing is truthful over any tables. -/
theorem fresh_truthful (hsc : Regular sc keys) (args : Args K) (db : Db K) :
    Truthful sc.agentId keys db (sc.fresh args) := by
  have hcycles := hsc.fresh_cycles args
  refine ⟨⟨[], List.nodup_nil, ?_, hcycles⟩, Or.inl hcycles⟩
  intro id hid
  cases hid

omit [LinearOrder K] [FloorRing K] in
/-- A record with one value to a key, of values that can be written, can
be. -/
theorem writes_record {rec : Dict K} (hkeys : (rec.map Prod.fst).Nodup)
    (hvalues : ∀ p ∈ rec, Writes repr p.2) : Writes repr (.dict rec) :=
  ⟨hkeys, writesDict_iff.2 hvalues⟩

/-- A launch takes a whole file's record, or begins a new one. -/
theorem launch_ok (hsc : Regular sc keys) {s : State K}
    (hf : FileOk sc.agentId keys repr s.base.db s.file) {reset : Bool}
    {args : Args K}
    (hspelled : Spelled repr { s with phase := launch sc s.file reset args }) :
    PhaseOk sc.agentId keys repr s.base.db (launch sc s.file reset args) := by
  have hnew := fresh_truthful hsc args s.base.db
  have hwrites : launch sc s.file reset args
        = .saving (sc.fresh args) .created none →
      Writes repr (.dict (sc.fresh args)) := fun h =>
    writes_record (hsc.fresh_keys args) (hspelled _ _ _ h)
  cases hfile : s.file with
  | none =>
      rw [hfile] at hwrites
      exact ⟨hwrites rfl, hnew⟩
  | some text =>
      rw [hfile] at hwrites hf
      cases reset with
      | true => exact ⟨hwrites rfl, hnew⟩
      | false =>
          rw [launch]
          cases hread : loads (K := K) text with
          | error e => trivial
          | ok v =>
              obtain ⟨rec, rfl, hw, ht⟩ := hf.read hread
              dsimp only
              split
              · trivial
              · exact ⟨hw.1, ht.1⟩

omit [Field K] [LinearOrder K] [FloorRing K] in
theorem afterSave_cases (rec : Dict K) (next : Next) (printed : Bool) :
    afterSave rec next printed = .down
      ∨ afterSave rec next printed = .idle rec := by
  unfold afterSave
  split
  · exact Or.inl rfl
  · exact Or.inl rfl
  · exact Or.inr rfl

/-- Every step keeps the invariant, those of others included. -/
theorem sound_step (hsc : Regular sc keys)
    (hhires : ∀ i, Platform.IsHire sha (hires i))
    (hhire : ∀ i since raw,
      IsCycleHire sha sc.agentId raw (hire i since raw))
    {s s' : State K} {a : Action K T} (hs : Sound sc.agentId keys repr s)
    (hspelled : Spelled repr s')
    (h : step sc repr H hires hire s a = some s') :
    Sound sc.agentId keys repr s' := by
  cases a with
  | platform a =>
      obtain ⟨base, hbase, rfl⟩ := Option.map_eq_some_iff.1 h
      have hkept := Platform.kept_step hhires hbase
      exact ⟨phaseOk_kept hkept hs.phase, fileOk_kept hkept hs.file⟩
  | launch reset args =>
      rw [step] at h
      split at h
      · cases h
        exact ⟨launch_ok hsc hs.file hspelled, hs.file⟩
      · cases h
  | cycle i told =>
      rw [step] at h
      split at h
      case h_1 rec hphase =>
          split at h
          case h_1 =>
              cases h
              exact hs
          case h_2 since raw hasked =>
              have hkept : Platform.Kept s.base
                  { s.base with db := (hire i since raw s.base.db).2 } :=
                Platform.kept_step (H := H) (a := .hire 0)
                  (fun _ => (hhire i since raw).isHire) rfl
              have hfile := fileOk_kept hkept hs.file
              dsimp only at h
              cases hresult : (hire i since raw s.base.db).1 with
              | error e =>
                  rw [hresult] at h
                  cases h
                  refine ⟨?_, hfile⟩
                  exact phaseOk_kept hkept hs.phase
              | ok hired =>
                  rw [hresult] at h
                  obtain ⟨hkeys, hcounted⟩ := hs.of_idle hphase
                  obtain ⟨hc, ht⟩ := evaluate_truthful hsc told hcounted
                    (fun id => receiptOf_kept hkept)
                    ((hhire i since raw).wrote hresult)
                  obtain ⟨ids, -, -, hn⟩ := hcounted
                  have hkeys' : ((evaluate sc rec hired told).1.map
                      Prod.fst).Nodup := evaluate_nodup hn hkeys hired told
                  dsimp only at h
                  split at h
                  case h_1 rec' heval =>
                      cases h
                      rw [heval] at hkeys' hc
                      exact ⟨⟨hkeys', hc⟩, hfile⟩
                  case h_2 rec' next heval =>
                      cases h
                      rw [heval] at hkeys' ht
                      exact ⟨⟨writes_record hkeys' (hspelled _ _ _ rfl),
                        ht (by simp)⟩, hfile⟩
      case h_2 => cases h
  | write n =>
      rw [step] at h
      split at h
      case h_1 rec next written hphase =>
          obtain ⟨hwrites, htruth⟩ := hs.of_saving hphase
          split at h
          · cases h
            refine ⟨⟨hwrites, htruth⟩, ?_⟩
            intro text htext
            cases htext
            refine ⟨rec, hwrites, htruth, ?_⟩
            rw [String.toList_ofList]
            exact List.take_prefix n _
          · cases h
      case h_2 => cases h
  | saved printed =>
      rw [step] at h
      split at h
      case h_1 rec next written hphase =>
          obtain ⟨hwrites, htruth⟩ := hs.of_saving hphase
          cases h
          refine ⟨?_, ?_⟩
          · rcases afterSave_cases rec next printed with hdown | hidle
            · rw [hdown]
              trivial
            · rw [hidle]
              exact hs.goes_on hphase
          · intro text htext
            cases htext
            exact ⟨rec, hwrites, htruth, List.prefix_rfl⟩
      case h_2 => cases h
  | saveFails =>
      rw [step] at h
      split at h
      case h_1 rec next written hphase =>
          cases h
          refine ⟨?_, hs.file⟩
          cases next with
          | created => trivial
          | on => exact hs.goes_on hphase
          | halts => exact hs.goes_on hphase
      case h_2 => cases h
  | stop =>
      cases h
      exact ⟨trivial, hs.file⟩

theorem sound_start (agentId : String) (keys : ValueKeys)
    (repr : K → String) : Sound agentId keys repr (start : State K) where
  phase := trivial
  file := fun s hs => by cases hs

/-- One of the two scripts, with the keys of its values. -/
inductive IsScript : {T : Type} → Script K T → ValueKeys → Prop
  | grid : IsScript gridScript gridKeys
  | rebalancer : IsScript rebalancerScript rebalancerKeys

theorem IsScript.regular (h : IsScript sc keys) : Regular sc keys := by
  cases h with
  | grid => exact gridScript_regular
  | rebalancer => exact rebalancerScript_regular

/-- Whenever the state file can be read, whatever the process that writes
it was doing and wherever one before it ended: it is a record, which counts
as many cycles as it has receipts of the agent to show, each its own, and
unless it counts none it holds the values of the receipt it names. One
process at a time has the file: a launch waits for the one before it to be
down. -/
theorem file_tells (hsc : IsScript sc keys)
    (hhires : ∀ i, Platform.IsHire sha (hires i))
    (hhire : ∀ i since raw,
      IsCycleHire sha sc.agentId raw (hire i since raw))
    {s : State K} {acts : List (Action K T)}
    (hspelled : Along (step sc repr H hires hire) (Spelled repr) start acts)
    (hrun : run (step sc repr H hires hire) start acts = some s)
    {text : String} {v : PyVal K} (hfile : s.file = some text)
    (hread : loads text = .ok v) :
    ∃ (rec : Dict K) (ids : List Uuid), v = .dict rec
      ∧ rec.lookup "cycles" = some (.int ids.length) ∧ ids.Nodup
      ∧ (∀ id ∈ ids, ReceiptOf s.base.db sc.agentId id)
      ∧ (ids = [] ∨ Named sc.agentId keys s.base.db rec) := by
  have hsound := run_invariant_along
    (fun hs _ hsp h => sound_step hsc.regular hhires hhire hs hsp h)
    (sound_start sc.agentId keys repr) hspelled hrun
  have hok := hsound.file
  rw [hfile] at hok
  obtain ⟨rec, rfl, -, ⟨ids, hnodup, hids, hcycles⟩, hnamed⟩ :=
    hok.read hread
  refine ⟨rec, ids, rfl, hcycles, hnodup, hids, ?_⟩
  rcases hnamed with hzero | hnamed
  · rw [hcycles] at hzero
    simp only [Option.some.injEq, PyVal.int.injEq] at hzero
    exact Or.inl (List.length_eq_zero_iff.1 (by omega))
  · exact Or.inr hnamed

end Run

-- =========================================================== one deployment

/-- The grid agent, were it to report 1 for whatever it is asked. -/
def trialAgent : LiveAgent ℚ Unit Unit Unit :=
  { Hires.steady with
    manifest :=
      { BnbGrid.manifest with name := "BNB Grid", category := "trade" } }

/-- The hire of a cycle, the `n`-th. -/
def trialHire (n : Nat) (_ : PyVal ℚ) (raw : Dict ℚ) :
    Db ℚ → Outcome Exc (Db ℚ) (Hired ℚ) :=
  runHire (fun _ => Platform.effs.hex)
    (fun _ => .ok ⟨"net_pnl_usd", "USD", 0⟩) trialAgent 1 raw none true
    (Platform.steadyServer n)

/-- It records what it hires. -/
theorem isCycleHire_trial (n : Nat) (since : PyVal ℚ) (raw : Dict ℚ) :
    IsCycleHire (fun _ => Platform.effs.hex) (gridScript (K := ℚ)).agentId raw
      (trialHire n since raw) :=
  ⟨_, _, _, inferInstance, _, trialAgent, _, rfl, rfl⟩

def trialArgs : Args ℚ := ⟨"BNB-USDT", 50, 12, "balanced", 24, 0, ""⟩

/-- A replay whose price left the range. -/
def trialStats : BnbGrid.SimResult ℚ :=
  { netPnlUsd := 0, realizedPnlUsd := 0, unrealizedPnlUsd := 0
    nTrades := 0, nRoundTrips := 0, winRate := 0, maxDrawdownPct := 0
    capitalAtRiskUsd := 0, windowDays := 0, feesUsd := 0, gasUsd := 0
    halted := some .leftRange, finalEquityUsd := 0, equityCurve := []
    roundTrips := [], fills := [] }

/-- The texts of the floats there are. -/
def trialText (x : ℚ) : String :=
  if x = 0 then "0.0" else if x = 1 then "1.0" else "50.0"

abbrev trialStep :=
  step gridScript trialText Keccak.everyOther Platform.steadyHire trialHire

/-- A deployment, and its first cycle, which ends it. -/
def trialRun : List (Action ℚ (BnbGrid.SimResult ℚ)) :=
  [.launch false trialArgs, .saved true,
   .cycle 0 ⟨trialStats, "", true⟩, .saved true]

/-- Its record then. -/
def trialRecord : Dict ℚ :=
  [("pair", .str "BNB-USDT"), ("capital_usd", .float (.fin 50)),
   ("grid_levels", .int 12), ("risk", .str "balanced"),
   ("deployed_at_ms", .int (-86400000)), ("created_at", .str ""),
   ("status", .str "halted"), ("cycles", .int 1), ("halted", .bool true),
   ("last_cycle_at", .str ""),
   ("last_receipt_id", .str (uuidStr (Fin.ofNat _ 2))),
   ("window_days", rounded 0 3), ("net_pnl_usd", rounded 1 4),
   ("hodl_pnl_usd", rounded 0 4), ("delta_vs_hodl_usd", rounded 1 4),
   ("win_rate", .float (.fin 0)), ("n_trades", .int 0),
   ("max_drawdown_pct", rounded 0 3), ("capital_at_risk_usd", rounded 0 2),
   ("halt_reason", .str (haltText .leftRange))]

def trialBase : Platform.State ℚ :=
  { (Platform.init : Platform.State ℚ) with
    db := (trialHire 0 (.int (-86400000))
      [("pair", .str "BNB-USDT"), ("capital_usd", .float (.fin 50)),
       ("grid_levels", .int 12), ("risk", .str "balanced")] ⟨[], [], []⟩).2 }

/-- The trial's floats are spelled as themselves, -/
theorem trialText_spells (x : ℚ) (h : x = 0 ∨ x = 1 ∨ x = 50) :
    FloatText trialText x := by
  rcases h with rfl | rfl | rfl
  · exact ⟨by decide +kernel, by decide +kernel⟩
  · exact ⟨by decide +kernel, by decide +kernel⟩
  · exact ⟨by decide +kernel, by decide +kernel⟩

/-- so all that it writes can be written. -/
theorem spelled_trial (p : String × PyVal ℚ)
    (hp : p ∈ gridScript.fresh trialArgs ∨ p ∈ trialRecord) :
    Writes trialText p.2 := by
  have h0 : FloatText trialText 0 := trialText_spells 0 (by simp)
  have h1 : FloatText trialText 1 := trialText_spells 1 (by simp)
  have h50 : FloatText trialText 50 := trialText_spells 50 (by simp)
  have hround : ∀ n, pyRound (0 : ℚ) n = 0 := by
    intro n
    simp [pyRound]
  have hone : pyRound (1 : ℚ) 4 = 1 := by decide +kernel
  rcases hp with hp | hp
  · simp only [gridScript, trialArgs, List.mem_cons, List.not_mem_nil,
      or_false] at hp
    rcases hp with rfl | rfl | rfl | rfl | rfl | rfl | rfl | rfl | rfl
    all_goals simp [Writes, h50]
  · simp only [trialRecord, rounded, hround, hone, List.mem_cons,
      List.not_mem_nil, or_false] at hp
    rcases hp with rfl | rfl | rfl | rfl | rfl | rfl | rfl | rfl | rfl | rfl
      | rfl | rfl | rfl | rfl | rfl | rfl | rfl | rfl | rfl | rfl
    all_goals simp [Writes, h0, h1, h50]

/-- The states the deployment goes through. -/
def trialStates : List (State ℚ) :=
  [start,
   ⟨Platform.init, none, .saving (gridScript.fresh trialArgs) .created none⟩,
   ⟨Platform.init, some (stateText trialText (gridScript.fresh trialArgs)),
    .idle (gridScript.fresh trialArgs)⟩,
   ⟨trialBase, some (stateText trialText (gridScript.fresh trialArgs)),
    .saving trialRecord .halts none⟩,
   ⟨trialBase, some (stateText trialText trialRecord), .down⟩]

/-- In each of them what is saved can be written. -/
theorem spelled_states : ∀ s ∈ trialStates, Spelled trialText s := by
  intro s hs rec next written hphase p hp
  simp only [trialStates, List.mem_cons, List.not_mem_nil, or_false] at hs
  rcases hs with rfl | rfl | rfl | rfl | rfl
  all_goals cases hphase
  · exact spelled_trial p (Or.inl hp)
  · exact spelled_trial p (Or.inr hp)

theorem run_trial :
    run trialStep start trialRun
        = some ⟨trialBase, some (stateText trialText trialRecord), .down⟩
      ∧ Along trialStep (Spelled trialText) start trialRun := by
  have hcycle : trialStep ⟨Platform.init,
        some (stateText trialText (gridScript.fresh trialArgs)),
        .idle (gridScript.fresh trialArgs)⟩ (.cycle 0 ⟨trialStats, "", true⟩)
      = some ⟨trialBase, some (stateText trialText
          (gridScript.fresh trialArgs)), .saving trialRecord .halts none⟩ := by
    with_unfolding_all rfl
  have hs := spelled_states
  simp only [trialStates, List.forall_mem_cons] at hs
  obtain ⟨h0, h1, h2, h3, h4, -⟩ := hs
  refine ⟨?_, ?_⟩
  · exact (run_cons_eq_some _).2 ⟨_, rfl, (run_cons_eq_some _).2
      ⟨_, rfl, (run_cons_eq_some _).2 ⟨_, hcycle, rfl⟩⟩⟩
  · exact along_of_cons h0 rfl (along_of_cons h1 rfl
      (along_of_cons h2 hcycle (along_of_cons h3 rfl (along_nil h4))))

/-- The file of that deployment counts one cycle, which has its receipt. -/
theorem file_tells_trial : ∃ ids : List Uuid, ids.length = 1
    ∧ (∀ id ∈ ids, ReceiptOf trialBase.db "bnb-grid" id)
    ∧ Named "bnb-grid" gridKeys trialBase.db trialRecord := by
  have hkeys : (trialRecord.map Prod.fst).Nodup := by simp [trialRecord]
  have hread := loads_line (indented 2)
    (writes_record hkeys fun p hp => spelled_trial p (Or.inr hp))
  obtain ⟨hrun, hspelled⟩ := run_trial
  obtain ⟨rec, ids, heq, hcycles, -, hids, hnamed⟩ :=
    file_tells .grid Platform.isHire_steady isCycleHire_trial hspelled hrun rfl
      hread
  cases heq
  have hlength : ids.length = 1 := by
    have hone : trialRecord.lookup "cycles" = some (.int 1) := rfl
    rw [hone] at hcycles
    simp only [Option.some.injEq, PyVal.int.injEq] at hcycles
    omega
  refine ⟨ids, hlength, hids, ?_⟩
  rcases hnamed with rfl | hnamed
  · cases hlength
  · exact hnamed

end Proofstand.Paper
