/-
The paper deployments: `scripts/run_grid.py`, `run_rebalancer.py` and
`run_paper_loops.py`, beside everyone else who uses the database.

A script keeps a record in memory and in a state file. Each cycle hires its
agent, puts what came of it into the record and writes the file anew:
`write_text` opens it empty and fills it, so that a process that ends in
between leaves a part of the text. A process may end at any step; one at a
time has the state file. A cycle that raises is reported and the loop goes
on, with the record as far as it had been changed. What is printed is left
out, except that printing may raise.

# The two scripts

`run_grid.py` and `run_rebalancer.py` are one program with different keys:
a `Script` says what a new record begins with, how the agent is asked,
what a cycle sets and when it halts. `run_paper_loops.py` runs the cycles
of both in one process, each on a file of its own.

# What may go wrong

A launch may find no file, a whole one, or one that no longer parses. A
hire may raise, and so may a cycle behind it. A save may be cut off by the
end of the process after any part of the text, or may raise with a part
written; the loop then goes on with the record it has in memory, a halted
one too. The step function has a case for each.
-/
import Proofstand.Agents.BnbGrid.Agent
import Proofstand.Agents.PcsRebalancer.Sim
import Proofstand.Orchestrator.Platform
import Proofstand.Python.Json
import Proofstand.Python.Statistics

namespace Proofstand.Paper

open Anchor (Keccak Uuid uuidStr)
open Persist Session

variable {K T : Type} [Field K] [LinearOrder K]

-- ============================================================== the record

/-- `d[key] = v` for each pair, in order. -/
def setAll (d : Dict K) (pairs : Dict K) : Dict K :=
  pairs.foldl (fun d p => d.set p.1 p.2) d

/-- `v + 1`. -/
def increment : PyVal K → Py (PyVal K)
  | .int n => .ok (.int (n + 1))
  | .bool b => .ok (.int ((if b then 1 else 0) + 1))
  | .float (.fin x) => .ok (.float (.fin (x + 1)))
  | .float x => .ok (.float x)
  | v => raise .TypeError
      ("unsupported operand type(s) for +=: '" ++ v.typeName ++ "' and 'int'")

/-- `str(out.receipt_id)`. -/
def receiptText (hired : Hired K) : String :=
  match hired.written with
  | some ids => uuidStr ids.2.2
  | none => "None"

section

variable [FloorRing K]

/-- `round(x, digits)`. -/
def rounded (x : K) (digits : Nat) : PyVal K :=
  .float (.fin (pyRound x digits))

end

/-- The arguments of a new deployment, and its moment. -/
structure Args (K : Type) where
  market : String
  capital : K
  levels : Int
  risk : String
  backfillHours : Int
  nowMs : Int
  createdAt : String

/-- What a script is made of; `T` is the replay behind the result's
`stats`. -/
structure Script (K T : Type) where
  agentId : String
  /-- the record of a new deployment -/
  fresh : Args K → Dict K
  /-- `since_ms` and the raw inputs, from the record -/
  asked : Dict K → Py (PyVal K × Dict K)
  /-- what a cycle sets, behind the count, the moment and the receipt -/
  cyclePairs : Hired K → T → Dict K
  /-- and what it sets where it ends the deployment -/
  haltPairs : T → Option (Dict K)
  /-- printing comes before the file is written -/
  printsFirst : Bool
  /-- a halted deployment is not gone on with -/
  stopsHalted : Bool

/-- The items of some keys of the record, as raw inputs. -/
def inputsOf (rec : Dict K) : List String → Py (Dict K)
  | [] => .ok []
  | key :: keys => do
      let v ← (PyVal.dict rec).item key
      let rest ← inputsOf rec keys
      pure ((key, v) :: rest)

/-- `since_ms` and the inputs of some keys. -/
def askWith (keys : List String) (rec : Dict K) : Py (PyVal K × Dict K) := do
  let since ← (PyVal.dict rec).item "deployed_at_ms"
  let inputs ← inputsOf rec keys
  pure (since, inputs)

/-- `halt_reason`, with the agent's own bound. -/
def haltText : BnbGrid.HaltReason → String
  | .unrealisedLoss => "unrealised loss > 5.0% of capital"
  | .leftRange => "price left the calibrated range by > 2x spacing"

variable [FloorRing K]

/-- `run_grid.py`. -/
def gridScript : Script K (BnbGrid.SimResult K) where
  agentId := "bnb-grid"
  fresh a :=
    [("pair", .str a.market), ("capital_usd", .float (.fin a.capital)),
     ("grid_levels", .int a.levels), ("risk", .str a.risk),
     ("deployed_at_ms", .int (a.nowMs - a.backfillHours * 3600000)),
     ("created_at", .str a.createdAt), ("status", .str "running"),
     ("cycles", .int 0), ("halted", .bool false)]
  asked := askWith ["pair", "capital_usd", "grid_levels", "risk"]
  cyclePairs hired st :=
    [("window_days", rounded st.windowDays 3),
     ("net_pnl_usd", rounded hired.outcome.agentValue 4),
     ("hodl_pnl_usd", rounded hired.outcome.baselineValue 4),
     ("delta_vs_hodl_usd", rounded hired.outcome.delta 4),
     ("win_rate", .float (.fin st.winRate)), ("n_trades", .int st.nTrades),
     ("max_drawdown_pct", rounded st.maxDrawdownPct 3),
     ("capital_at_risk_usd", rounded st.capitalAtRiskUsd 2),
     ("halted", .bool st.halted.isSome)]
  haltPairs st :=
    st.halted.map fun reason =>
      [("status", .str "halted"), ("halt_reason", .str (haltText reason))]
  printsFirst := true
  stopsHalted := true

/-- `run_rebalancer.py`. -/
def rebalancerScript : Script K (PcsRebalancer.SimResult K) where
  agentId := "pcs-rebalancer"
  fresh a :=
    [("pool", .str a.market), ("capital_usd", .float (.fin a.capital)),
     ("risk", .str a.risk),
     ("deployed_at_ms", .int (a.nowMs - a.backfillHours * 3600000)),
     ("created_at", .str a.createdAt), ("status", .str "running"),
     ("cycles", .int 0)]
  asked := askWith ["pool", "capital_usd", "risk"]
  cyclePairs hired st :=
    [("net_fees_usd", rounded hired.outcome.agentValue 4),
     ("static_range_usd", rounded hired.outcome.baselineValue 4),
     ("delta_vs_static_usd", rounded hired.outcome.delta 4),
     ("n_rebalances", .int st.nRebalances), ("n_holds", .int st.nHolds),
     ("in_range_fraction", rounded st.inRangeFraction 3),
     ("window_days", rounded st.windowDays 3)]
  haltPairs _ := none
  printsFirst := false
  stopsHalted := false

-- =============================================================== one cycle

/-- How the process goes on after a write: into the loop for the first
time, on with it, or out of it. -/
inductive Next
  | created | on | halts
  deriving DecidableEq, Repr

/-- What a cycle finds beside its hire: the replay's statistics, the
moment, and whether what it prints could be printed. -/
structure Told (T : Type) where
  stats : T
  now : String
  printed : Bool

/-- `_cycle` behind its hire: the record, and how it goes on, if nothing
was raised. -/
def evaluate (sc : Script K T) (rec : Dict K) (hired : Hired K)
    (told : Told T) : Dict K × Option Next :=
  match (PyVal.dict rec).item "cycles" >>= increment with
  | .error _ => (rec, none)
  | .ok cycles =>
      let counted := setAll rec
        ([("cycles", cycles), ("last_cycle_at", .str told.now),
          ("last_receipt_id", .str (receiptText hired))]
          ++ sc.cyclePairs hired told.stats)
      if sc.printsFirst && !told.printed then (counted, none)
      else
        match sc.haltPairs told.stats with
        | some pairs => (setAll counted pairs, some .halts)
        | none => (counted, some .on)

/-- `json.dumps(rec, indent=2) + "\n"`. -/
def stateText (repr : K → String) (rec : Dict K) : String :=
  Json.dumps (Json.indented 2) repr (.dict rec) ++ "\n"

-- ============================================================= the processes

/-- Where the process that has the state file is, if there is one: between
two cycles, or in `write_text`, with how much it has written once the file
is open. -/
inductive Phase (K : Type)
  | down
  | idle (rec : Dict K)
  | saving (rec : Dict K) (next : Next) (written : Option Nat)

/-- The database, the state file, and the process that has it. -/
structure State (K : Type) where
  base : Platform.State K
  file : Option String
  phase : Phase K

/-- No file, and no process. -/
def start : State K := ⟨Platform.init, none, .down⟩

/-- A step of everyone else, of the process, or of what runs it. -/
inductive Action (K T : Type)
  | platform (a : Platform.Action)
  | launch (reset : Bool) (args : Args K)
  | cycle (i : Nat) (told : Told T)
  | write (n : Nat)
  | saved (printed : Bool)
  | saveFails
  | stop

/-- `rec.get("status") == "halted"`. -/
def isHalted (rec : Dict K) : Bool :=
  match rec.lookup "status" with
  | some (.str s) => s = "halted"
  | _ => false

/-- `_load_or_create`, and the look at the status. -/
def launch (sc : Script K T) (file : Option String) (reset : Bool)
    (args : Args K) : Phase K :=
  match file, reset with
  | some text, false =>
      match Json.loads text with
      | .ok (.dict rec) =>
          if sc.stopsHalted && isHalted rec then .down else .idle rec
      | _ => .down
  | _, _ => .saving (sc.fresh args) .created none

/-- The process after `write_text` and the printing behind it: a halt is
returned only once it is printed, and nothing catches what a creation
raises. -/
def afterSave (rec : Dict K) : Next → Bool → Phase K
  | .halts, true => .down
  | .created, false => .down
  | _, _ => .idle rec

/-- And after `write_text` has raised. -/
def afterFailure (rec : Dict K) : Next → Phase K
  | .created => .down
  | _ => .idle rec

/-- `hires` are everyone else's, `hire` is what the script's `run_hire`
does, given `since_ms` and the raw inputs. -/
def step (sc : Script K T) (repr : K → String) (H : Keccak)
    (hires : Nat → Db K → Outcome Exc (Db K) (Hired K))
    (hire : Nat → PyVal K → Dict K → Db K → Outcome Exc (Db K) (Hired K))
    (s : State K) : Action K T → Option (State K)
  | .platform a =>
      (Platform.step H hires s.base a).map fun base => { s with base := base }
  | .launch reset args =>
      match s.phase with
      | .down => some { s with phase := launch sc s.file reset args }
      | _ => none
  | .cycle i told =>
      match s.phase with
      | .idle rec =>
          match sc.asked rec with
          | .error _ => some s
          | .ok (since, raw) =>
              let (result, db) := hire i since raw s.base.db
              let base := { s.base with db := db }
              match result with
              | .error _ => some { s with base := base }
              | .ok hired =>
                  match evaluate sc rec hired told with
                  | (rec, none) =>
                      some { s with base := base, phase := .idle rec }
                  | (rec, some next) =>
                      some { s with
                        base := base, phase := .saving rec next none }
      | _ => none
  | .write n =>
      match s.phase with
      | .saving rec next written =>
          if written.all fun m => m ≤ n then
            some { s with
              file := some (String.ofList ((stateText repr rec).toList.take n))
              phase := .saving rec next (some n) }
          else none
      | _ => none
  | .saved printed =>
      match s.phase with
      | .saving rec next _ =>
          some { s with
            file := some (stateText repr rec)
            phase := afterSave rec next printed }
      | _ => none
  | .saveFails =>
      match s.phase with
      | .saving rec next _ => some { s with phase := afterFailure rec next }
      | _ => none
  | .stop => some { s with phase := .down }

end Proofstand.Paper
