/-
`orchestrator/queries.py`: the card and the page of an agent, beside the
tables that hires and anchoring clients write.

A request reads in sessions of its own: `refresh_stats` upserts
`agent_stats` from the tables of one moment, the receipts are read at
another, and a row of the statistics at a third, after whatever hires,
clients and other requests' refreshes did in between. A hire's server
gives no id of a run a second time. Of a card and a page the texts that
only show the manifest are left out.

# Who acts

A step of the site is one of the platform, or somebody's refresh. The
refresh is one statement: the rows it writes are computed of the tables of
one moment, and the old row of an agent is replaced.

# A page

`agent_detail` refreshes, then reads three times. Its model takes the
sites of those three moments as arguments, and the theorems let any run of
the site pass between them; nothing ties the three together but that each
comes no earlier than the one before.
-/
import Proofstand.Lib.Tables
import Proofstand.Lib.Upserts
import Proofstand.Orchestrator.Platform
import Proofstand.Orchestrator.Queries

namespace Proofstand.Market

open Anchor (Keccak Uuid)
open Persist Queries Session

variable {K : Type}

-- =========================================================== the statistics

/-- `AgentStatsOut()`. -/
def noStats (agentId : String) : AgentStats K :=
  ⟨agentId, 0, none, none, none, none, none⟩

/-- `_stats_row`. -/
def statsRow (rows : List (AgentStats K)) (agentId : String) :
    AgentStats K :=
  (Upserts.find (fun r => r.agentId) rows agentId).getD (noStats agentId)

-- ================================================================= the site

/-- The tables with `agent_stats`. -/
structure Site (K : Type) where
  base : Platform.State K
  agentStats : List (AgentStats K)

/-- No hire yet, no statistics. -/
def Site.start : Site K := ⟨Platform.init, []⟩

/-- The tables the platform writes. -/
def Site.db (s : Site K) : Db K := s.base.db

/-- A step of the platform, or a refresh. -/
inductive Act
  | platform (a : Platform.Action)
  | refresh

/-- The ids `gen_random_uuid()` gives the runs of a hire. -/
def given (sv : Server K) : List Uuid :=
  [sv.agentRunId, sv.baselineRunId].filterMap Except.toOption

/-- The ids the server gives are new. -/
def isFresh (sv : Server K) (db : Db K) : Bool :=
  decide (given sv).Nodup
    && (given sv).all fun id => !(db.runs.any fun r => r.id = id)

/-- The server of a hire that takes place has ids for it. -/
def canHire (servers : Nat → Server K) (db : Db K) : Platform.Action → Bool
  | .hire i => isFresh (servers i) db
  | .anchor _ => true

section

variable [Field K] [LinearOrder K]

/-- `refresh_stats`: `refresh_agent_stats()` upserts its rows. -/
def refreshStats (db : Db K) (rows : List (AgentStats K)) :
    List (AgentStats K) :=
  (refreshAgentStats db).foldl (Upserts.upsert fun r => r.agentId) rows

/-- What each step does, if it can be taken. -/
def siteStep (H : Keccak) (servers : Nat → Server K)
    (hires : Nat → Db K → Outcome Exc (Db K) (Hired K)) (s : Site K) :
    Act → Option (Site K)
  | .platform a =>
      if canHire servers s.db a then
        (Platform.step H hires s.base a).map fun base =>
          { s with base := base }
      else none
  | .refresh =>
      some { s with agentStats := refreshStats s.db s.agentStats }

end

-- ================================================================ the pages

/-- `IMPLEMENTED`, all of them without a reason against. -/
def implemented : List String :=
  ["bsc-sentry", "bnb-grid", "pcs-rebalancer", "venus-guard", "pcs-yield"]

/-- `unavailable_reason`. -/
def unavailableReason (agentId : String) : Option String :=
  if agentId ∈ implemented then none
  else some s!"no implementation registered for '{agentId}'"

/-- `AgentCard`. -/
structure AgentCard (K : Type) where
  id : String
  category : String
  tiers : List Nat
  advantageMetric : AdvantageMetric
  stats : AgentStats K
  hasRuns : Bool
  available : Bool
  unavailableReason : Option String

/-- `_card`, with the row it reads. -/
def card (m : MarketManifest K) (stats : AgentStats K) : AgentCard K where
  id := m.id
  category := m.category
  tiers := m.tiers
  advantageMetric := m.advantageMetric
  stats := stats
  hasRuns := 0 < stats.nRuns
  available := m.id ∈ implemented
  unavailableReason := unavailableReason m.id

/-- One point of the curve. -/
structure CurvePoint (K : Type) where
  createdAt : Int
  agentValue : K
  baselineValue : K
  delta : K

/-- The curve of an agent, with what its axis is. -/
structure Curve (K : Type) where
  metric : String
  unit : String
  windowDays : Option K
  points : List (CurvePoint K)

/-- `AgentDetail`. -/
structure AgentDetail (K : Type) extends AgentCard K where
  recentReceipts : List (ReceiptOut K)
  curve : Curve K

/-- A receipt's point. -/
def curvePoint (r : ReceiptOut K) : CurvePoint K where
  createdAt := r.createdAt
  agentValue := r.agentValue
  baselineValue := r.baselineValue
  delta := r.delta

/-- `agent_detail` after its refresh: the receipts, the statistics of the
curve and those of the card, each read at its moment. -/
def agentDetail [Field K] [LinearOrder K] (m : MarketManifest K)
    (atReceipts atCurve atCard : Site K) : AgentDetail K :=
  let receipts := receiptsFor atReceipts.db m.id 25
  { card m (statsRow atCard.agentStats m.id) with
    recentReceipts := receipts
    curve :=
      { metric := m.advantageMetric.name
        unit := m.advantageMetric.unit
        windowDays := (statsRow atCurve.agentStats m.id).windowDays
        points := receipts.reverse.map curvePoint } }

-- ============================================================ the categories

/-- `CategoryOut`. -/
structure CategoryOut where
  category : String
  agentCount : Nat
  liveRuns : Nat

/-- The rows of `runs r JOIN agents a` of one category, of the last 24
hours. -/
def liveRows (db : Db K) (now : Int) (category : String) :
    List (RunRow K × AgentRow) :=
  (db.runs.filter fun r => now - 24 * 3600 * 10 ^ 6 < r.startedAt).flatMap
    fun r => (db.agents.filter fun a => a.id = r.agentId ∧
      a.category = category).map fun a => (r, a)

/-- `categories`, of the manifests that are available. -/
def categories (ms : List (MarketManifest K)) (db : Db K) (now : Int) :
    List CategoryOut :=
  (pySortedBy Prod.fst (Tables.groups (fun m => m.category) ms)).map
    fun (category, listed) =>
      ⟨category, listed.length, (liveRows db now category).length⟩

end Proofstand.Market
