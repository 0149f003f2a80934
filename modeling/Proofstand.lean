import Proofstand.Anchor.System
import Proofstand.Anchor.Pipeline
import Proofstand.Anchor.Proofs.Store
import Proofstand.Anchor.Proofs.Browser
import Proofstand.Anchor.Proofs.Binding
import Proofstand.Anchor.Proofs.System
import Proofstand.Anchor.Proofs.Anchoring
import Proofstand.Anchor.Proofs.Batching
import Proofstand.Anchor.Proofs.Recovery
import Proofstand.Python.Value
import Proofstand.Data.Calibrate
import Proofstand.Lib.Series
import Proofstand.Data.Cache
import Proofstand.Data.Proofs.Exchange
import Proofstand.Data.Proofs.Cache
import Proofstand.Data.Proofs.Final
import Proofstand.Data.Proofs.Reach
import Proofstand.Data.Proofs.Volatility
import Proofstand.Agents.Base
import Proofstand.Agents.VenusGuard.Agent
import Proofstand.Agents.BnbGrid.Agent
import Proofstand.Agents.PcsRebalancer.Agent
import Proofstand.Agents.Proofs.Replay
import Proofstand.Agents.Proofs.Observe
import Proofstand.Agents.Proofs.Course
import Proofstand.Agents.Proofs.Journal
import Proofstand.Agents.Proofs.Ticks
import Proofstand.Agents.Proofs.Totality
import Proofstand.Lib.Rounding
import Proofstand.Agents.Proofs.FeePool
import Proofstand.Agents.Proofs.Snapshot
import Proofstand.Agents.Proofs.Ledger
import Proofstand.Agents.Proofs.Calibration
import Proofstand.Agents.Proofs.Causality
import Proofstand.Agents.Proofs.Scale
import Proofstand.Agents.Proofs.Append
import Proofstand.Agents.Proofs.Solvency
import Proofstand.Agents.Proofs.Geometry
import Proofstand.Agents.Proofs.Guarded
import Proofstand.Agents.Proofs.Stress
import Proofstand.Orchestrator.Baselines
import Proofstand.Orchestrator.Harness
import Proofstand.Orchestrator.Proofs.Harness
import Proofstand.Orchestrator.Proofs.Delta
import Proofstand.Orchestrator.Proofs.Baselines
import Proofstand.Orchestrator.Proofs.Reproducible
import Proofstand.Orchestrator.Proofs.Mark
import Proofstand.Orchestrator.Proofs.Window
import Proofstand.Lib.Session
import Proofstand.Orchestrator.Db
import Proofstand.Orchestrator.Proofs.Persist
import Proofstand.Lib.Tables
import Proofstand.Orchestrator.Report
import Proofstand.Orchestrator.Queries
import Proofstand.Orchestrator.Proofs.Report
import Proofstand.Orchestrator.Proofs.Backtests
import Proofstand.Orchestrator.Proofs.Kept
import Proofstand.Orchestrator.Proofs.Wins
import Proofstand.Orchestrator.Proofs.Costs
import Proofstand.Lib.Ranking
import Proofstand.Agents.PcsYield.Economics
import Proofstand.Agents.PcsYield.Sources
import Proofstand.Agents.PcsYield.Agent
import Proofstand.Agents.Proofs.Gate
import Proofstand.Orchestrator.Hires
import Proofstand.Orchestrator.Proofs.Hires
import Proofstand.Lib.Keyed
import Proofstand.Orchestrator.Registry
import Proofstand.Orchestrator.Proofs.Registry
import Proofstand.Orchestrator.Feed
import Proofstand.Orchestrator.Proofs.Feed
import Proofstand.Orchestrator.Proofs.Yield
import Proofstand.Lib.WeightedMean
import Proofstand.Agents.BscSentry.Scoring
import Proofstand.Agents.Proofs.Scoring
import Proofstand.Python.Format
import Proofstand.Agents.BscSentry.Fork
import Proofstand.Agents.BscSentry.Checks
import Proofstand.Agents.Proofs.Unread
import Proofstand.Agents.Proofs.Checks
import Proofstand.Lib.Bisect
import Proofstand.Agents.Proofs.Age
import Proofstand.Agents.BscSentry.Trade
import Proofstand.Agents.BscSentry.Gather
import Proofstand.Agents.Proofs.Trade
import Proofstand.Agents.Proofs.Mint
import Proofstand.Agents.Proofs.Inputs
import Proofstand.Orchestrator.Api
import Proofstand.Orchestrator.Proofs.Accepted
import Proofstand.Data.Proofs.Pages
import Proofstand.Agents.Proofs.Collateral
import Proofstand.Agents.Proofs.Dilution
import Proofstand.Lib.Concentrated
import Proofstand.Data.Proofs.Loss
import Proofstand.Data.Proofs.FullRange
import Proofstand.Lib.OrderStatistic
import Proofstand.Orchestrator.Proofs.Percentile
import Proofstand.Anchor.Proofs.Writers
import Proofstand.Lib.Drawdown
import Proofstand.Agents.Proofs.Drawdown
import Proofstand.Lib.Pacing
import Proofstand.Data.Http
import Proofstand.Data.Proofs.RateCap
import Proofstand.Lib.JsonText
import Proofstand.Python.Json
import Proofstand.Python.Proofs.Json
import Proofstand.Lib.PairBinding
import Proofstand.Anchor.Proofs.Tampering
import Proofstand.Orchestrator.Platform
import Proofstand.Orchestrator.Proofs.Platform
import Proofstand.Orchestrator.Proofs.Published
import Proofstand.Orchestrator.Poll
import Proofstand.Orchestrator.Proofs.Poll
import Proofstand.Lib.Upserts
import Proofstand.Orchestrator.Market
import Proofstand.Orchestrator.Proofs.Market
import Proofstand.Lib.TransferLog
import Proofstand.Agents.BscSentry.Tokens
import Proofstand.Agents.Proofs.Tokens
import Proofstand.Agents.Proofs.Trapped
import Proofstand.Python.Proofs.Torn
import Proofstand.Orchestrator.Paper
import Proofstand.Orchestrator.Proofs.Paper
import Proofstand.Orchestrator.Proofs.Halt
