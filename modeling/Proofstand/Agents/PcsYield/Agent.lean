/-
`pcs_yield/agent.py`: pools ranked by net APR behind the bsc-sentry gate.

`observe` is cut where its parts meet: the fetched pools, the gate, the
scores. bsc-sentry is another agent, and what it reports on a token is a
read like the others. A ranked copy of a pool's dict drops its tokens;
here it keeps them, to say which pool it is of.

# The gate

The tokens of the shortlist that are not on the allowlist are put to the
sentry, each once and eight at most. What comes back is kept by token: a
report with its verdict, or the message of a check that raised. Without a
fork there is no report on anything, and `gate_status` says why.
`decide()` then reads the data alone: a pool with a CRITICAL token is
excluded, the rest is ranked by net APR, and the winner is the best
screened pool or, where there is none, the best of the ranking.
-/
import Proofstand.Agents.Base
import Proofstand.Agents.PcsYield.Economics
import Proofstand.Agents.PcsYield.Sources

namespace Proofstand

namespace PcsYield

open Calibrate

variable {K : Type} [Field K] [LinearOrder K]

/-- The manifest in `agents/pcs_yield/manifest.yaml`. -/
def manifest : Manifest K where
  id := "pcs-yield"
  tiers := [0]
  inputs :=
    [("capital_usd",
      { type := .number, min := some (.fin 50), max := some (.fin 1000000),
        required := true }),
     ("risk",
      { type := .enum,
        values := [.str "conservative", .str "balanced", .str "degen"],
        default := .str "balanced" }),
     ("horizon_days",
      { type := .number, min := some (.fin 1), max := some (.fin 365),
        default := .int 30 })]
  baseline := "top_headline_apr"
  advantageMetric :=
    { name := "net_apr_delta_pct", unit := "pct", higherIsBetter := true }
  maxLossPct := none

/-- `_ALLOWLIST`: WBNB, USDT, USDC, BUSD, CAKE, BTCB and ETH. -/
def allowlist : List String :=
  ["0xbb4cdb9cbd36b01bd1cbaebf2de08d9173bc095c",
   "0x55d398326f99059ff775485246999027b3197955",
   "0x8ac76a51cc950d9822d68b83fe1ad97b32cd580d",
   "0xe9e7cea3dedca5984780bafc599bd69add087d56",
   "0x0e09fabb73bd3ade0a17ecc321fd13a19e81ce82",
   "0x7130d2a12b9bcbfae4f2634d864a1ee1ce3ead9c",
   "0x2170ed0880ac9a755fd29b2688956bd959f933f8"]

/-- `_GATE_DEPTH.get(risk, 8)`. -/
def gateDepth (risk : String) : Nat :=
  (([("conservative", 12), ("balanced", 8), ("degen", 4)] :
    List (String × Nat)).lookup risk).getD 8

-- ========================================================= the pools read

/-- An entry of `raw`. -/
structure RawPool (K : Type) where
  pool : String
  symbol : String
  underlyingTokens : List String
  tvlUsd : Option K
  tvl14dAgo : Option K
  feeAprPct : K
  feeAprSource : String
  emissionAprPct : K
  headlineAprPct : K
  volAnnual : Option K

/-- Adding and removing liquidity, with two approvals; 0 where the gas
was never measured. -/
def gasRoundtrip (w : World K) : Py K :=
  match (do
    let add ← gasCostUsd w "v2_add_liquidity"
    let remove ← gasCostUsd w "v2_remove_liquidity"
    let approve ← gasCostUsd w "approve"
    pure (add + remove + 2 * approve) : Py K) with
  | .ok gas => .ok gas
  | .error e => if e.cls = .GasUnitUnmeasured then .ok 0 else .error e

/-- `x or y`. -/
def orElse (x : Option K) (y : K) : K :=
  match x with
  | none => y
  | some x => if x = 0 then y else x

variable [FloorRing K]

/-- The volatility, or none where the pair has no price history. -/
def volOf (lib : Libm K) (w : World K) (symbol : String) :
    Py (Option K) :=
  match pairVolAnnual lib w symbol 30 with
  | .ok vol => .ok (some vol)
  | .error e => if e.cls = .VolUnavailable then .ok none else .error e

/-- The numbers of one pool. -/
def rawPool (lib : Libm K) (w : World K) (p : LlamaPool K) :
    Py (RawPool K) := do
  let vol ← volOf lib w p.symbol
  let feeApr := (p.apyMean30d.or p.apyBase).getD (p.apy.getD 0)
  let headline := p.apy.getD (orElse p.apyBase feeApr)
  pure
    { pool := p.pool
      symbol := p.symbol
      underlyingTokens := (p.underlyingTokens.getD []).map String.toLower
      tvlUsd := p.tvlUsd
      tvl14dAgo := PcsYield.tvl14dAgo w p.pool
      feeAprPct := feeApr
      feeAprSource := if p.apyMean30d.isSome then "apyMean30d" else "apyBase"
      emissionAprPct := p.apyReward.getD 0
      headlineAprPct := headline
      volAnnual := vol }

-- =============================================================== the gate

/-- What the gate has on a token. -/
inductive SentryEntry
  | report (verdict : SentryVerdict) (score : Int) (hardFails : List String)
  | unknown (error : String)
  deriving DecidableEq, Repr

/-- `verdict == "CRITICAL"`. -/
def SentryEntry.isCritical : SentryEntry → Bool
  | .report .CRITICAL _ _ => true
  | _ => false

omit [FloorRing K] in
/-- The shortlist: by yield less a volatility penalty, cut at the depth. -/
def prelim (depth : Nat) (raw : List (RawPool K)) : List (RawPool K) :=
  (pySortedDesc
    (fun r => r.feeAprPct + r.emissionAprPct - 25 * r.volAnnual.getD 0)
    raw).take depth

/-- The tokens of the shortlist to gate: each once, eight at most. -/
def gateTokens {K : Type} (shortlist : List (RawPool K)) : List String :=
  ((shortlist.flatMap fun r => r.underlyingTokens).foldl
    (fun tokens t =>
      if t ≠ "" ∧ t ∉ allowlist ∧ t ∉ tokens then tokens ++ [t] else tokens)
    []).take 8

/-- `str(e)[:160]`. -/
def cut160 (msg : String) : String := String.ofList (msg.toList.take 160)

omit [FloorRing K] [Field K] [LinearOrder K] in
/-- The report on a token, or what went wrong with it. -/
def sentryEntry (w : World K) (token : String) : SentryEntry :=
  match w.sentryReport token with
  | .ok rep => .report rep.verdict rep.score rep.hardFails
  | .error msg => .unknown (cut160 msg)

omit [FloorRing K] [Field K] [LinearOrder K] in
/-- The gate on its tokens: `sentry` and `gate_status`. -/
def gate (w : World K) (tokens : List String) :
    List (String × SentryEntry) × String :=
  match tokens with
  | [] => ([], "clean")
  | _ =>
      match w.anvilFork with
      | .error msg => ([], "unavailable: " ++ cut160 msg)
      | .ok () =>
          (tokens.map fun t => (t, sentryEntry w t),
            match w.anvilExit with
            | .error msg => "unavailable: " ++ cut160 msg
            | .ok () => "clean")

-- ============================================================= the scores

/-- An entry of `pools_scored`. -/
structure ScoredPool (K : Type) where
  pool : String
  symbol : String
  headlineAprPct : K
  feeAprPct : K
  emissionAprEffectivePct : K
  expectedIlAnnualPct : K
  amortisedGasAnnualPct : K
  dilutionPct : K
  netAprPct : K
  ilVerified : Bool
  notes : List String
  tvlUsd : Option K
  feeAprSource : String
  underlyingTokens : List String
  deriving DecidableEq

/-- A pool's net APR and what went into it, rounded as it is recorded. -/
def scorePool (lib : Libm K) (horizon capital gas : K) (r : RawPool K) :
    Py (ScoredPool K) := do
  let na ← netApr lib r.pool r.symbol r.feeAprPct r.emissionAprPct
    r.headlineAprPct horizon r.volAnnual capital gas (r.tvlUsd.getD 0)
    r.tvl14dAgo v2RangeWidth
  pure
    { pool := na.pool
      symbol := na.symbol
      headlineAprPct := pyRound na.headlineApr 3
      feeAprPct := pyRound na.feeApr 3
      emissionAprEffectivePct := pyRound na.emissionAprEffective 3
      expectedIlAnnualPct := pyRound na.ilAnnual 3
      amortisedGasAnnualPct := pyRound na.gasAnnual 4
      dilutionPct := pyRound na.dilution 3
      netAprPct := pyRound na.netApr 3
      ilVerified := na.ilVerified
      notes := na.notes
      tvlUsd := r.tvlUsd
      feeAprSource := r.feeAprSource
      underlyingTokens := r.underlyingTokens }

-- ======================================================== the observation

/-- The observation's data. -/
structure Data (K : Type) where
  capitalUsd : K
  horizonDays : K
  risk : String
  gasUsdRoundtrip : K
  poolsScored : List (ScoredPool K)
  sentry : List (String × SentryEntry)
  gateStatus : String
  gatedTokens : List String

section

variable {K : Type}

/-- A float or `None`, as JSON has it. -/
def optFloat : Option K → PyVal K
  | none => .none
  | some x => .float (.fin x)

/-- A list of texts, as JSON has it. -/
def texts (ts : List String) : PyVal K := .list (ts.map .str)

/-- The verdict's text. -/
def SentryVerdict.text : SentryVerdict → String
  | .OK => "OK"
  | .WARN => "WARN"
  | .CRITICAL => "CRITICAL"

/-- One token's entry in the sentry report of the observation. -/
def SentryEntry.toVal : SentryEntry → PyVal K
  | .report verdict score hardFails => .dict
      [("verdict", .str (SentryVerdict.text verdict)),
       ("score", .int score), ("hard_fails", texts hardFails)]
  | .unknown error => .dict
      [("verdict", .str "UNKNOWN"), ("error", .str error)]

/-- One pool's entry in the observation. -/
def ScoredPool.toVal (s : ScoredPool K) : PyVal K :=
  .dict
    [("pool", .str s.pool), ("symbol", .str s.symbol),
     ("headline_apr_pct", .float (.fin s.headlineAprPct)),
     ("fee_apr_pct", .float (.fin s.feeAprPct)),
     ("emission_apr_effective_pct",
      .float (.fin s.emissionAprEffectivePct)),
     ("expected_il_annual_pct", .float (.fin s.expectedIlAnnualPct)),
     ("amortised_gas_annual_pct", .float (.fin s.amortisedGasAnnualPct)),
     ("dilution_pct", .float (.fin s.dilutionPct)),
     ("net_apr_pct", .float (.fin s.netAprPct)),
     ("il_verified", .bool s.ilVerified), ("notes", texts s.notes),
     ("tvl_usd", optFloat s.tvlUsd),
     ("fee_apr_source", .str s.feeAprSource),
     ("underlying_tokens", texts s.underlyingTokens)]

/-- What the `top_headline_apr` baseline reads of a pool. -/
def ScoredPool.headlineVal (s : ScoredPool K) : PyVal K :=
  .dict
    [("pool", .str s.pool), ("symbol", .str s.symbol),
     ("apy", .float (.fin s.headlineAprPct)),
     ("net_apr_pct", .float (.fin s.netAprPct))]

/-- The dict the data is. -/
def Data.toVal (d : Data K) : PyVal K :=
  .dict
    [("inputs", .dict
      [("capital_usd", .float (.fin d.capitalUsd)),
       ("horizon_days", .float (.fin d.horizonDays)),
       ("risk", .str d.risk)]),
     ("gas_usd_roundtrip", .float (.fin d.gasUsdRoundtrip)),
     ("pools_scored", .list (d.poolsScored.map ScoredPool.toVal)),
     ("sentry", .dict (d.sentry.map fun e => (e.1, e.2.toVal))),
     ("gate_status", .str d.gateStatus),
     ("gated_tokens", texts d.gatedTokens),
     ("pools", .list (d.poolsScored.map ScoredPool.headlineVal))]

end

-- ============================================================= the agent

/-- The constructor's parameters. -/
structure PcsYieldAgent (K : Type) where
  minTvlUsd : K
  universeSize : Nat

/-- A pool that was ranked, or left out and why. -/
structure RankedPool (K : Type) where
  row : ScoredPool K
  securityScreened : Bool
  deriving DecidableEq

/-- A pool the gate excluded, and why. -/
structure ExcludedPool (K : Type) where
  row : ScoredPool K
  excludedReason : String
  deriving DecidableEq

/-- The decision's parameters. -/
structure YieldRanking (K : Type) where
  winner : Option (RankedPool K)
  ranked : List (RankedPool K)
  excluded : List (ExcludedPool K)
  gateStatus : String
  nCandidates : Nat
  deriving DecidableEq

namespace PcsYieldAgent

/-- `observe()`: the candidate pools, scored, and what the gate found out
about the tokens of the best of them. -/
def observe (a : PcsYieldAgent K) (lib : Libm K) (_s : Option (Data K))
    (inputs : Dict K) (w : World K) : Py (Data K × Option (Data K)) := do
  let capitalVal ← (PyVal.dict inputs).item "capital_usd"
  let capital ← capitalVal.number
  let horizon ← ((inputs.lookup "horizon_days").getD (.int 30)).number
  let riskVal := (inputs.lookup "risk").getD (.str "balanced")
  let risk := riskVal.asText?.getD ""
  let pools ← candidatePools w a.minTvlUsd a.universeSize
  if pools.isEmpty then
    raise .NoPools
      "DefiLlama returned no PancakeSwap BSC pool above the TVL floor"
  else
    let gas ← gasRoundtrip w
    let raw ← pools.mapM (rawPool lib w)
    let tokens := gateTokens (prelim (gateDepth risk) raw)
    let (sentry, gateStatus) := gate w tokens
    let scored ← raw.mapM (scorePool lib horizon capital gas)
    let data : Data K :=
      { capitalUsd := capital
        horizonDays := horizon
        risk := risk
        gasUsdRoundtrip := gas
        poolsScored := scored
        sentry := sentry
        gateStatus := gateStatus
        gatedTokens := tokens }
    pure (data, some data)

end PcsYieldAgent

section

variable {K : Type}

/-- The tokens of a pool the sentry called CRITICAL. -/
def badTokens (sentry : List (String × SentryEntry)) (p : ScoredPool K) :
    List String :=
  p.underlyingTokens.filter fun t =>
    (sentry.lookup t).any SentryEntry.isCritical

/-- `sentry[bad[0]].get("hard_fails") or ["hard fail"]`. -/
def hardFailsOf (sentry : List (String × SentryEntry)) (t : String) :
    List String :=
  match sentry.lookup t with
  | some (.report _ _ (f :: fs)) => f :: fs
  | _ => ["hard fail"]

/-- The text of an exclusion: the critical tokens, and the hard fails of the
first. -/
def excludedReason (sentry : List (String × SentryEntry))
    (bad : List String) : String :=
  "bsc-sentry flagged " ++ ", ".intercalate bad ++ " CRITICAL ("
    ++ "; ".intercalate (hardFailsOf sentry (bad.headD "")) ++ ")"

/-- Every token is on the allowlist or was gated. -/
def screened (sentry : List (String × SentryEntry)) (p : ScoredPool K) :
    Bool :=
  p.underlyingTokens.all fun t =>
    allowlist.contains t || (sentry.lookup t).isSome

/-- The pools without a CRITICAL token. -/
def ranked (sentry : List (String × SentryEntry))
    (scored : List (ScoredPool K)) : List (RankedPool K) :=
  (scored.filter fun p => (badTokens sentry p).isEmpty).map
    fun p => ⟨p, screened sentry p⟩

/-- The scored pools with a critical token, with their reasons. -/
def excluded (sentry : List (String × SentryEntry))
    (scored : List (ScoredPool K)) : List (ExcludedPool K) :=
  (scored.filter fun p => !(badTokens sentry p).isEmpty).map
    fun p => ⟨p, excludedReason sentry (badTokens sentry p)⟩

end

namespace PcsYieldAgent

omit [FloorRing K] [Field K] in
/-- `decide()`: the pools that are not excluded in the order of their net
APR, the winner a screened one if there is one. -/
def decide (d : Data K) : Decision (YieldRanking K) :=
  let ranked := pySortedDesc (fun x => x.row.netAprPct)
    (PcsYield.ranked d.sentry d.poolsScored)
  let eligible := ranked.filter fun x => x.securityScreened
  let winner := if eligible.isEmpty then ranked.head? else eligible.head?
  { kind := "yield_ranking"
    params :=
      { winner := winner
        ranked := ranked
        excluded := PcsYield.excluded d.sentry d.poolsScored
        gateStatus := d.gateStatus
        nCandidates := d.poolsScored.length } }

omit [FloorRing K] [LinearOrder K] in
/-- `report()`: the winner's net APR, or 0 without one. -/
def report (dec : Decision (YieldRanking K)) : Result K :=
  manifest.result ((dec.params.winner.map fun x => x.row.netAprPct).getD 0)

/-- The agent an instance is; tier 0 does nothing. -/
def agent (a : PcsYieldAgent K) (lib : Libm K) :
    Agent K (Option (Data K)) (Data K) (YieldRanking K) where
  manifest := manifest
  init := none
  snapshot := Data.toVal
  observe := a.observe lib
  decide := fun d => .ok (decide d)
  act := fun s _ _ => .ok ({}, s)
  report := fun _ dec _ => .ok (report dec)

end PcsYieldAgent

end PcsYield

end Proofstand
