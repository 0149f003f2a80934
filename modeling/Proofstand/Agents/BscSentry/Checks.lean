/-
`bsc_sentry/checks.py`: the checks of a report, each with its evidence.

A check whose read fails is `unknown` with score 0: `check_ownership`,
`check_lp_lock`, `check_contract_age` and `checks_from_sim` say so
themselves where they foresee it, and `run_checks` says it of whatever
they raise, under the name of the function it called, which for all but
one is a lambda.

# One check, one function

Each `check_*` is a function of the reads it makes, and its result is the
whole check: name, status, score, evidence, reason and whether it is a
hard fail. `attempt` is `run_checks`'s `try`: what a raising check is
replaced by is named after the function that was called, so most of the
replacements go by `<lambda>`, a name without a weight.
-/
import Proofstand.Agents.BscSentry.Fork
import Proofstand.Agents.BscSentry.Scoring
import Proofstand.Python.Format
import Proofstand.Python.Statistics

namespace Proofstand

namespace BscSentry

open Hex Rounding

variable {K : Type} [Field K] [LinearOrder K] [FloorRing K]

/-- `DEAD`: the addresses that count as renounced. -/
def deadAddrs : List String :=
  ["0x0000000000000000000000000000000000000000",
   "0x000000000000000000000000000000000000dead"]

/-- The storage slot of a proxy's implementation. -/
def slotImpl : String :=
  "0x360894a13ba1a3210667c828492db98dca3e2076cc3735a920a3ca505d382bbc"

/-- The storage slot of a proxy's admin. -/
def slotAdmin : String :=
  "0xb53127684a568b3173ae13b9f8a6016e243e63b6e8ee1178d6a717850b5d6103"

/-- The storage slot of a proxy's beacon. -/
def slotBeacon : String :=
  "0xa3f0ad74e5423aebfd80d3ef4346578335a9a72aeaee59ff6cb3582b35133d50"

/-- `DANGEROUS_PATTERNS`: what a function's name is searched for. -/
def dangerousPatterns : List String :=
  ["mint", "blacklist", "setfee", "setfees", "settax", "settaxes",
   "updatefee", "updatefees", "setmaxtx", "setmaxwallet",
   "setmaxwalletsize", "pause", "enabletrading", "settradingenabled",
   "excludefromfee", "rescue", "withdrawstuck", "clearstuck", "setrouter",
   "updaterouter", "ownerwithdraw", "setswapenabled", "removelimits"]

/-- `s[:n]`. -/
def cutText (n : Nat) (s : String) : String := String.ofList (s.toList.take n)

/-- `_addr_from_slot`: the last twenty bytes. -/
def addrFromSlot (f : Fork) (raw : Bytes) : Py String :=
  let cs := encodeHex raw
  f.toChecksumAddress ("0x" ++ String.ofList (cs.drop (cs.length - 40)))

-- ================================================== fork-sim derived

/-- The honeypot axis of a trade that found its pair. -/
def honeypotCheck (sim : ForkSimResult K) : Check K :=
  if sim.buyable = some true ∧ sim.sellable = some false then
    { name := "honeypot", status := .fail, score := 0
      evidence := sim.evidence
      reason := "bought fine but the sell transaction reverted"
      hardFail := true }
  else if sim.sellable = some true then
    { name := "honeypot", status := .pass, score := 1
      evidence := sim.evidence, reason := "bought and sold back successfully" }
  else
    { name := "honeypot", status := .warn, score := 3 / 10
      evidence := sim.evidence, reason := "could not complete a buy" }

/-- And its tax axis. -/
def transferTaxCheck (sim : ForkSimResult K) : Check K :=
  let st := sim.sellTaxPct.getD 0
  let bt := sim.buyTaxPct.getD 0
  let taxes := "buy tax " ++ pyPercent 1 bt ++ ", sell tax " ++ pyPercent 1 st
  if sellTaxHardFail < st then
    { name := "transfer_tax", status := .fail, score := 0
      evidence := sim.evidence
      reason := "sell tax " ++ pyPercent 0 st ++ " exceeds "
        ++ pyPercent 0 (sellTaxHardFail : K)
      hardFail := true }
  else if 1 / 10 ≤ max st bt then
    { name := "transfer_tax", status := .warn, score := 3 / 10
      evidence := sim.evidence, reason := taxes }
  else if 3 / 100 ≤ max st bt then
    { name := "transfer_tax", status := .warn, score := 7 / 10
      evidence := sim.evidence, reason := taxes }
  else
    { name := "transfer_tax", status := .pass, score := 1
      evidence := sim.evidence, reason := taxes }

/-- `checks_from_sim`: the honeypot check and the sell tax check of one
simulated trade. -/
def checksFromSim (sim : ForkSimResult K) : List (Check K) :=
  if !sim.pairFound then
    [{ name := "honeypot", status := .unknown, score := 0
       evidence := sim.evidence
       reason := "no v2 pair with WBNB — could not simulate a trade" },
     { name := "transfer_tax", status := .unknown, score := 0
       evidence := sim.evidence, reason := "no trade to measure tax" }]
  else [honeypotCheck sim, transferTaxCheck sim]

-- ===================================================== on-chain reads

/-- The first owner getter that answers. -/
def firstOwner (f : Fork) (target : String) : Option String :=
  ["owner", "getOwner"].findSome? fun getter =>
    (f.ownerCall target getter).toOption

/-- The owner is one of the dead addresses. -/
def isRenounced (owner : String) : Bool := deadAddrs.contains owner.toLower

/-- `code_size`: a renounced owner's is not read. -/
def ownerCodeSize (f : Fork) (owner : String) : Py Nat :=
  if isRenounced owner then .ok 0
  else do
    let address ← f.toChecksumAddress owner
    let code ← (f.getCode address none).read
    pure code.length

omit [LinearOrder K] [FloorRing K] in
/-- The ownership axis of a known owner. -/
def ownedCheck (owner : String) (codeSize : Nat) : Check K :=
  let ev : Dict K :=
    [("owner", .str owner), ("renounced", .bool (isRenounced owner)),
     ("owner_code_size", .int codeSize)]
  if isRenounced owner then
    { name := "ownership", status := .pass, score := 1, evidence := ev
      reason := "ownership renounced" }
  else if codeSize = 0 then
    { name := "ownership", status := .warn, score := 4 / 10, evidence := ev
      reason := "owner is an EOA — one key can change token behaviour" }
  else
    { name := "ownership", status := .warn, score := 7 / 10, evidence := ev
      reason := "owner is a contract (could be a timelock/multisig — "
        ++ "unverified here)" }

omit [LinearOrder K] [FloorRing K] in
/-- `check_ownership`: nobody's, a contract's or an account's. -/
def checkOwnership (f : Fork) (target : String) : Py (Check K) := do
  let target ← f.toChecksumAddress target
  match firstOwner f target with
  | none =>
      pure
        { name := "ownership", status := .unknown, score := 0
          evidence := [("owner", .none)]
          reason := "no owner()/getOwner() — may be ownerless or non-standard" }
  | some owner => do
      let codeSize ← ownerCodeSize f owner
      pure (ownedCheck owner codeSize)

omit [LinearOrder K] [FloorRing K] in
/-- The proxy axis of the three slots. -/
def proxyCheck (impl admin beacon : String) (upgradeable : Bool) : Check K :=
  let ev : Dict K :=
    [("impl_slot", .str impl), ("admin_slot", .str admin),
     ("beacon_slot", .str beacon)]
  if upgradeable then
    { name := "upgradeable_proxy", status := .warn, score := 3 / 10
      evidence := ev
      reason := "EIP-1967 proxy — the logic contract can be swapped" }
  else
    { name := "upgradeable_proxy", status := .pass, score := 1
      evidence := ev, reason := "not an EIP-1967 proxy" }

/-- `int(impl, 16) != 0 or int(beacon, 16) != 0`. -/
def isUpgradeable (impl beacon : String) : Py Bool := do
  let n ← intBase16 impl
  if n ≠ 0 then pure true
  else do
    let m ← intBase16 beacon
    pure (m ≠ 0)

omit [LinearOrder K] [FloorRing K] in
/-- `check_upgradeable_proxy`: the three slots of a proxy, and who its admin
is. -/
def checkUpgradeableProxy (f : Fork) (target : String) :
    Py (Check K) := do
  let target ← f.toChecksumAddress target
  let implSlot ← (f.getStorageAt target slotImpl).read
  let impl ← addrFromSlot f implSlot
  let adminSlot ← (f.getStorageAt target slotAdmin).read
  let admin ← addrFromSlot f adminSlot
  let beaconSlot ← (f.getStorageAt target slotBeacon).read
  let beacon ← addrFromSlot f beaconSlot
  let upgradeable ← isUpgradeable impl beacon
  pure (proxyCheck impl admin beacon upgradeable)

/-- `bscscan.ContractSource`. -/
structure ContractSource (K : Type) where
  verified : Bool
  contractName : Option String := none
  compilerVersion : Option String := none
  proxy : Bool := false
  abi : Option (List (PyVal K)) := none

omit [LinearOrder K] [FloorRing K] in
/-- `check_source_verified`: verified source, none, or an explorer that did
not answer. -/
def checkSourceVerified (source : Option (ContractSource K)) : Check K :=
  match source with
  | none =>
      { name := "source_verified", status := .warn, score := 3 / 10
        evidence := [("verified", .bool false)]
        reason := "BscScan has no verified source for this address" }
  | some source =>
      let ev : Dict K :=
        [("verified", .bool source.verified),
         ("contract_name", optVal .str source.contractName),
         ("compiler", optVal .str source.compilerVersion),
         ("proxy", .bool source.proxy)]
      if source.verified then
        { name := "source_verified", status := .pass, score := 1
          evidence := ev
          reason := "verified: " ++ source.contractName.getD "None" }
      else
        { name := "source_verified", status := .warn, score := 3 / 10
          evidence := ev, reason := "source not verified on BscScan" }

omit [FloorRing K] [Field K] [LinearOrder K] in
/-- `e.get(key, default)`. -/
def entryGet (e : PyVal K) (key : String) (default : PyVal K) :
    Py (PyVal K) :=
  match e with
  | .dict kvs => .ok ((kvs.lookup key).getD default)
  | v => raise .AttributeError
      ("'" ++ v.typeName ++ "' object has no attribute 'get'")

omit [FloorRing K] in
/-- The names of the functions of an ABI. -/
def abiFunctions : List (PyVal K) → Py (List (PyVal K))
  | [] => .ok []
  | e :: es => do
      let type ← entryGet e "type" .none
      if type.pyEq (.str "function") then do
        let name ← entryGet e "name" (.str "")
        let names ← abiFunctions es
        pure (name :: names)
      else abiFunctions es

/-- A pattern is somewhere in the name. -/
def isDangerous (fn : String) : Bool :=
  dangerousPatterns.any fun p => decide (p.toList <:+: fn.toLower.toList)

omit [FloorRing K] [Field K] [LinearOrder K] in
/-- The function names of the ABI that hold a dangerous pattern, in the order
of the ABI. -/
def dangerousNames : List (PyVal K) → Py (List String)
  | [] => .ok []
  | .str fn :: fns => do
      let names ← dangerousNames fns
      pure (if isDangerous fn then fn :: names else names)
  | v :: _ => raise .AttributeError
      ("'" ++ v.typeName ++ "' object has no attribute 'lower'")

omit [LinearOrder K] [FloorRing K] in
/-- The axis of what was matched among `n` functions. -/
def matchedCheck (matched : List String) (n : Nat) : Check K :=
  let ev : Dict K :=
    [("matched", .list (matched.map .str)), ("n_functions", .int n)]
  if matched.isEmpty then
    { name := "dangerous_functions", status := .pass, score := 1
      evidence := ev, reason := "no obviously dangerous functions" }
  else if matched.length ≤ 2 then
    { name := "dangerous_functions", status := .warn, score := 6 / 10
      evidence := ev, reason := "owner powers: " ++ reprTexts matched }
  else
    { name := "dangerous_functions", status := .warn, score := 25 / 100
      evidence := ev, reason := "many owner powers: " ++ reprTexts matched }

omit [FloorRing K] in
/-- `check_dangerous_functions`: the dangerous names of a verified contract's
ABI. -/
def checkDangerousFunctions (source : Option (ContractSource K)) :
    Py (Check K) :=
  match source.bind fun s => if s.verified then s.abi else none with
  | none | some [] =>
      .ok
        { name := "dangerous_functions", status := .unknown, score := 0
          evidence := [("matched", .list [])]
          reason := "source not verified — cannot scan the ABI" }
  | some abi => do
      let fns ← abiFunctions abi
      let names ← dangerousNames fns
      pure (matchedCheck (pySortedBy id names.dedup) fns.length)

/-- `reference.token_address("WBNB")`. -/
def wbnbAddress : String := "0xbb4CdB9CBd36B01bD1cBaEBF2De08d9173bc095c"

/-- The LP axis of a pair whose tokens are `supply`, `burned` of them at
dead addresses. -/
def burnedCheck (pair : String) (supply burned : Nat) : Check K :=
  let burnedPct : K := if supply = 0 then 0 else (burned : K) / supply
  let ev : Dict K :=
    [("pair", .str pair), ("lp_total_supply", .str (toString supply)),
     ("lp_burned_pct", .float (.fin (pyRound burnedPct 4))),
     ("note", .str ("locker-contract detection "
        ++ "(PinkLock/Unicrypt/Team.Finance) needs their addresses in "
        ++ "reference/ — added in T-032+; only burned LP is checked here"))]
  if 9 / 10 ≤ burnedPct then
    { name := "lp_lock", status := .pass, score := 1, evidence := ev
      reason := pyPercent 0 burnedPct ++ " of LP is burned" }
  else if 5 / 10 ≤ burnedPct then
    { name := "lp_lock", status := .warn, score := 6 / 10, evidence := ev
      reason := pyPercent 0 burnedPct ++ " of LP is burned" }
  else
    { name := "lp_lock", status := .warn, score := 3 / 10, evidence := ev
      reason := "only " ++ pyPercent 0 burnedPct
        ++ " of LP burned and no known locker checked" }

/-- `check_lp_lock`: the share of the pair's tokens at the dead addresses. -/
def checkLpLock (f : Fork) (target : String) : Py (Check K) := do
  let target ← f.toChecksumAddress target
  let wbnb ← f.toChecksumAddress wbnbAddress
  let pair ← (f.getPair target wbnb).read
  let n ← intBase16 pair
  if n = 0 then
    pure
      { name := "lp_lock", status := .unknown, score := 0
        evidence := [("pair", .none)], reason := "no v2 pair with WBNB" }
  else do
    let erc20 ← f.toChecksumAddress pair
    let supply ← (f.totalSupply erc20).read
    let balances ← deadAddrs.mapM fun a => do
      let account ← f.toChecksumAddress a
      (f.balanceOf erc20 account).read
    pure (burnedCheck pair supply balances.sum)

-- ============================================================== the age

/-- The bisection on `eth_getCode`: a read that fails counts as no code. -/
def bisect (f : Fork) (target : String) : Nat → Int → Int → Int
  | 0, lo, _ => lo
  | n + 1, lo, hi =>
      if hi ≤ lo then lo
      else
        let mid := (lo + hi) / 2
        match f.getCode target (some mid) with
        | .ok (_ :: _) => bisect f target n lo mid
        | _ => bisect f target n (mid + 1) hi

/-- The age axis of a contract created at a known block. -/
def ageCheck (head creationBlock : Int) : Check K :=
  let ageBlocks := head - creationBlock
  let ageDays : K := (ageBlocks : K) * 3 / 86400
  let ev : Dict K :=
    [("creation_block", .int creationBlock), ("head_block", .int head),
     ("age_blocks", .int ageBlocks),
     ("age_days_approx", .float (.fin (pyRound ageDays 1))),
     ("method", .str "eth_getCode bisection")]
  if 90 ≤ ageDays then
    { name := "contract_age", status := .pass, score := 1, evidence := ev
      reason := "~" ++ pyFixed 0 ageDays ++ " days old" }
  else if 30 ≤ ageDays then
    { name := "contract_age", status := .pass, score := 8 / 10
      evidence := ev, reason := "~" ++ pyFixed 0 ageDays ++ " days old" }
  else if 7 ≤ ageDays then
    { name := "contract_age", status := .warn, score := 5 / 10
      evidence := ev
      reason := "only ~" ++ pyFixed 0 ageDays ++ " days old" }
  else
    { name := "contract_age", status := .warn, score := 2 / 10
      evidence := ev
      reason := "brand new — ~" ++ pyFixed 1 ageDays ++ " days old" }

/-- `check_contract_age`: older than a block some five million back, or as
old as the bisection from there to the head says. -/
def checkContractAge (f : Fork) (target : String) : Py (Check K) := do
  let target ← f.toChecksumAddress target
  let head ← f.blockNumber.read
  let code ← (f.getCode target (some head)).read
  if code.isEmpty then
    pure
      { name := "contract_age", status := .unknown, score := 0
        evidence := [("has_code", .bool false)]
        reason := "no bytecode at head" }
  else
    let probeBlock := max 1 (head - 5000000)
    match f.getCode target (some probeBlock) with
    | .error msg =>
        pure
          { name := "contract_age", status := .unknown, score := 0
            evidence :=
              [("error", .str (cutText 160 msg)),
               ("probe_block", .int probeBlock)]
            reason := "fork RPC won't serve historical state — needs an "
              ++ "archive node" }
    | .ok (_ :: _) =>
        let ageDays : K := ((head - probeBlock : Int) : K) * 3 / 86400
        pure
          { name := "contract_age", status := .pass, score := 1
            evidence :=
              [("older_than_block", .int probeBlock),
               ("age_days_min", .int (roundHalfEven ageDays)),
               ("method", .str "eth_getCode probe")]
            reason := "older than ~" ++ pyFixed 0 ageDays ++ " days" }
    | .ok [] => pure (ageCheck head (bisect f target 40 probeBlock head))

omit [LinearOrder K] [FloorRing K] in
/-- `check_holder_concentration`: unavailable, there being no free index of
holders. -/
def checkHolderConcentration : Check K where
  name := "holder_concentration"
  status := .unavailable
  score := 0
  evidence :=
    [("note", .str ("top-holder share needs a holder index (BscScan PRO or a "
      ++ "Transfer-event scan). Not run; weighted 0 in scoring until "
      ++ "available."))]
  reason := "no free holder index"

-- ============================================================ all of them

omit [LinearOrder K] [FloorRing K] in
/-- What stands in for a check that raised. -/
def raisedCheck (fnName : String) (e : Exc) : Check K where
  name := fnName
  status := .unknown
  score := 0
  evidence := [("error", .str (cutText 200 e.msg))]
  reason := "check raised"

omit [LinearOrder K] [FloorRing K] in
/-- A check that raised is one of unknown status. -/
def attempt (fnName : String) : Py (Check K) → Check K
  | .ok c => c
  | .error e => raisedCheck fnName e

/-- `run_checks`: the simulation's checks and the others, each tried on its
own, in the order of the report. -/
def runChecks (f : Fork) (target : String) (sim : ForkSimResult K)
    (source : Option (ContractSource K)) : List (Check K) :=
  checksFromSim sim ++
    [attempt "<lambda>" (checkOwnership f target),
     attempt "<lambda>" (checkUpgradeableProxy f target),
     attempt "<lambda>" (.ok (checkSourceVerified source)),
     attempt "<lambda>" (checkDangerousFunctions source),
     attempt "<lambda>" (checkLpLock f target),
     attempt "<lambda>" (checkContractAge f target),
     attempt "check_holder_concentration" (.ok checkHolderConcentration)]

end BscSentry

end Proofstand
