/-
`bsc_sentry/agent.py` `gather` and what it asks BscScan
(`data/sources/bscscan.py`): the checks of one target, from a simulated
trade, the fork and the source.

A source that could not be fetched is none, and one that BscScan has no
verified source for comes back without an ABI.

A trade that raises ends `gather` before any check is made; a source that
can not be fetched does not, it is none. The answer of BscScan is a value
of JSON: every entry that is read may be missing or of another kind, and
each such case is the exception that Python raises there. The ABI is a
text in the answer, and is parsed once more.
-/
import Proofstand.Agents.BscSentry.Trade

namespace Proofstand

namespace BscSentry

variable {K : Type} [Field K] [LinearOrder K]

/-- What `ABI` says of a source that is not verified. -/
def unverifiedAbis : List String :=
  ["", "Contract source code not verified"]

/-- BscScan, as `get_contract_source` meets it. -/
structure BscScan (K : Type) where
  /-- the body of the `getsourcecode` answer for an address -/
  call : String → Live (PyVal K)
  /-- `json.loads` -/
  loads : String → Py (PyVal K)

omit [Field K] [LinearOrder K] in
/-- `row.get(key) or None`, of a field that is a text or none. -/
def optionalText (row : PyVal K) (key : String) : Py (Option String) := do
  let v ← entryGet row key .none
  match v with
  | .str s => pure (if s.isEmpty then none else some s)
  | v =>
      if v.truthy then raise .ValidationError "Input should be a valid string"
      else pure none

omit [Field K] [LinearOrder K] in
/-- The ABI of a verified source. -/
def loadAbi (b : BscScan K) (rawAbi : PyVal K) :
    Py (Option (List (PyVal K))) := do
  match rawAbi with
  | .str s => do
      match ← b.loads s with
      | .none => pure none
      | .list entries => pure (some entries)
      | _ => raise .ValidationError "Input should be a valid list"
  | v => raise .TypeError ("the JSON object must be str, bytes or "
      ++ "bytearray, not " ++ v.typeName)

/-- `raw_abi not in (…)`. -/
def isVerified (rawAbi : PyVal K) : Bool :=
  !unverifiedAbis.any fun s => rawAbi.pyEq (.str s)

/-- `get_contract_source`: the first entry of the explorer's answer, or
`RuntimeError` with what it said. -/
def getContractSource (b : BscScan K) (address : String) :
    Py (ContractSource K) := do
  let body ← (b.call address).read
  let status ← entryGet body "status" .none
  let result ← entryGet body "result" .none
  if !status.pyEq (.str "1") || !result.truthy then do
    let message ← entryGet body "message" .none
    let shown := if result.truthy then result else message
    raise .RuntimeError
      ("getsourcecode failed: " ++ shown.asText?.getD "None")
  else do
    let row ← result.first
    let rawAbi ← entryGet row "ABI" (.str "")
    let proxy ← entryGet row "Proxy" .none
    let abi ← if isVerified rawAbi then loadAbi b rawAbi else pure none
    let contractName ← optionalText row "ContractName"
    let compilerVersion ← optionalText row "CompilerVersion"
    let _implementation ← optionalText row "Implementation"
    let _sourceCode ← optionalText row "SourceCode"
    pure
      { verified := isVerified rawAbi
        contractName := contractName
        compilerVersion := compilerVersion
        proxy := proxy.pyEq (.str "1")
        abi := abi }

variable [FloorRing K]

/-- The checks of a target: its simulated trade, its source if it is fetched,
and the run of all checks on these. -/
def gather (f : Fork) (r : Trade) (b : BscScan K) (target : String)
    (fetchSource : Bool) : Py (List (Check K)) := do
  let sim ← simulateTrade f r target 1 "1"
  let source :=
    if fetchSource then (getContractSource b target).toOption else none
  pure (runChecks f target sim source)

end BscSentry

end Proofstand
