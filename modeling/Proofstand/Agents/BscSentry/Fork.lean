/-
`bsc_sentry/fork.py`: what a simulated trade comes back with, and the
reads the other checks make on the same fork.

A `Fork` holds what every such read returns; the code calls it through
web3, whose failures are messages, and through eth_utils for the
checksummed form of an address.

The result of a trade has `None` where a stage was not reached. Addresses
are texts, as the code passes them; what eth_utils makes of one is a
parameter, with the failure it raises on a text that is none.
-/
import Proofstand.Agents.Manifest
import Proofstand.Data.Sources
import Proofstand.Lib.Hex

namespace Proofstand

namespace BscSentry

open Hex

/-- `None`, or the value. -/
def optVal {K α : Type} (f : α → PyVal K) : Option α → PyVal K
  | none => .none
  | some a => f a

/-- `ForkSimResult`: what the simulated trade found out. -/
structure ForkSimResult (K : Type) where
  target : String
  pairFound : Bool
  buyable : Option Bool := none
  sellable : Option Bool := none
  buyTaxPct : Option K := none
  sellTaxPct : Option K := none
  boughtRaw : Int := 0
  soldForWbnbRaw : Int := 0
  gasBuy : Option Int := none
  gasSell : Option Int := none
  buyRevert : Option String := none
  sellRevert : Option String := none
  forkBlock : Option Int := none
  notes : List String := []

/-- `evidence()`: the same, as what a check goes by. -/
def ForkSimResult.evidence {K : Type} (sim : ForkSimResult K) : Dict K :=
  [("fork_block", optVal .int sim.forkBlock),
   ("pair_found", .bool sim.pairFound),
   ("buyable", optVal .bool sim.buyable),
   ("sellable", optVal .bool sim.sellable),
   ("buy_tax_pct", optVal (fun x => .float (.fin x)) sim.buyTaxPct),
   ("sell_tax_pct", optVal (fun x => .float (.fin x)) sim.sellTaxPct),
   ("bought_raw", .str (toString sim.boughtRaw)),
   ("sold_for_wbnb_raw", .str (toString sim.soldForWbnbRaw)),
   ("gas_buy", optVal .int sim.gasBuy),
   ("gas_sell", optVal .int sim.gasSell),
   ("buy_revert", optVal .str sim.buyRevert),
   ("sell_revert", optVal .str sim.sellRevert),
   ("notes", .list (sim.notes.map .str))]

/-- What the checks ask a fork, and what it answers. -/
structure Fork where
  /-- `to_checksum_address(address)` -/
  toChecksumAddress : String → Py String
  /-- `owner()` or `getOwner()` of a contract -/
  ownerCall : String → String → Live String
  /-- `w3.eth.get_code(address, block)`, at the latest block for none -/
  getCode : String → Option Int → Live Bytes
  /-- `w3.eth.get_storage_at(address, slot)` -/
  getStorageAt : String → String → Live Bytes
  /-- `w3.eth.block_number` -/
  blockNumber : Live Int
  /-- `getPair(a, b)` of the PancakeSwap v2 factory -/
  getPair : String → String → Live String
  /-- `totalSupply()` of a token -/
  totalSupply : String → Live Nat
  /-- `balanceOf(account)` of a token -/
  balanceOf : String → String → Live Nat

end BscSentry

end Proofstand
