/-
`ReceiptAnchor.sol`, and as much of a chain as `submit_batch` sees of
one: deployed contracts, transactions on their way, receipts and logs.

A transaction that was sent may be mined later or never, whatever its
sender does meanwhile. One that calls an address without code succeeds
and logs nothing, as on the EVM.

# What the sender sees

`Chain` keeps every transaction sent, every one mined with its receipt,
and the logs in order. A transaction can be mined only once, at a moment
nobody chooses, and the storage it meets is that of the moment. Gas,
nonces and reorganisations are left out: a transaction that was mined
stays mined.
-/
import Proofstand.Anchor.Store

namespace Proofstand.Anchor

open Hex

-- ========================================================= the contract

/-- An address, as its number. -/
abbrev Address := Nat
/-- A transaction's hash. -/
abbrev TxHash := Bytes

/-- The storage of `ReceiptAnchor`. -/
structure ReceiptAnchor where
  owner : Address
  isWriter : Address → Bool

/-- What it logs. -/
inductive Event
  | writerSet (writer : Address) (allowed : Bool)
  | batchAnchored (batchId : Nat) (root : Bytes) (count : Nat) (ts : Nat)
  deriving DecidableEq

/-- Its custom errors. -/
inductive Revert
  | NotOwner | NotWriter
  deriving DecidableEq, Repr

namespace ReceiptAnchor

/-- `constructor()`. -/
def deployed (sender : Address) : ReceiptAnchor × Event :=
  (⟨sender, fun a => a = sender⟩, .writerSet sender true)

/-- `setWriter`, with its `onlyOwner`. -/
def setWriter (c : ReceiptAnchor) (sender writer : Address) (allowed : Bool) :
    Except Revert (ReceiptAnchor × Event) :=
  if sender ≠ c.owner then .error .NotOwner
  else .ok ({ c with isWriter := Function.update c.isWriter writer allowed },
    .writerSet writer allowed)

/-- `anchor`. -/
def anchor (c : ReceiptAnchor) (sender : Address) (batchId : Nat)
    (root : Bytes) (count ts : Nat) : Except Revert Event :=
  if c.isWriter sender then .ok (.batchAnchored batchId root count ts)
  else .error .NotWriter

end ReceiptAnchor

-- ============================================================ the chain

/-- A transaction that calls `anchor`. -/
structure AnchorCall where
  sender : Address
  target : Address
  batchId : Nat
  root : Bytes
  count : Nat

/-- What `wait_for_transaction_receipt` returns of a mined one. -/
structure TxReceipt where
  status : Nat
  blockNumber : Nat

/-- The contracts there are, what was sent and what was mined, with the logs
of all of it. -/
structure Chain where
  contracts : Address → Option ReceiptAnchor
  pending : List (TxHash × AnchorCall)
  mined : List (TxHash × TxReceipt)
  logs : List (Address × Event)
  height : Nat

namespace Chain

/-- A chain on which nothing has happened. -/
def empty : Chain := ⟨fun _ => none, [], [], [], 0⟩

/-- The hash is that of a transaction sent or mined. -/
def known (ch : Chain) (hash : TxHash) : Bool :=
  ch.pending.any (·.1 = hash) || ch.mined.any (·.1 = hash)

/-- `send_raw_transaction`, or `transact`: the hash is the transaction's
own. -/
def send (ch : Chain) (hash : TxHash) (call : AnchorCall) : Option Chain :=
  if ch.known hash then none
  else some { ch with pending := (hash, call) :: ch.pending }

/-- What executing the call does: its status and its logs. -/
def execute (ch : Chain) (call : AnchorCall) (ts : Nat) :
    Nat × List (Address × Event) :=
  match ch.contracts call.target with
  | none => (1, [])
  | some c =>
      match c.anchor call.sender call.batchId call.root call.count ts with
      | .ok event => (1, [(call.target, event)])
      | .error _ => (0, [])

/-- A block with one pending transaction in it. -/
def mine (ch : Chain) (hash : TxHash) (ts : Nat) : Option Chain :=
  match ch.pending.find? (·.1 = hash) with
  | none => none
  | some (_, call) =>
      let (status, logs) := ch.execute call ts
      some
        { ch with
          pending := ch.pending.filter (·.1 ≠ hash)
          mined := (hash, ⟨status, ch.height + 1⟩) :: ch.mined
          logs := logs ++ ch.logs
          height := ch.height + 1 }

/-- A deployment, mined at once, at an address without code. -/
def deploy (ch : Chain) (addr sender : Address) : Option Chain :=
  match ch.contracts addr with
  | some _ => none
  | none =>
      let (c, event) := ReceiptAnchor.deployed sender
      some
        { ch with
          contracts := Function.update ch.contracts addr (some c)
          logs := (addr, event) :: ch.logs
          height := ch.height + 1 }

/-- A call of `setWriter`, mined at once if it does not revert. -/
def setWriter (ch : Chain) (addr sender writer : Address) (allowed : Bool) :
    Option Chain :=
  match ch.contracts addr with
  | none => none
  | some c =>
      match c.setWriter sender writer allowed with
      | .error _ => none
      | .ok (c', event) =>
          some
            { ch with
              contracts := Function.update ch.contracts addr (some c')
              logs := (addr, event) :: ch.logs
              height := ch.height + 1 }

/-- `wait_for_transaction_receipt`, once there is one. -/
def receipt (ch : Chain) (hash : TxHash) : Option TxReceipt :=
  (ch.mined.find? (·.1 = hash)).map (·.2)

end Chain

end Proofstand.Anchor
