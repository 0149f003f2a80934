/-
The anchoring pipeline as it runs: receipts arriving, any number of
clients inside `create_batch` and `submit_batch`, and a chain.

# Granularity

One action is one database statement, one RPC call or one block. Every
statement reads the committed rows of its moment. An `UPDATE` holds the
rows it changed until its session commits or is rolled back; another
`UPDATE` that would change one of them waits (it is not enabled), and
then evaluates its `WHERE` on what was committed meanwhile. A client may
raise at every point inside a call (`crash`): its session is rolled
back, what it sent to the chain is not.

# Ghost state

`drawn` holds the values `uuid4()` has returned, which do not repeat.
`commits` counts the assignments committed so far and `returned` the
batch ids returned, each with the `min_size` of its call. No action's
effect on the rest depends on the last two.
-/
import Proofstand.Anchor.Chain
import Proofstand.Lib.Transition

namespace Proofstand.Anchor

open Hex

/-- One process at work. -/
abbrev ClientId := Nat

-- =================================================== one client's calls

/-- The locals of `submit_batch` once the call is built. -/
structure Job where
  bid : Uuid
  sender : Address
  anchor : Address
  root : String
  rootBytes : Bytes
  count : Nat

/-- What `submit_batch` returns. -/
structure Submitted where
  batchId : Uuid
  root : String
  count : Nat
  tx : String
  block : Nat
  anchor : Address
  sender : Address

/-- Where a client stands: outside a call, with its last result, or
before the next statement of one. -/
inductive Pc
  | idle
  | create (minSize : Int)
  | counted (minSize : Int) (n : Nat) (seen : Nat)
  | updated (minSize : Int) (bid : Uuid)
  | created (bid : Uuid)
  | nothing
  | submit (bid : Uuid) (sender anchor : Address)
  | rooted (job : Job)
  | sent (job : Job) (hash : TxHash)
  | confirmed (job : Job) (hash : TxHash) (block : Nat)
  | submitted (out : Submitted)
  | raised (exc : Exc)

/-- Outside a call. -/
def Pc.resting : Pc → Bool
  | .idle | .created _ | .nothing | .submitted _ | .raised _ => true
  | _ => false

/-- `submit_batch` from the leaves to the built call. -/
def buildCall (K : Keccak) (bid : Uuid) (sender anchor : Address)
    (leaves : List String) : Py Job :=
  if leaves.isEmpty then
    raise .ValueError s!"batch {uuidStr bid} has no receipts"
  else do
    let root ← merkleRoot (byteNodes K) leaves
    let rootBytes ← fromhex (root.toList.drop 2)
    pure ⟨bid, sender, anchor, root, rootBytes, leaves.length⟩

/-- The transaction a job is built for. -/
def Job.call (job : Job) : AnchorCall :=
  ⟨job.sender, job.anchor, batchIdToUint job.bid, job.rootBytes, job.count⟩

/-- The hash as `anchored_tx` stores it. -/
def txText (hash : TxHash) : String := String.ofList (encodeHex hash)

-- =========================================================== the system

/-- The table and who locks which of its rows, the clients, and the chain. -/
structure State where
  table : Table
  locks : Uuid → Option ClientId
  clients : ClientId → Pc
  chain : Chain
  drawn : List Uuid
  commits : Nat
  returned : List (Uuid × Int)

/-- Nothing is there, and nobody is at work. -/
def init : State :=
  ⟨[], fun _ => none, fun _ => .idle, Chain.empty, [], 0, []⟩

/-- One step of a client, of `_persist`, or of the chain. -/
inductive Action
  | insert (id : Uuid) (createdAt : Int) (leaf : Digest)
  | callCreate (c : ClientId) (minSize : Int)
  | count (c : ClientId)
  | update (c : ClientId) (bid : Uuid)
  | commit (c : ClientId)
  | callSubmit (c : ClientId) (bid : Uuid) (sender anchor : Address)
  | readLeaves (c : ClientId)
  | send (c : ClientId) (hash : TxHash)
  | await (c : ClientId)
  | record (c : ClientId)
  | crash (c : ClientId) (exc : Exc)
  | deploy (addr deployer : Address)
  | setWriter (addr sender writer : Address) (allowed : Bool)
  | mine (hash : TxHash) (ts : Nat)

namespace State

/-- The clients after `c` has gone to `pc`. -/
def move (s : State) (c : ClientId) (pc : Pc) : ClientId → Pc :=
  fun c' => if c' = c then pc else s.clients c'

/-- The state after `c` has gone to `pc`. -/
def setPc (s : State) (c : ClientId) (pc : Pc) : State :=
  { s with clients := s.move c pc }

/-- `_persist`'s INSERT: `batch_id` and `anchored_tx` are NULL. -/
def insert (s : State) (id : Uuid) (createdAt : Int) (leaf : Digest) :
    Option State :=
  if s.table.any (·.id = id) then none
  else some
    { s with table :=
        s.table ++ [{ id := id, createdAt := createdAt, merkleLeaf := leaf }] }

/-- `create_batch` begins. -/
def callCreate (s : State) (c : ClientId) (minSize : Int) : Option State :=
  if (s.clients c).resting then some (s.setPc c (.create minSize)) else none

/-- The count, and the early return on it. -/
def count (s : State) (c : ClientId) : Option State :=
  match s.clients c with
  | .create minSize =>
      let n := countUnbatched s.table
      some (s.setPc c
        (if (n : Int) < minSize then .nothing else .counted minSize n s.commits))
  | _ => none

/-- The UPDATE: every committed row without a batch, once no other
session holds one of them. -/
def update (s : State) (c : ClientId) (bid : Uuid) : Option State :=
  match s.clients c with
  | .counted minSize _ _ =>
      if bid ∈ s.drawn then none
      else if (unbatched s.table).any (fun r => (s.locks r.id).isSome) then none
      else some
        { s with
          clients := s.move c (.updated minSize bid)
          drawn := bid :: s.drawn
          locks := fun id =>
            if (unbatched s.table).any (·.id = id) then some c
            else s.locks id }
  | _ => none

/-- The locks of `c` released. -/
def release (s : State) (c : ClientId) : Uuid → Option ClientId :=
  fun id => if s.locks id = some c then none else s.locks id

/-- The COMMIT of `create_batch`, and its return. -/
def commit (s : State) (c : ClientId) : Option State :=
  match s.clients c with
  | .updated minSize bid =>
      some
        { s with
          clients := s.move c (.created bid)
          table := assignBatch s.table (fun id => s.locks id = some c) bid
          locks := s.release c
          commits := s.commits + 1
          returned := (bid, minSize) :: s.returned }
  | _ => none

/-- `submit_batch` begins. -/
def callSubmit (s : State) (c : ClientId) (bid : Uuid)
    (sender anchor : Address) : Option State :=
  if (s.clients c).resting then some (s.setPc c (.submit bid sender anchor))
  else none

/-- It reads the batch's leaves and builds the transaction, or raises where
there are none. -/
def readLeaves (K : Keccak) (s : State) (c : ClientId) : Option State :=
  match s.clients c with
  | .submit bid sender anchor =>
      some (s.setPc c
        (match buildCall K bid sender anchor (batchLeaves s.table bid) with
        | .ok job => .rooted job
        | .error exc => .raised exc))
  | _ => none

/-- The transaction is sent; its hash was not seen before. -/
def send (s : State) (c : ClientId) (hash : TxHash) : Option State :=
  match s.clients c with
  | .rooted job =>
      (s.chain.send hash job.call).map fun chain =>
        { s with clients := s.move c (.sent job hash), chain := chain }
  | _ => none

/-- `wait_for_transaction_receipt` and the status check. -/
def await (s : State) (c : ClientId) : Option State :=
  match s.clients c with
  | .sent job hash =>
      (s.chain.receipt hash).map fun rcpt =>
        s.setPc c
          (if rcpt.status ≠ 1 then
            .raised ⟨.RuntimeError,
              s!"anchor() reverted (batch {uuidStr job.bid})"⟩
          else .confirmed job hash rcpt.blockNumber)
  | _ => none

/-- The UPDATE of `anchored_tx`, its COMMIT and the return. No other
statement writes rows that have a batch. -/
def record (s : State) (c : ClientId) : Option State :=
  match s.clients c with
  | .confirmed job hash block =>
      some
        { s with
          clients := s.move c (.submitted
            { batchId := job.bid, root := job.root, count := job.count
              tx := txText hash, block := block, anchor := job.anchor
              sender := job.sender })
          table := setAnchored s.table job.bid (txText hash) }
  | _ => none

/-- An exception leaves the call; an open session is rolled back. -/
def crash (s : State) (c : ClientId) (exc : Exc) : Option State :=
  if (s.clients c).resting then none
  else some
    { s with clients := s.move c (.raised exc), locks := s.release c }

end State

/-- What each action does, if it can be taken. -/
def step (K : Keccak) (s : State) : Action → Option State
  | .insert id createdAt leaf => s.insert id createdAt leaf
  | .callCreate c minSize => s.callCreate c minSize
  | .count c => s.count c
  | .update c bid => s.update c bid
  | .commit c => s.commit c
  | .callSubmit c bid sender anchor => s.callSubmit c bid sender anchor
  | .readLeaves c => s.readLeaves K c
  | .send c hash => s.send c hash
  | .await c => s.await c
  | .record c => s.record c
  | .crash c exc => s.crash c exc
  | .deploy addr deployer =>
      (s.chain.deploy addr deployer).map fun chain => { s with chain := chain }
  | .setWriter addr sender writer allowed =>
      (s.chain.setWriter addr sender writer allowed).map fun chain =>
        { s with chain := chain }
  | .mine hash ts =>
      (s.chain.mine hash ts).map fun chain => { s with chain := chain }

end Proofstand.Anchor
