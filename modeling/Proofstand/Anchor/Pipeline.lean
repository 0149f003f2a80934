/-
`scripts/anchor_receipts.py`: `create_batch`, then `submit_batch` of the
batch it returned, by any number of clients over any number of runs.

The script's runs are the system's runs in which `submit_batch` is only
called by the client whose `create_batch` just returned that id. A run
stops wherever its client raises, and also where it simply ends between
the two calls (no connection, no build artifact): then the client stays
at `created` until it starts its next run.

# Why flights

The script leaves nothing behind that says how far it got: a batch is in
the table, its transaction on the chain or not, and `anchored_tx` is set
or not. `Pc.flight` is read off where the client stands, and is what the
proofs about recovery follow: the batch a run has created and not yet
recorded.
-/
import Proofstand.Anchor.System

namespace Proofstand.Anchor

open Transition

-- ============================================================ the script

/-- The one thing the script does not do: submit another batch than the
one it just created. -/
def pipelined (s : State) : Action → Bool
  | .callSubmit c bid _ _ =>
      match s.clients c with
      | .created b => b = bid
      | _ => false
  | _ => true

/-- A step of clients that run `main()`, and of everyone else. -/
def pipelineStep (K : Keccak) (s : State) (a : Action) : Option State :=
  if pipelined s a then step K s a else none

/-- What one run submits: with `ANCHOR_PRIVATE_KEY` and
`RECEIPT_ANCHOR_ADDRESS` set to that contract, otherwise to a contract it
deploys. -/
structure Target where
  sender : Address
  anchor : Address
  keySet : Bool

/-- Without a contract to go to, the run deploys one. -/
def Target.setup (tgt : Target) : List Action :=
  if tgt.keySet then [] else [.deploy tgt.anchor tgt.sender]

/-- A run in which nothing fails and nothing else happens. -/
def failureFree (K : Keccak) (s : State) (c : ClientId) (minSize : Int)
    (bid : Uuid) (tgt : Target) (hash : TxHash) (ts : Nat) : Option State :=
  (run (pipelineStep K) s [.callCreate c minSize, .count c]).bind fun s₁ =>
    match s₁.clients c with
    | .nothing => some s₁
    | _ =>
        run (pipelineStep K) s₁
          ([.update c bid, .commit c] ++ tgt.setup
            ++ [.callSubmit c bid tgt.sender tgt.anchor, .readLeaves c,
              .send c hash, .mine hash ts, .await c, .record c])

/-- `anchored_tx` is non-NULL for every receipt. -/
def AllAnchored (t : Table) : Prop := ∀ r ∈ t, r.anchoredTx ≠ none

-- ================================================================ flights

/-- The batch a run has created and not yet recorded as anchored. -/
def Pc.flight : Pc → Option Uuid
  | .created bid | .submit bid _ _ => some bid
  | .rooted job | .sent job _ | .confirmed job _ _ => some job.bid
  | _ => none

/-- The batch a client has in flight. -/
def State.flight (s : State) (c : ClientId) : Option Uuid :=
  (s.clients c).flight

/-- The step does not end a run whose batch has receipts and is in
flight: by an exception, by a reverted `anchor()`, or by the client's
next run. -/
def finishes (s : State) : Action → Bool
  | .callCreate c _ | .crash c _ =>
      (s.flight c).all fun b => (batchRows s.table b).isEmpty
  | .await c =>
      match s.clients c with
      | .sent job hash =>
          (s.chain.receipt hash).all (·.status = 1)
            || (batchRows s.table job.bid).isEmpty
      | _ => true
  | _ => true

end Proofstand.Anchor
