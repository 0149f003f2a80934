/-
The database between those who write it: `run_hire`, for any number of
hires of any agents, and the clients of `orchestrator/anchor.py`.

Hires write `agents`, `runs` and `receipts` and read nothing that an
anchoring client writes, so a hire is one step, the commit of its second
session; what else `Orchestrator.Hires` lets happen between its phases
does not touch the tables. An anchoring client's steps are those of
`Anchor.System` on the columns it uses: they see a hire's INSERT as
theirs (`view_step`), and their UPDATEs set `batch_id` and `anchored_tx`
of the rows in place.

# Why the columns go through

A hire writes a leaf and leaves `batch_id` and `anchored_tx` null; a
client reads leaves, ids and moments and writes those two columns. So the
projection `State.view` keeps five columns, and `State.putBack` sets those
two in the rows, by position, after a client's step.

The clients' system is taken over as it stands, with its chain and its
locks, but for its INSERT, which is a hire's here; what is proved of it
carries over by `Orchestrator.Proofs.Platform`.
-/
import Proofstand.Orchestrator.Persist
import Proofstand.Anchor.System

namespace Proofstand.Platform

open Anchor (Uuid ClientId Keccak Digest)
open Session Persist Hex

variable {K : Type}

-- ================================================================ columns

/-- A digest of one digit. -/
def effs : Digest := .ofDigit (Fin.last 15)

/-- The `merkle_leaf` column as a digest; every hire writes one. -/
def digest (text : String) : Digest :=
  if h : text.toList.length = 64
      ∧ ∀ c ∈ text.toList, ∃ d, c = lowerDigit d then
    ⟨text, h.1, h.2⟩
  else effs

/-- The columns of a receipt that an anchoring client uses. -/
def column (r : ReceiptRow K) : Anchor.Receipt where
  id := r.id
  createdAt := r.createdAt
  merkleLeaf := digest r.merkleLeaf
  batchId := r.batchId
  anchoredTx := r.anchoredTx

/-- The row with the columns an anchoring client sets. -/
def setColumns (r : ReceiptRow K) (q : Anchor.Receipt) : ReceiptRow K :=
  { r with batchId := q.batchId, anchoredTx := q.anchoredTx }

-- ================================================================== state

/-- The tables the harness writes and those columns' clients, at work on one
chain. -/
structure State (K : Type) where
  db : Db K
  locks : Uuid → Option ClientId
  clients : ClientId → Anchor.Pc
  chain : Anchor.Chain
  drawn : List Uuid
  commits : Nat
  returned : List (Uuid × Int)

/-- Empty tables, and nobody at work. -/
def init : State K :=
  ⟨⟨[], [], []⟩, fun _ => none, fun _ => .idle, Anchor.Chain.empty, [], 0,
    []⟩

/-- What the anchoring clients see. -/
def State.view (s : State K) : Anchor.State where
  table := s.db.receipts.map column
  locks := s.locks
  clients := s.clients
  chain := s.chain
  drawn := s.drawn
  commits := s.commits
  returned := s.returned

/-- The state after a step of theirs. -/
def State.putBack (s : State K) (t : Anchor.State) : State K where
  db := { s.db with
    receipts := List.zipWith setColumns s.db.receipts t.table }
  locks := t.locks
  clients := t.clients
  chain := t.chain
  drawn := t.drawn
  commits := t.commits
  returned := t.returned

-- ================================================================== steps

/-- The hire does what `run_hire` does for some agent, whatever that and
the server do. -/
def IsHire [Field K] [LinearOrder K] (sha : PyVal K → String)
    (hire : Db K → Outcome Exc (Db K) (Hired K)) : Prop :=
  ∃ (S D P : Type) (_ : DecidableEq P) (baseline : PyVal K → Py (Result K))
    (agent : LiveAgent K S D P) (tier : Nat) (raw : Dict K)
    (signer : Option String) (persisted : Bool) (sv : Server K),
    hire = runHire sha baseline agent tier raw signer persisted sv

/-- A hire, or a step of a client or of the chain. -/
inductive Action
  | hire (i : Nat)
  | anchor (a : Anchor.Action)

/-- An INSERT is a hire's. -/
def isInsert : Anchor.Action → Bool
  | .insert _ _ _ => true
  | _ => false

/-- What each does: a hire runs to its end, an anchoring step on the columns
of its own. -/
def step (H : Keccak) (hires : Nat → Db K → Outcome Exc (Db K) (Hired K))
    (s : State K) : Action → Option (State K)
  | .hire i => some { s with db := (hires i s.db).2 }
  | .anchor a =>
      if isInsert a then none else (Anchor.step H s.view a).map s.putBack

end Proofstand.Platform
