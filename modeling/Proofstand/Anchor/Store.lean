/-
The `receipts` table and the SQL statements `orchestrator/anchor.py`
runs on it, each a function of the committed rows it sees; and
`proof_for`, which only reads.

Only the columns the anchor code touches are kept. A timestamp is an
integer (microseconds), compared before the id in `ORDER BY created_at,
id`; a UUID compares as the 128-bit number its bytes spell.

# Rows as they are seen

Each function is one statement on one list of rows, so a call that makes
two statements takes two lists, of two moments. `proof_for` is one of
these: it selects the row, and then the leaves of the batch it found in
it, and between the two the table may have changed. The order is that of
the `ORDER BY`, and where two rows have one creation time the id decides.
-/
import Proofstand.Anchor.Merkle

namespace Proofstand.Anchor

open Hex

-- ================================================================ uuids

/-- A `uuid4()`, as its 128 bits. -/
abbrev Uuid := Fin (2 ^ 128)

instance uuid_neZero : NeZero (2 ^ 128) := ⟨by decide⟩

/-- `batch_id_to_uint`: the sixteen bytes, big-endian. -/
def batchIdToUint (b : Uuid) : Nat := b.val

/-- The sixteen bytes of a UUID. -/
def uuidBytes (b : Uuid) : Bytes :=
  (List.range 16).map fun i =>
    ⟨b.val / 256 ^ (15 - i) % 256, Nat.mod_lt _ (by decide)⟩

/-- `str(uuid)`: 8-4-4-4-12 lower-case digits. -/
def uuidStr (b : Uuid) : String :=
  let cs := encodeHex (uuidBytes b)
  String.ofList (cs.take 8 ++ '-' :: (cs.drop 8).take 4 ++ '-' ::
    (cs.drop 12).take 4 ++ '-' :: (cs.drop 16).take 4 ++ '-' :: cs.drop 20)

-- ============================================================ the table

/-- A row of `receipts`. `anchoredTx` is the transaction hash's text. -/
structure Receipt where
  id : Uuid
  createdAt : Int
  merkleLeaf : Digest
  batchId : Option Uuid := none
  anchoredTx : Option String := none

/-- The receipts table, in the order of the INSERTs. -/
abbrev Table := List Receipt

/-- `… FROM receipts WHERE batch_id IS NULL`. -/
def unbatched (t : Table) : Table := t.filter fun r => r.batchId.isNone

/-- `SELECT count(*) FROM receipts WHERE batch_id IS NULL`. -/
def countUnbatched (t : Table) : Nat := (unbatched t).length

/-- The rows of one batch, `WHERE batch_id = :b`. -/
def batchRows (t : Table) (b : Uuid) : Table :=
  t.filter fun r => r.batchId = some b

/-- `ORDER BY created_at, id`. -/
def orderLe (r r' : Receipt) : Prop :=
  r.createdAt < r'.createdAt ∨ (r.createdAt = r'.createdAt ∧ r.id ≤ r'.id)

instance : DecidableRel orderLe := fun r r' =>
  inferInstanceAs (Decidable
    (r.createdAt < r'.createdAt ∨ (r.createdAt = r'.createdAt ∧ r.id ≤ r'.id)))

/-- `batch_leaves`. -/
def batchLeaves (t : Table) (b : Uuid) : List String :=
  ((batchRows t b).insertionSort orderLe).map fun r => r.merkleLeaf.hex

/-- `UPDATE receipts SET batch_id = :b`, on the rows `sel` names. -/
def assignBatch (t : Table) (sel : Uuid → Bool) (b : Uuid) : Table :=
  t.map fun r => if sel r.id then { r with batchId := some b } else r

/-- `UPDATE receipts SET anchored_tx = :t WHERE batch_id = :b`. -/
def setAnchored (t : Table) (b : Uuid) (tx : String) : Table :=
  t.map fun r =>
    if r.batchId = some b then { r with anchoredTx := some tx } else r

/-- `SELECT … WHERE id = :id`, `.first()`. -/
def selectById (t : Table) (id : Uuid) : Option Receipt :=
  t.find? fun r => r.id = id

-- ============================================================ proof_for

/-- `proof_for`: two SELECTs, of the row and of its batch's leaves, each
with the rows committed when it runs. -/
def proofFor (K : Keccak) (t t' : Table) (id : Uuid) :
    Py (Option (List String) × Option String) :=
  match selectById t id with
  | none => .ok (none, none)
  | some row =>
      match row.batchId with
      | none => .ok (none, none)
      | some b =>
          let leaves := batchLeaves t' b
          match leaves.idxOf? row.merkleLeaf.hex with
          | none => .ok (none, none)
          | some idx => do
              let proof ← merkleProof (byteNodes K) leaves idx
              let root ← merkleRoot (byteNodes K) leaves
              pure (some proof, some root)

/-- What `get_receipt` adds to the row. -/
structure ReceiptDetail where
  merkleProof : Option (List String)
  anchorRoot : Option String
  verifiedHint : String

/-- `get_receipt`, past the row itself. -/
def getReceipt (K : Keccak) (t t' : Table) (id : Uuid) : Py ReceiptDetail := do
  let (proof, root) ← proofFor K t t' id
  pure
    { merkleProof := proof
      anchorRoot := root
      verifiedHint :=
        if root.any (· ≠ "") then
          "verify: keccak-fold the leaf with the proof and compare to "
            ++ "anchor_root, then check anchor_root == the BatchAnchored event "
            ++ "for batch_id on ReceiptAnchor"
        else "not yet anchored — batching runs every 10 min (T-062)" }

end Proofstand.Anchor
