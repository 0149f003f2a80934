/-
The Merkle functions of `orchestrator/anchor.py`: the root over a
batch's leaves, the proof for one index, and the fold that checks it.

# Node formats

The three functions read leaves, write nodes and hash pairs, and do
nothing else with either. They are stated over a `NodeFormat` that
names those three operations; the format of record is `byteNodes`, hex
strings and byte strings under `eth_utils.keccak`. `abstractNodes` is
the same code over a node type with a pairing of its own: collision
freedom of 32-byte hashes is false by counting, so the statements that
need it are made there.

# Loops

`while len(level) > 1` halves its level, so the level's length is
enough fuel; `rootLoop_eq_levels` (Proofs/Merkle.lean) shows the loop
ends at the one-entry level and the fuel is never what stops it.
-/
import Proofstand.Python

namespace Proofstand.Anchor

open Hex

-- ======================================================== node formats

/-- What the Merkle functions do with leaves and nodes. -/
structure NodeFormat (S N : Type) where
  /-- `_leaf_bytes`: a leaf or proof entry as a node. -/
  leafBytes : S → Py N
  /-- `"0x" + node.hex()`. -/
  hex : N → S
  /-- `keccak(a + b)`. -/
  keccak : N → N → N
  /-- `"0x" + "00" * 32`. -/
  zeroRoot : S

/-- `eth_utils.keccak`: some function to 32 bytes. -/
structure Keccak where
  digest : Bytes → Bytes
  digest_length : ∀ bs, (digest bs).length = 32

/-- `_leaf_bytes`. -/
def leafBytes (leafHex : String) : Py Bytes :=
  fromhex (removePrefix ['0', 'x'] leafHex.toList)

/-- The format of record: hex strings over byte strings. -/
def byteNodes (K : Keccak) : NodeFormat String Bytes where
  leafBytes := leafBytes
  hex := hex0x
  keccak a b := K.digest (a ++ b)
  zeroRoot := hex0x (List.replicate 32 0)

/-- The same functions on nodes that are their own text. -/
def abstractNodes {N : Type} (pair : N → N → N) (zero : N) :
    NodeFormat N N where
  leafBytes := .ok
  hex := id
  keccak := pair
  zeroRoot := zero

-- ================================================= the root and the proof

section

variable {S N : Type} [LinearOrder N] (F : NodeFormat S N)

/-- `keccak(a + b if a <= b else b + a)`. -/
def sortedPair (a b : N) : N :=
  if a ≤ b then F.keccak a b else F.keccak b a

/-- One pass of the inner loop: neighbours hashed, an odd last node
hashed with itself. -/
def nextLevel : List N → List N
  | [] => []
  | [a] => [sortedPair F a a]
  | a :: b :: rest => sortedPair F a b :: nextLevel rest

/-- `while len(level) > 1`, in `merkle_root`. -/
def rootLoop : Nat → List N → List N
  | 0, level => level
  | fuel + 1, level =>
      if 1 < level.length then rootLoop fuel (nextLevel F level) else level

/-- `level[i]`, for an index that is not negative. -/
def item {α : Type} (level : List α) (i : Nat) : Py α :=
  match level[i]? with
  | some a => .ok a
  | none => raise .IndexError "list index out of range"

/-- `merkle_root`. -/
def merkleRoot (leaves : List S) : Py S :=
  if leaves.isEmpty then .ok F.zeroRoot
  else do
    let level ← leaves.mapM F.leafBytes
    let node ← item (rootLoop F level.length level) 0
    pure (F.hex node)

/-- The node a proof step appends: an odd tail is its own sibling. -/
def pickSibling (level : List N) (idx : Nat) : Py N :=
  if idx = level.length - 1 ∧ level.length % 2 = 1 then item level idx
  else item level (idx ^^^ 1)

/-- `while len(level) > 1`, in `merkle_proof`. -/
def proofLoop : Nat → List N → Nat → Py (List S)
  | 0, _, _ => .ok []
  | fuel + 1, level, idx =>
      if 1 < level.length then do
        let sib ← pickSibling level idx
        let proof ← proofLoop fuel (nextLevel F level) (idx / 2)
        pure (F.hex sib :: proof)
      else .ok []

/-- `merkle_proof`. -/
def merkleProof (leaves : List S) (index : Nat) : Py (List S) := do
  let level ← leaves.mapM F.leafBytes
  proofLoop F level.length level index

/-- One step of the fold in `verify_proof`. -/
def foldStep (node : N) (p : S) : Py N := do
  let sib ← F.leafBytes p
  pure (if node ≤ sib then F.keccak node sib else F.keccak sib node)

/-- `verify_proof`. -/
def verifyProof [DecidableEq S] (leaf : S) (proof : List S) (root : S) :
    Py Bool := do
  let node ← F.leafBytes leaf
  let node ← proof.foldlM (foldStep F) node
  pure (F.hex node == root)

end

-- ============================================================== digests

/-- 32 bytes in hex: 64 digits of either case, with or without `0x`. -/
def IsHex32 (s : String) : Prop :=
  ∃ cs, (s.toList = cs ∨ s.toList = '0' :: 'x' :: cs)
    ∧ cs.length = 64 ∧ ∀ c ∈ cs, (hexVal c).isSome

/-- The same in lower case. -/
def IsLowerHex32 (s : String) : Prop :=
  ∃ cs, (s.toList = cs ∨ s.toList = '0' :: 'x' :: cs)
    ∧ cs.length = 64 ∧ ∀ c ∈ cs, ∃ d, c = lowerDigit d

/-- A `hashlib.sha256(…).hexdigest()`: 64 lower-case digits. -/
structure Digest where
  hex : String
  length_eq : hex.toList.length = 64
  lower : ∀ c ∈ hex.toList, ∃ d, c = lowerDigit d

-- ================================================= closed examples' data

/-- Every other byte, for closed examples. -/
def Keccak.everyOther : Keccak where
  digest bs := (List.range 32).map fun i => bs.getD (2 * i) 0
  digest_length _ := by rw [List.length_map, List.length_range]

/-- One digit, 64 times. -/
def Digest.ofDigit (d : Fin 16) : Digest where
  hex := String.ofList (List.replicate 64 (lowerDigit d))
  length_eq := by rw [String.toList_ofList, List.length_replicate]
  lower := by
    rw [String.toList_ofList]
    exact fun c hc => ⟨d, List.eq_of_mem_replicate hc⟩

end Proofstand.Anchor
