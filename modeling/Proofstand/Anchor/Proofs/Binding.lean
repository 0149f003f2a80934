/-
What an anchored root binds: which values a proof against it can pass
off as a receipt leaf, and how far it determines the batch.

Both statements treat the pair hash as collision-free, which no hash to
32 bytes is, so they live on `abstractNodes` with an injective pairing.
Leaves and inner nodes share one format and the verifier does not know
the depth, so an accepted climb of the wrong length shows a node of
another level: `verifyProof_binding` says exactly which. And an odd
tail is paired with itself, so the root sees the leaves of a batch as a
set with some of its members doubled: `merkleRoot_binding` recovers the
set always, the multiset when one batch repeats no leaf.

# The climb

`verify_proof` folds from the leaf and knows no depth, so an accepted
proof is a climb that ends on the top level and nothing more
(`climb_mem_top`). A climb shorter than the height began on an inner
level, and what it shows is a node there; a longer one shows nothing of
the tree. The text gives the statement by the three lengths.

# Two batches

With an injective pairing the levels of two trees with one top have the
same members, level by level down to the leaves. Doubling is what the
levels can not see: a pair of one node with itself is the same whether it
was a tail or a repeated leaf. Where no tail is doubled, in batches of a
power of two, the multisets agree as well; and where one batch repeats no
leaf, its members are counted by the size.
-/
import Proofstand.Anchor.Proofs.Merkle

namespace Proofstand.Anchor

open PairTree

-- ============================================== proofs against a root

/-- Whatever the hash, a root is accepted as its own leaf: the empty
proof leaves it as it is. -/
theorem verifyProof_root_self (K : Keccak) {leaves : List String}
    {level : List Hex.Bytes} (hne : leaves ≠ [])
    (hlevel : leaves.mapM leafBytes = .ok level) :
    ∃ root, merkleRoot (byteNodes K) leaves = .ok root
      ∧ verifyProof (byteNodes K) root [] root = .ok true := by
  obtain ⟨top, htop⟩ := exists_top (byteNodes K) hne hlevel
  refine ⟨_, merkleRoot_eq (byteNodes K) hne hlevel htop, ?_⟩
  have hnil : ([] : List String).mapM (byteNodes K).leafBytes = .ok [] := rfl
  rw [verifyProof_eq (byteNodes K) _ (byteNodes_reads K top) hnil]
  simp

section

variable {N : Type} [LinearOrder N] (pair : N → N → N) (zero : N)

omit [LinearOrder N] in
theorem abstractNodes_mapM (leaves : List N) :
    leaves.mapM (abstractNodes pair zero).leafBytes = .ok leaves := by
  have h := Fallible.mapM_map_eq_ok
    (f := (abstractNodes pair zero).leafBytes) (g := id) (fun _ => rfl) leaves
  rwa [List.map_id] at h

/-- The root, read as the only entry of the top level. -/
theorem abstractNodes_root {leaves : List N} {root : N} (hne : leaves ≠ [])
    (hroot : merkleRoot (abstractNodes pair zero) leaves = .ok root) :
    levels (sortedPair (abstractNodes pair zero)) leaves
      (Nat.clog 2 leaves.length) = [root] := by
  have hlevel := abstractNodes_mapM pair zero leaves
  obtain ⟨top, htop⟩ := exists_top (abstractNodes pair zero) hne hlevel
  rw [merkleRoot_eq (abstractNodes pair zero) hne hlevel htop] at hroot
  have htr : top = root := by
    injection hroot
  rw [htop, htr]

/-- An accepted proof, read as a climb that ends on the top level. -/
theorem climb_mem_top {leaves : List N} {leaf root : N} {proof : List N}
    (hne : leaves ≠ [])
    (hroot : merkleRoot (abstractNodes pair zero) leaves = .ok root)
    (hacc : verifyProof (abstractNodes pair zero) leaf proof root = .ok true) :
    climb (sortedPair (abstractNodes pair zero)) leaf proof
      ∈ levels (sortedPair (abstractNodes pair zero)) leaves
          (Nat.clog 2 leaves.length) := by
  rw [abstractNodes_root pair zero hne hroot]
  rw [verifyProof_eq (abstractNodes pair zero) root rfl
    (abstractNodes_mapM pair zero proof)] at hacc
  have hcl : (climb (sortedPair (abstractNodes pair zero)) leaf proof == root)
      = true := by
    injection hacc
  exact List.mem_singleton.mpr (beq_iff_eq.mp hcl)

/-- What an accepted proof shows, by its length against the tree's
height. Of the height: a leaf of the batch. Shorter: the tree's node
that many levels below the root. Longer: a value that its first entries
fold into a leaf. -/
theorem verifyProof_binding (hinj : Function.Injective2 pair)
    {leaves : List N} {leaf root : N} {proof : List N} (hne : leaves ≠ [])
    (hroot : merkleRoot (abstractNodes pair zero) leaves = .ok root)
    (hacc : verifyProof (abstractNodes pair zero) leaf proof root = .ok true) :
    (proof.length = Nat.clog 2 leaves.length → leaf ∈ leaves)
      ∧ (proof.length ≤ Nat.clog 2 leaves.length →
          leaf ∈ levels (sortedPair (abstractNodes pair zero)) leaves
            (Nat.clog 2 leaves.length - proof.length))
      ∧ (Nat.clog 2 leaves.length ≤ proof.length →
          climb (sortedPair (abstractNodes pair zero)) leaf
            (proof.take (proof.length - Nat.clog 2 leaves.length))
              ∈ leaves) := by
  have hpair := sortedPair_pairInjective (abstractNodes pair zero) hinj
  have hclimb := climb_mem_levels _ hpair
    (climb_mem_top pair zero hne hroot hacc)
  refine ⟨fun hlen => ?_, hclimb.1, hclimb.2⟩
  have h := hclimb.1 (le_of_eq hlen)
  rw [hlen, Nat.sub_self] at h
  exact h

/-- A batch of two, its own root passed off as a receipt: nothing in the
proof or the root says it is not a leaf. -/
theorem verifyProof_accepts_root :
    Function.Injective2 Nat.pair
      ∧ merkleRoot (abstractNodes Nat.pair 0) [1, 2] = .ok (Nat.pair 1 2)
      ∧ verifyProof (abstractNodes Nat.pair 0) (Nat.pair 1 2) []
          (Nat.pair 1 2) = .ok true
      ∧ Nat.pair 1 2 ∉ [1, 2] := by
  refine ⟨fun a b c d h => Nat.pair_eq_pair.mp h, rfl, rfl, by decide⟩

/-- The three-leaf batch and the proof of its odd tail. -/
theorem verifyProof_binding_tail :
    verifyProof (abstractNodes Nat.pair 0) 3 [3, Nat.pair 1 2]
        (Nat.pair (Nat.pair 1 2) (Nat.pair 3 3)) = .ok true
      ∧ 3 ∈ [1, 2, 3] := by
  have hroot : merkleRoot (abstractNodes Nat.pair 0) [1, 2, 3]
      = .ok (Nat.pair (Nat.pair 1 2) (Nat.pair 3 3)) := rfl
  have hacc : verifyProof (abstractNodes Nat.pair 0) 3 [3, Nat.pair 1 2]
      (Nat.pair (Nat.pair 1 2) (Nat.pair 3 3)) = .ok true := rfl
  refine ⟨hacc, ?_⟩
  exact (verifyProof_binding Nat.pair 0
    (fun a b c d h => Nat.pair_eq_pair.mp h) (by decide) hroot hacc).1 rfl

-- ============================================ the batch behind a root

/-- Two batches of one size and one root have the same leaves, and the
same multiset of them where no tail is doubled (a power of two) or one
of the two repeats no leaf. -/
theorem merkleRoot_binding (hinj : Function.Injective2 pair)
    {leaves leaves' : List N} {root : N} (hne : leaves ≠ [])
    (hlen : leaves.length = leaves'.length)
    (hroot : merkleRoot (abstractNodes pair zero) leaves = .ok root)
    (hroot' : merkleRoot (abstractNodes pair zero) leaves' = .ok root) :
    (∀ x, x ∈ leaves ↔ x ∈ leaves')
      ∧ (leaves.Nodup ∨ leaves'.Nodup ∨ (∃ k, leaves.length = 2 ^ k) →
          leaves.Perm leaves') := by
  have hpair := sortedPair_pairInjective (abstractNodes pair zero) hinj
  have hne' : leaves' ≠ [] := by
    intro h
    rw [h] at hlen
    exact hne (List.length_eq_zero_iff.mp hlen)
  have htop := abstractNodes_root pair zero hne hroot
  have htop' := abstractNodes_root pair zero hne' hroot'
  rw [← hlen] at htop'
  have hmem : ∀ x, x ∈ leaves ↔ x ∈ leaves' :=
    mem_iff_of_levels _ hpair (k := Nat.clog 2 leaves.length)
      (by rw [htop, htop']; exact fun _ => Iff.rfl)
  refine ⟨hmem, ?_⟩
  intro h
  rcases h with hnd | hnd | ⟨k, hk⟩
  · have hsub := hnd.subperm fun x hx => (hmem x).1 hx
    exact hsub.perm_of_length_le (le_of_eq hlen.symm)
  · have hsub := hnd.subperm fun x hx => (hmem x).2 hx
    exact (hsub.perm_of_length_le (le_of_eq hlen)).symm
  · rw [hk, Nat.clog_pow 2 k (by decide)] at htop htop'
    refine perm_of_levels _ hpair (k := k) (n := 1) ?_ ?_ ?_
    · rw [mul_one, hk]
    · rw [mul_one, ← hlen, hk]
    · rw [htop, htop']

/-- Two batches of three receipts, one root, and a different leaf
doubled: the self-paired tail cannot be told from a real pair. -/
theorem merkleRoot_same_for_doubled :
    Function.Injective2 Nat.pair
      ∧ merkleRoot (abstractNodes Nat.pair 0) [1, 1, 2]
        = merkleRoot (abstractNodes Nat.pair 0) [2, 2, 1]
      ∧ merkleRoot (abstractNodes Nat.pair 0) [1, 1, 2]
        = .ok (Nat.pair (Nat.pair 1 1) (Nat.pair 2 2))
      ∧ ¬ [1, 1, 2].Perm [2, 2, 1] :=
  ⟨fun a b c d h => Nat.pair_eq_pair.mp h, rfl, rfl, by decide⟩

/-- A batch of three and its first two leaves swapped. -/
theorem merkleRoot_binding_swapped :
    merkleRoot (abstractNodes Nat.pair 0) [1, 2, 3]
        = merkleRoot (abstractNodes Nat.pair 0) [2, 1, 3]
      ∧ [1, 2, 3].Perm [2, 1, 3] := by
  have hroot : merkleRoot (abstractNodes Nat.pair 0) [1, 2, 3]
      = .ok (Nat.pair (Nat.pair 1 2) (Nat.pair 3 3)) := rfl
  have hroot' : merkleRoot (abstractNodes Nat.pair 0) [2, 1, 3]
      = .ok (Nat.pair (Nat.pair 1 2) (Nat.pair 3 3)) := rfl
  refine ⟨hroot.trans hroot'.symm, ?_⟩
  have hboth := merkleRoot_binding Nat.pair 0
    (fun a b c d h => Nat.pair_eq_pair.mp h) (by decide)
    (show [1, 2, 3].length = [2, 1, 3].length from rfl) hroot hroot'
  exact hboth.2 (Or.inl (by decide))

end

end Proofstand.Anchor
