/-
The browser's check against the server's, and the completeness of both.

On 32-byte hex the component's hand-written pieces are Python's: its
reader decodes the same bytes (`bytes_of_isHex32`), its writer spells
them the same way (`hex_eq`), and its `le` is the lexicographic order on
every pair of byte strings, not only on equal lengths (`le_eq_decide`).
With 32-byte operands the 64-byte buffer is the concatenation, so one
step of either fold is one step of the other (`foldStep_eq`), and the
verdicts agree (`merkleVerifier_agrees`).

# Cells and bytes

The two readers are compared on pairs of digits, where both take one byte
from two characters; the induction is that of `HexPairs`. The comparison
is proved on all byte strings, by induction over both: a shorter prefix is
the lesser in Python, and the component's loop comes to the same because
the first missing cell ends it.

# Completeness

`merkleProof_verifies` goes through the pair tree (`merkleProof_complete`)
for the server's check and through the agreement for the browser's. Of
the leaves it asks that each is 32 bytes in hex, and nothing of their
number or of each other.
-/
import Proofstand.Anchor.Browser
import Proofstand.Anchor.Proofs.Merkle

namespace Proofstand.Anchor.Browser

open Hex

-- ============================================== the writer and the order

/-- A byte in JavaScript is the two digits it is in Python. -/
theorem padStart_toString16 (x : Byte) :
    padStart 2 (toString16 x) = byteChars x := by
  unfold toString16
  split
  case isTrue h =>
      have hzero : x.val / 16 = 0 := Nat.div_eq_of_lt h
      simp only [padStart, List.length_singleton, byteChars, hzero]
      rfl
  case isFalse => rfl

/-- `hex` spells bytes as `"0x" + b.hex()` does. -/
theorem hex_eq (b : Bytes) : hex b = hex0x b := by
  unfold hex hex0x encodeHex
  simp only [padStart_toString16]

/-- `le` is Python's `<=` on byte strings. -/
theorem le_eq_decide (a b : Bytes) : le a b = decide (a ≤ b) := by
  induction a, b using le.induct with
  | case1 b =>
      have hnil : ([] : Bytes) ≤ b := by
        cases b with
        | nil => exact le_refl _
        | cons y b => exact le_of_lt (List.nil_lt_cons y b)
      rw [le, decide_eq_true hnil]
  | case2 x a =>
      have hlt : ([] : Bytes) < x :: a := List.nil_lt_cons x a
      rw [le, decide_eq_false (not_le_of_gt hlt)]
  | case3 x a y b hne =>
      have hiff : (x :: a ≤ y :: b) ↔ x < y := by
        rw [le_iff_lt_or_eq, List.cons_lt_cons_iff]
        constructor
        · intro h
          rcases h with (h | h) | h
          · exact h
          · exact absurd h.1 hne
          · exact absurd (List.cons.inj h).1 hne
        · exact fun h => Or.inl (Or.inl h)
      rw [le, if_pos hne]
      exact (decide_eq_decide.mpr hiff).symm
  | case4 x a y b heq ih =>
      obtain rfl : x = y := not_not.1 heq
      have hiff : (x :: a ≤ x :: b) ↔ a ≤ b := by
        rw [← not_lt, ← not_lt, List.cons_lt_cons_iff]
        simp
      rw [le, if_neg (by simp), ih]
      exact (decide_eq_decide.mpr hiff).symm

-- ============================================================ the reader

/-- Cell by cell, the typed array is the bytes of the digit pairs. -/
theorem cells_of_hexPairs {cs : List Char} {bs : Bytes} (h : HexPairs cs bs) :
    ((List.range (cs.length / 2)).map fun i =>
      toUint8 (parseInt16 ((cs.drop (2 * i)).take 2))) = bs := by
  induction h with
  | nil => rfl
  | @cons c d hi lo rest bs hc hd _ ih =>
      have hlen : (c :: d :: rest).length / 2 = rest.length / 2 + 1 := by
        simp only [List.length_cons]
        omega
      rw [hlen, List.range_succ_eq_map, List.map_cons, List.map_map]
      have hhead : toUint8 (parseInt16
          (((c :: d :: rest).drop (2 * 0)).take 2)) = byteOf hi lo :=
        toUint8_parseInt16 hc hd
      rw [hhead, ← ih]
      refine congrArg _ (List.map_congr_left fun i _ => ?_)
      have hdrop : (c :: d :: rest).drop (2 * (i + 1)) = rest.drop (2 * i) := by
        rw [show 2 * (i + 1) = 2 * i + 2 by omega]
        rfl
      show toUint8 (parseInt16 (((c :: d :: rest).drop (2 * (i + 1))).take 2))
        = _
      rw [hdrop]

/-- Both readers decode 32-byte hex to the same 32 bytes. -/
theorem bytes_of_isHex32 {s : String} (hs : IsHex32 s) :
    ∃ bs, leafBytes s = .ok bs ∧ bytes s = bs ∧ bs.length = 32 := by
  obtain ⟨cs, bs, hcs, hd, hbs, hlen⟩ := hexPairs_of_isHex32 hs
  refine ⟨bs, leafBytes_of_hexPairs hcs hd hbs, ?_, hlen⟩
  rw [bytes]
  rcases hcs with h | h
  · rw [h, isPrefixOf_0x_hexDigits hd]
    exact cells_of_hexPairs hbs
  · rw [h]
    exact cells_of_hexPairs hbs

-- ============================================================== the fold

/-- The 64-byte buffer of two 32-byte nodes is their concatenation. -/
theorem setAt_pair {x y : Bytes} (hx : x.length = 32) (hy : y.length = 32) :
    (do let cat ← setAt (List.replicate 64 0) x 0
        setAt cat y 32 : Py Bytes) = .ok (x ++ y) := by
  have hfst : setAt (List.replicate 64 0) x 0
      = .ok (x ++ List.replicate 32 0) := by
    rw [setAt, if_pos (by simp [hx])]
    simp [hx]
  have hsnd : setAt (x ++ List.replicate 32 0) y 32 = .ok (x ++ y) := by
    rw [setAt, if_pos (by simp [hx, hy])]
    rw [List.take_append_of_le_length (by omega),
      List.take_of_length_le (by omega), List.drop_eq_nil_of_le (by simp; omega),
      List.append_nil]
  rw [hfst]
  exact hsnd

/-- One step of either fold, at 32-byte operands. -/
theorem foldStep_eq (K : Keccak) {node : Bytes} {p : String}
    (hnode : node.length = 32) (hp : IsHex32 p) :
    foldStep K node p = Anchor.foldStep (byteNodes K) node p
      ∧ ∃ node', foldStep K node p = .ok node' ∧ node'.length = 32 := by
  obtain ⟨sib, hsib, hbytes, hlen⟩ := bytes_of_isHex32 hp
  have hpy : Anchor.foldStep (byteNodes K) node p
      = .ok (sortedPair (byteNodes K) node sib) := by
    rw [Anchor.foldStep]
    show (do let sib ← leafBytes p
             pure (if node ≤ sib then K.digest (node ++ sib)
               else K.digest (sib ++ node)) : Py Bytes) = _
    rw [hsib]
    rfl
  have hjs : foldStep K node p
      = .ok (sortedPair (byteNodes K) node sib) := by
    rw [foldStep, hbytes, le_eq_decide]
    unfold sortedPair
    by_cases hle : node ≤ sib
    · rw [decide_eq_true hle, if_pos rfl, if_pos hle]
      show (do let cat ← setAt (List.replicate 64 0) node 0
               let cat ← setAt cat sib 32
               pure (K.digest cat) : Py Bytes) = _
      rw [← bind_assoc, setAt_pair hnode hlen]
      rfl
    · rw [decide_eq_false hle, if_neg (by simp), if_neg hle]
      show (do let cat ← setAt (List.replicate 64 0) sib 0
               let cat ← setAt cat node 32
               pure (K.digest cat) : Py Bytes) = _
      rw [← bind_assoc, setAt_pair hlen hnode]
      rfl
  refine ⟨by rw [hjs, hpy], _, hjs, ?_⟩
  unfold sortedPair
  split
  · exact K.digest_length _
  · exact K.digest_length _

/-- Over a proof of 32-byte hashes the two folds go the same way, and both
return. -/
theorem foldlM_eq (K : Keccak) {proof : List String} {node : Bytes}
    (hnode : node.length = 32) (hproof : ∀ p ∈ proof, IsHex32 p) :
    proof.foldlM (foldStep K) node
        = proof.foldlM (Anchor.foldStep (byteNodes K)) node
      ∧ ∃ node', proof.foldlM (foldStep K) node = .ok node' := by
  induction proof generalizing node with
  | nil => exact ⟨rfl, node, rfl⟩
  | cons p proof ih =>
      obtain ⟨hstep, node', hok, hlen⟩ := foldStep_eq K hnode (hproof p (by simp))
      have hrest := ih hlen fun q hq => hproof q (by simp [hq])
      rw [List.foldlM_cons, List.foldlM_cons, ← hstep, hok]
      exact hrest

-- =========================================================== the verdicts

/-- Lower-case hex is left alone by `toLowerCase`. -/
theorem toLower_of_isLowerHex32 {s : String} (hs : IsLowerHex32 s) :
    String.ofList (s.toList.map Char.toLower) = s := by
  obtain ⟨cs, hcs, -, hd⟩ := hs
  have hdigits : ∀ d, (lowerDigit d).toLower = lowerDigit d := by decide
  have hlow : cs.map Char.toLower = cs := by
    refine (List.map_congr_left fun c hc => ?_).trans (List.map_id cs)
    obtain ⟨d, rfl⟩ := hd c hc
    exact hdigits d
  have hall : s.toList.map Char.toLower = s.toList := by
    rcases hcs with h | h
    · rw [h, hlow]
    · rw [h, List.map_cons, List.map_cons, hlow]
      rfl
  rw [hall]
  exact String.ofList_toList

theorem ne_empty_of_isLowerHex32 {s : String} (hs : IsLowerHex32 s) : s ≠ "" := by
  obtain ⟨cs, hcs, hlen, -⟩ := hs
  intro heq
  subst heq
  rcases hcs with h | h
  · rw [← h] at hlen
    simp at hlen
  · simp at h

/-- On 32-byte hex the component and `verify_proof` give one verdict. -/
theorem merkleVerifier_agrees (K : Keccak) {leaf root : String}
    {proof : List String} (hleaf : IsHex32 leaf)
    (hproof : ∀ p ∈ proof, IsHex32 p) (hroot : IsLowerHex32 root) :
    ∃ verdict, verifyProof (byteNodes K) leaf proof root = .ok verdict.ok
      ∧ merkleVerifier K leaf (some proof) (some root)
          = .ok (some verdict) := by
  obtain ⟨node, hread, hbytes, hlen⟩ := bytes_of_isHex32 hleaf
  obtain ⟨hfold, node', hok⟩ := foldlM_eq K hlen hproof
  refine ⟨⟨hex node', hex node' == root⟩, ?_, ?_⟩
  · rw [verifyProof]
    show (do let node ← leafBytes leaf
             let node ← proof.foldlM (Anchor.foldStep (byteNodes K)) node
             pure (hex0x node == root) : Py Bool) = _
    rw [hread]
    show (do let node ← proof.foldlM (Anchor.foldStep (byteNodes K)) node
             pure (hex0x node == root) : Py Bool) = _
    rw [← hfold, hok, hex_eq]
    rfl
  · rw [merkleVerifier, if_neg (ne_empty_of_isLowerHex32 hroot), hbytes, hok,
      toLower_of_isLowerHex32 hroot]
    rfl

theorem isLowerHex32_hex0x {bs : Bytes} (h : bs.length = 32) :
    IsLowerHex32 (hex0x bs) := by
  refine ⟨encodeHex bs, Or.inr String.toList_ofList, ?_, ?_⟩
  · rw [encodeHex_length, h]
  · exact fun c hc => mem_encodeHex hc

/-- Every leaf of every batch has a proof of the tree's height that both
checks accept, and on well-formed input the two checks are one. -/
theorem merkleProof_verifies (K : Keccak) :
    (∀ (leaves : List String) (i : Nat) (hi : i < leaves.length),
        (∀ leaf ∈ leaves, IsHex32 leaf) →
        ∃ root proof computed, merkleRoot (byteNodes K) leaves = .ok root
          ∧ merkleProof (byteNodes K) leaves i = .ok proof
          ∧ proof.length = Nat.clog 2 leaves.length
          ∧ verifyProof (byteNodes K) leaves[i] proof root = .ok true
          ∧ merkleVerifier K leaves[i] (some proof) (some root)
              = .ok (some ⟨computed, true⟩))
      ∧ ∀ (leaf root : String) (proof : List String), IsHex32 leaf →
          (∀ p ∈ proof, IsHex32 p) → IsLowerHex32 root →
          ∃ verdict, verifyProof (byteNodes K) leaf proof root = .ok verdict.ok
            ∧ merkleVerifier K leaf (some proof) (some root)
                = .ok (some verdict) := by
  refine ⟨?_, fun leaf root proof hl hp hr => merkleVerifier_agrees K hl hp hr⟩
  intro leaves i hi hall
  obtain ⟨level, hlevel, hlens⟩ := level_of_isHex32 hall
  obtain ⟨top, path, hroot, hproof, hplen, hverify, hprop⟩ :=
    merkleProof_complete (byteNodes K) (byteNodes_reads K) hlevel hi
  obtain ⟨htop, hpath⟩ :=
    hprop (fun n => n.length = 32) (fun a b => K.digest_length (a ++ b)) hlens
  have hpathHex : ∀ p ∈ path.map hex0x, IsHex32 p := by
    intro p hp
    obtain ⟨n, hn, rfl⟩ := List.mem_map.1 hp
    exact isHex32_of_isLowerHex32 (isLowerHex32_hex0x (hpath n hn))
  obtain ⟨verdict, hpy, hjs⟩ := merkleVerifier_agrees K
    (hall leaves[i] (List.getElem_mem hi)) hpathHex (isLowerHex32_hex0x htop)
  have hok : verdict.ok = true := by
    rw [show verifyProof (byteNodes K) leaves[i] (path.map hex0x) (hex0x top)
      = .ok true from hverify] at hpy
    injection hpy with hpy
    exact hpy.symm
  refine ⟨_, _, verdict.computed, hroot, hproof, ?_, hverify, ?_⟩
  · rw [List.length_map, hplen]
  · rw [← hok]
    exact hjs

/-- Three receipts and the odd tail's proof, checked both ways. -/
theorem merkleProof_verifies_tail :
    let K := Keccak.everyOther
    let leaf (d : Fin 16) := (Digest.ofDigit d).hex
    let leaves := [leaf 1, leaf 11, leaf 3]
    (∃ root proof computed, merkleRoot (byteNodes K) leaves = .ok root
        ∧ merkleProof (byteNodes K) leaves 2 = .ok proof ∧ proof.length = 2
        ∧ verifyProof (byteNodes K) (leaf 3) proof root = .ok true
        ∧ merkleVerifier K (leaf 3) (some proof) (some root)
            = .ok (some ⟨computed, true⟩))
      ∧ ∃ verdict,
          verifyProof (byteNodes K) (leaf 1) [leaf 3] (leaf 11)
              = .ok verdict.ok
            ∧ merkleVerifier K (leaf 1) (some [leaf 3]) (some (leaf 11))
                = .ok (some verdict) := by
  intro K leaf leaves
  have hleaf : ∀ d, IsHex32 (leaf d) := fun d =>
    isHex32_of_isLowerHex32 (Digest.ofDigit d).isLowerHex32
  have hall : ∀ l ∈ leaves, IsHex32 l := by
    intro l hl
    simp only [leaves, List.mem_cons, List.not_mem_nil, or_false] at hl
    rcases hl with rfl | rfl | rfl
    · exact hleaf 1
    · exact hleaf 11
    · exact hleaf 3
  have hclog : Nat.clog 2 leaves.length = 2 := by decide
  refine ⟨?_, ?_⟩
  · obtain ⟨root, proof, computed, hr, hp, hlen, hv, hm⟩ :=
      (merkleProof_verifies K).1 leaves 2 (by decide) hall
    exact ⟨root, proof, computed, hr, hp, hlen.trans hclog, hv, hm⟩
  · refine (merkleProof_verifies K).2 (leaf 1) (leaf 11) [leaf 3]
      (hleaf 1) ?_ (Digest.ofDigit 11).isLowerHex32
    intro p hp
    rw [List.mem_singleton.1 hp]
    exact hleaf 3

end Proofstand.Anchor.Browser
