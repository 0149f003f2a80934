/-
The Merkle loops are pair-tree levels: `nextLevel` is the library's
`levelUp` at the sorted pair, `rootLoop` ends at the one-entry level,
`proofLoop` collects the siblings of one index, and `verifyProof` climbs
along them. Everything the later files say about roots and proofs goes
through the four equations here.

The format enters through one law, `Reads`: a node written as text reads
back as itself.

# Loops and fuel

`rootLoop` and `proofLoop` halve a level until one node is left. Each is
given the length of the leaves as fuel; `clog_le_length` says that this is
enough, and from then on fuel is not mentioned. The equation for the proof
has the index shift to the right at each level while the sibling is the
index with its last bit flipped, or the index itself at an odd tail
(`pickSibling_eq`).

# Failures

Leaves are text, and text may not be hex: the functions then raise.
`merkleRoot_eq_ok` starts from a root that was computed, and
`level_of_isHex32` from leaves of the right form, so that the later files
have one or the other and never look at a failing read.
-/
import Proofstand.Anchor.Merkle
import Proofstand.Lib.PairTree
import Proofstand.Lib.Fallible

namespace Proofstand.Anchor

open Hex PairTree Fallible

variable {S N : Type} [LinearOrder N] (F : NodeFormat S N)

-- ================================================== the sorted pair

/-- Sorting first makes the pair blind to its order. -/
theorem sortedPair_comm (a b : N) : sortedPair F a b = sortedPair F b a := by
  unfold sortedPair
  by_cases hab : a ≤ b
  · by_cases hba : b ≤ a
    · rw [le_antisymm hab hba]
    · rw [if_pos hab, if_neg hba]
  · rw [if_neg hab, if_pos (le_of_not_ge hab)]

/-- A collision-free pair hash stays so up to order once its arguments
are sorted. -/
theorem sortedPair_pairInjective (hinj : Function.Injective2 F.keccak) :
    PairInjective (sortedPair F) := by
  intro a b c d h
  unfold sortedPair at h
  split at h
  · split at h
    · exact Or.inl (hinj h)
    · exact Or.inr (hinj h)
  · split at h
    · obtain ⟨hbc, had⟩ := hinj h
      exact Or.inr ⟨had, hbc⟩
    · obtain ⟨hbd, hac⟩ := hinj h
      exact Or.inl ⟨hac, hbd⟩

/-- `nextLevel` is one level of the pair tree. -/
theorem nextLevel_eq_levelUp (level : List N) :
    nextLevel F level = levelUp (sortedPair F) level := by
  induction level using nextLevel.induct with
  | case1 => rfl
  | case2 a => rfl
  | case3 a b rest ih => simp only [nextLevel, levelUp, ih]

-- ======================================================== the root loop

/-- One more halving above a level of at least two. -/
theorem clog_eq_succ_levelUp {level : List N} (h : 1 < level.length) :
    Nat.clog 2 level.length
      = Nat.clog 2 (levelUp (sortedPair F) level).length + 1 := by
  rw [levelUp_length, Nat.clog_of_two_le (by omega) (by omega)]
  rfl

/-- With enough fuel the loop ends at the top level. -/
theorem rootLoop_eq_levels {fuel : Nat} {level : List N}
    (hf : Nat.clog 2 level.length ≤ fuel) :
    rootLoop F fuel level
      = levels (sortedPair F) level (Nat.clog 2 level.length) := by
  induction fuel generalizing level with
  | zero =>
      rw [Nat.le_zero.mp hf]
      rfl
  | succ fuel ih =>
      rw [rootLoop]
      split
      case isTrue h =>
          have hc := clog_eq_succ_levelUp F h
          rw [nextLevel_eq_levelUp, ih (by omega), hc, levels_succ']
      case isFalse h =>
          rw [Nat.clog_of_right_le_one (by omega)]
          rfl

/-- The fuel the code is given is enough. -/
theorem clog_le_length (n : Nat) : Nat.clog 2 n ≤ n :=
  Nat.clog_le_of_le_pow (Nat.le_of_lt Nat.lt_two_pow_self)

/-- The root is the single entry of the top level. -/
theorem merkleRoot_eq {leaves : List S} {level : List N}
    (hne : leaves ≠ []) (hlevel : leaves.mapM F.leafBytes = .ok level)
    {top : N}
    (htop : levels (sortedPair F) level (Nat.clog 2 level.length) = [top]) :
    merkleRoot F leaves = .ok (F.hex top) := by
  have hemp : leaves.isEmpty = false := by
    cases leaves with
    | nil => exact absurd rfl hne
    | cons a l => rfl
  rw [merkleRoot, hemp, hlevel]
  show (do let node ← item (rootLoop F level.length level) 0
           pure (F.hex node) : Py S) = _
  rw [rootLoop_eq_levels F (clog_le_length _), htop]
  rfl

/-- Every non-empty batch of readable leaves has a top node. -/
theorem exists_top {leaves : List S} {level : List N} (hne : leaves ≠ [])
    (hlevel : leaves.mapM F.leafBytes = .ok level) :
    ∃ top, levels (sortedPair F) level (Nat.clog 2 level.length) = [top] := by
  have hlen := mapM_length hlevel
  have hpos : 0 < level.length := by
    rw [hlen]
    exact List.length_pos_iff.mpr hne
  exact List.length_eq_one_iff.mp (levels_top (sortedPair F) level hpos)

/-- A root that was computed is the written top of its leaves' tree. -/
theorem merkleRoot_eq_ok {leaves : List S} {root : S} (hne : leaves ≠ [])
    (h : merkleRoot F leaves = .ok root) :
    ∃ level top, leaves.mapM F.leafBytes = .ok level
      ∧ levels (sortedPair F) level (Nat.clog 2 level.length) = [top]
      ∧ root = F.hex top := by
  have hemp : ¬ leaves.isEmpty = true := by
    rwa [List.isEmpty_iff]
  unfold merkleRoot at h
  rw [if_neg hemp] at h
  obtain ⟨level, hlevel, -⟩ := bind_eq_ok.1 h
  obtain ⟨top, htop⟩ := exists_top F hne hlevel
  have hroot := merkleRoot_eq F hne hlevel htop
  unfold merkleRoot at hroot
  rw [if_neg hemp, h] at hroot
  exact ⟨level, top, hlevel, htop, Except.ok.inj hroot⟩

-- ======================================================= the proof loop

omit [LinearOrder N] in
/-- The sibling the proof loop picks is the pair tree's. -/
theorem pickSibling_eq {level : List N} {idx : Nat} {sib : N}
    (h : 1 < level.length) (hs : sibling level idx = some sib) :
    pickSibling level idx = .ok sib := by
  have hcond : (idx = level.length - 1 ∧ level.length % 2 = 1)
      ↔ (idx + 1 = level.length ∧ level.length % 2 = 1) := by omega
  unfold sibling at hs
  unfold pickSibling
  split at hs
  case isTrue hodd =>
      rw [if_pos (hcond.mpr hodd), item, hs]
  case isFalse hodd =>
      rw [if_neg (fun hc => hodd (hcond.mp hc)), item, hs]

/-- The proof is the written siblings of its index, one a level. -/
theorem proofLoop_eq {fuel : Nat} {level : List N} {idx : Nat}
    (hf : Nat.clog 2 level.length ≤ fuel) (hi : idx < level.length) :
    ∃ path, proofLoop F fuel level idx = .ok (path.map F.hex)
      ∧ Siblings (sortedPair F) level idx path
      ∧ path.length = Nat.clog 2 level.length := by
  induction fuel generalizing level idx with
  | zero => exact ⟨[], rfl, .nil level idx, (Nat.le_zero.mp hf).symm⟩
  | succ fuel ih =>
      by_cases h : 1 < level.length
      · have hc := clog_eq_succ_levelUp F h
        have hlen := levelUp_length (sortedPair F) level
        obtain ⟨sib, hsib⟩ := sibling_isSome hi
        obtain ⟨path, hpath, hsibs, hplen⟩ :=
          ih (show Nat.clog 2 (levelUp (sortedPair F) level).length ≤ fuel
              by omega)
            (show idx / 2 < (levelUp (sortedPair F) level).length by omega)
        refine ⟨sib :: path, ?_, .cons hsib hsibs, ?_⟩
        · rw [proofLoop, if_pos h, pickSibling_eq h hsib,
            nextLevel_eq_levelUp, hpath]
          rfl
        · rw [List.length_cons, hplen, hc]
      · refine ⟨[], ?_, .nil level idx, ?_⟩
        · rw [proofLoop, if_neg h]
          rfl
        · rw [Nat.clog_of_right_le_one (by omega)]
          rfl

-- ============================================================= the fold

/-- A written node reads back as itself. -/
def Reads : Prop := ∀ n, F.leafBytes (F.hex n) = .ok n

/-- Folding along entries that read as `path` climbs along `path`. -/
theorem foldlM_foldStep {proof : List S} {path : List N}
    (hp : proof.mapM F.leafBytes = .ok path) (node : N) :
    proof.foldlM (foldStep F) node
      = .ok (climb (sortedPair F) node path) := by
  induction proof generalizing path node with
  | nil =>
      cases hp
      rfl
  | cons p proof ih =>
      obtain ⟨sib, path', hread, hrest, rfl⟩ := mapM_cons_eq_ok.1 hp
      rw [List.foldlM_cons, foldStep, hread]
      exact ih hrest (sortedPair F node sib)

/-- Stripping the `0x` a writer put there. -/
theorem removePrefix_0x (cs : List Char) :
    removePrefix ['0', 'x'] ('0' :: 'x' :: cs) = cs := by
  simp [removePrefix, List.isPrefixOf]

/-- Node text of the format of record reads back. -/
theorem byteNodes_reads (K : Keccak) : Reads (byteNodes K) := by
  intro bs
  show leafBytes (hex0x bs) = .ok bs
  rw [leafBytes, hex0x, String.toList_ofList, removePrefix_0x]
  exact fromhex_of_hexPairs (Hex.hexPairs_encodeHex bs)

/-- `verifyProof` is one climb and one comparison. -/
theorem verifyProof_eq [DecidableEq S] {leaf : S} {node : N}
    {proof : List S} {path : List N} (root : S)
    (hleaf : F.leafBytes leaf = .ok node)
    (hp : proof.mapM F.leafBytes = .ok path) :
    verifyProof F leaf proof root
      = .ok (F.hex (climb (sortedPair F) node path) == root) := by
  rw [verifyProof, hleaf]
  show (do let node ← proof.foldlM (foldStep F) node
           pure (F.hex node == root) : Py Bool) = _
  rw [foldlM_foldStep F hp]
  rfl

-- ========================================================== completeness

/-- The proof for index `i` folds its leaf to the root, in `clog 2 n`
steps. The root and the proof are named so that a caller can go on with
them: a property of leaves and pair hashes is one of both. -/
theorem merkleProof_complete [DecidableEq S] (hread : Reads F)
    {leaves : List S} {level : List N}
    (hlevel : leaves.mapM F.leafBytes = .ok level) {i : Nat}
    (hi : i < leaves.length) :
    ∃ (top : N) (path : List N), merkleRoot F leaves = .ok (F.hex top)
      ∧ merkleProof F leaves i = .ok (path.map F.hex)
      ∧ path.length = Nat.clog 2 leaves.length
      ∧ verifyProof F leaves[i] (path.map F.hex) (F.hex top) = .ok true
      ∧ ∀ P : N → Prop, (∀ a b, P (F.keccak a b)) → (∀ n ∈ level, P n) →
          P top ∧ ∀ n ∈ path, P n := by
  have hne : leaves ≠ [] := List.length_pos_iff.mp (by omega)
  have hlen := mapM_length hlevel
  obtain ⟨top, htop⟩ := exists_top F hne hlevel
  obtain ⟨path, hpath, hsibs, hplen⟩ :=
    proofLoop_eq F (clog_le_length level.length)
      (show i < level.length by omega)
  obtain ⟨node, hnode, hat⟩ :=
    mapM_getElem? hlevel (List.getElem?_eq_getElem hi)
  have hclimb := climb_siblings (sortedPair F) (sortedPair_comm F) hat hsibs
  have hzero : i / 2 ^ Nat.clog 2 level.length = 0 :=
    Nat.div_eq_of_lt
      (Nat.lt_of_lt_of_le (by omega) (Nat.le_pow_clog (by omega) _))
  rw [hplen, htop, hzero] at hclimb
  have htopeq : top = climb (sortedPair F) node path := by simpa using hclimb
  refine ⟨top, path, merkleRoot_eq F hne hlevel htop, ?_, ?_, ?_, ?_⟩
  · rw [merkleProof, hlevel]
    exact hpath
  · rw [hplen, hlen]
  · rw [verifyProof_eq F (F.hex top) hnode (mapM_map_eq_ok hread path),
      ← htopeq]
    simp
  · intro P hkeccak hall
    have hjoin : ∀ a b, P (sortedPair F a b) := by
      intro a b
      unfold sortedPair
      split
      · exact hkeccak a b
      · exact hkeccak b a
    refine ⟨?_, siblings_all (sortedPair F) hjoin hall hsibs⟩
    refine levels_all (sortedPair F) hjoin hall
      (Nat.clog 2 level.length) top ?_
    rw [htop]
    exact List.mem_singleton_self top

-- ========================================================= 32-byte hex

/-- A text of hex digits has no `0x` of its own. -/
theorem isPrefixOf_0x_hexDigits {cs : List Char}
    (hd : ∀ c ∈ cs, (hexVal c).isSome) :
    ['0', 'x'].isPrefixOf cs = false := by
  match cs with
  | [] => rfl
  | [c] => simp [List.isPrefixOf]
  | c :: d :: rest =>
      have hx : 'x' ≠ d := by
        intro hxd
        have hval := hd d (by simp)
        rw [← hxd] at hval
        exact absurd hval (by decide)
      simp [List.isPrefixOf, hx]

theorem hexPairs_of_isHex32 {s : String} (hs : IsHex32 s) :
    ∃ cs bs, (s.toList = cs ∨ s.toList = '0' :: 'x' :: cs)
      ∧ (∀ c ∈ cs, (hexVal c).isSome) ∧ HexPairs cs bs ∧ bs.length = 32 := by
  obtain ⟨cs, hcs, hlen, hd⟩ := hs
  obtain ⟨bs, hbs, hblen⟩ :=
    exists_hexPairs (show cs.length = 2 * 32 by omega) hd
  exact ⟨cs, bs, hcs, hd, hbs, hblen⟩

/-- Hex digits are read alike with and without their `0x`. -/
theorem leafBytes_of_hexPairs {s : String} {cs : List Char} {bs : Bytes}
    (hcs : s.toList = cs ∨ s.toList = '0' :: 'x' :: cs)
    (hd : ∀ c ∈ cs, (hexVal c).isSome) (hbs : HexPairs cs bs) :
    leafBytes s = .ok bs := by
  rw [leafBytes]
  rcases hcs with h | h
  · rw [h, removePrefix, isPrefixOf_0x_hexDigits hd]
    exact fromhex_of_hexPairs hbs
  · rw [h, removePrefix_0x]
    exact fromhex_of_hexPairs hbs

/-- A batch of 32-byte hex leaves has a bottom level of 32-byte nodes. -/
theorem level_of_isHex32 {leaves : List String}
    (hall : ∀ leaf ∈ leaves, IsHex32 leaf) :
    ∃ level, leaves.mapM leafBytes = .ok level
      ∧ ∀ n ∈ level, n.length = 32 := by
  induction leaves with
  | nil => exact ⟨[], rfl, by simp⟩
  | cons a leaves ih =>
      obtain ⟨cs, n, hcs, hd, hn, hnlen⟩ :=
        hexPairs_of_isHex32 (hall a (by simp))
      obtain ⟨level, hlevel, hlens⟩ := ih fun b hb => hall b (by simp [hb])
      refine ⟨n :: level, ?_, ?_⟩
      · exact mapM_cons_eq_ok.2
          ⟨n, level, leafBytes_of_hexPairs hcs hd hn, hlevel, rfl⟩
      · intro m hm
        rcases List.mem_cons.1 hm with rfl | hm
        · exact hnlen
        · exact hlens m hm

/-- Lower case is one way to write it, -/
theorem isHex32_of_isLowerHex32 {s : String} (hs : IsLowerHex32 s) :
    IsHex32 s := by
  obtain ⟨cs, hcs, hlen, hd⟩ := hs
  refine ⟨cs, hcs, hlen, fun c hc => ?_⟩
  obtain ⟨d, rfl⟩ := hd c hc
  rw [hexVal_lowerDigit]
  rfl

/-- and the one of `hexdigest()`. -/
theorem Digest.isLowerHex32 (d : Digest) : IsLowerHex32 d.hex :=
  ⟨d.hex.toList, Or.inl rfl, d.length_eq, d.lower⟩

end Proofstand.Anchor
